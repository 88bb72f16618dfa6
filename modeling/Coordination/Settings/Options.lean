import Coordination.Settings.Basic

/-!
# Options

The arguments of the program: a settings file, and an address that overrides the one in it.
-/

namespace Coordination

/-- What the arguments ask for. -/
structure Options where
  /-- The settings file. Without one the standard settings hold. -/
  file : Option String
  /-- Where to listen, whatever the settings say. -/
  address : Option SocketAddress
  deriving DecidableEq

namespace Options

/-- Reads arguments; a later one overrides an earlier one. -/
def read (o : Options) : List String → Except String Options
  | [] => .ok o
  | "--config" :: path :: args | "-c" :: path :: args => { o with file := some path }.read args
  | "--bind" :: text :: args =>
    match SocketAddress.parse? text with
    | some a => { o with address := some a }.read args
    | none => .error ("invalid address '" ++ text ++ "'")
  | arg :: _ => .error ("unexpected argument '" ++ arg ++ "'")

/-- The options that arguments give. -/
def ofArguments (args : List String) : Except String Options := read ⟨none, none⟩ args

/-- The settings under which the program runs, by the bytes of the settings file, if it exists. -/
def settings (o : Options) (bytes : Option (List UInt8)) : Except SettingsError Settings := do
  let s ← match o.file, bytes with
    | some path, some bytes => Settings.ofFile path (some bytes)
    | _, _ => pure .standard
  return match o.address with
    | some a => { s with address := a }
    | none => s

end Options

end Coordination
