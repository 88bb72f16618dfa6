import Coordination.Lease
import Coordination.Settings.Address
import Coordination.Text.Json
import Coordination.Text.Toml
import Coordination.Text.Utf8

/-!
# Settings

The settings of a service, and how a file gives them. The file's extension names its format, TOML
or JSON; either way a setting that the file leaves out keeps its standard value, and a name that is
no setting is skipped.
-/

namespace Coordination

open Text

/-- What the program can be told before it starts. -/
structure Settings where
  /-- Where the service listens. -/
  address : SocketAddress
  /-- How long a contact keeps a session connected, in milliseconds. -/
  leaseInterval : UInt64
  /-- How long a session stays in jeopardy, in milliseconds. -/
  gracePeriod : UInt64
  /-- How often leases are looked at, in milliseconds. -/
  reaperInterval : UInt64
  /-- The most bytes that the payload of a frame may have. -/
  maxFrameLength : UInt64
  deriving DecidableEq

/-- One of the settings. -/
inductive Setting where
  | address
  | leaseInterval
  | gracePeriod
  | reaperInterval
  | maxFrameLength
  deriving DecidableEq

/-- What a file gives for a setting. -/
inductive Given where
  | text (content : String)
  | number (n : Nat)
  /-- No setting has such a value. -/
  | other

/-- The formats a file of settings may have. -/
inductive SettingsFormat where
  | toml
  | json
  deriving DecidableEq

/-- Why a file gives no settings. -/
inductive SettingsError where
  /-- There is no file, or it is not UTF-8. -/
  | unreadable
  | unsupportedExtension (extension : String)
  /-- The text is not of its format, or gives a setting no proper value or two. -/
  | malformed (format : SettingsFormat)
  | zeroInterval
  | zeroFrameLength
  deriving DecidableEq

/-- The wording of an error. -/
def SettingsError.message : SettingsError → String
  | .unreadable => "The config file cannot be read"
  | .unsupportedExtension extension => "Unsupported config file extension: " ++ extension
  | .malformed .toml => "The config file is not valid TOML"
  | .malformed .json => "The config file is not valid JSON"
  | .zeroInterval => "lease, grace and reaper intervals must be non-zero"
  | .zeroFrameLength => "max_frame_len must be non-zero"

namespace Setting

/-- Every setting, in the order in which a list gives them. -/
def all : List Setting := [.address, .leaseInterval, .gracePeriod, .reaperInterval, .maxFrameLength]

/-- The name of a setting in a file. -/
def name : Setting → String
  | .address => "bind_addr"
  | .leaseInterval => "lease_interval_ms"
  | .gracePeriod => "grace_period_ms"
  | .reaperInterval => "reaper_interval_ms"
  | .maxFrameLength => "max_frame_len"

/-- The setting of a name. -/
def ofName? (s : String) : Option Setting := all.find? (·.name = s)

end Setting

namespace Given

/-- A number that fits into 64 bits. -/
def word? : Given → Option UInt64
  | .number n => if n < UInt64.size then some (.ofNat n) else none
  | _ => none

/-- The address that was given, if it is one. -/
def address? : Given → Option SocketAddress
  | .text s => SocketAddress.parse? s
  | _ => none

/-- What a JSON value gives. -/
def ofJson : Json → Given
  | .text (some s) => .text s
  | .number (some n) => .number n
  | _ => .other

/-- What a TOML value gives. -/
def ofToml : Toml.Entry → Given
  | .value (.text s) => .text s
  | .value (.integer n) => if 0 ≤ n then .number n.toNat else .other
  | _ => .other

end Given

namespace Settings

/-- The settings of a service that is given none. -/
def standard : Settings := ⟨.v4 [0, 0, 0, 0] 38040, 12000, 30000, 1000, 4 * 1024 * 1024⟩

/-- The terms on which sessions are leased. -/
def terms (s : Settings) : LeaseTerms := ⟨s.leaseInterval.toNat, s.gracePeriod.toNat⟩

/-- Gives one setting its value. -/
def assign (s : Settings) (setting : Setting) (v : Given) : Option Settings :=
  match setting with
  | .address => (fun a => { s with address := a }) <$> v.address?
  | .leaseInterval => (fun n => { s with leaseInterval := n }) <$> v.word?
  | .gracePeriod => (fun n => { s with gracePeriod := n }) <$> v.word?
  | .reaperInterval => (fun n => { s with reaperInterval := n }) <$> v.word?
  | .maxFrameLength => (fun n => { s with maxFrameLength := n }) <$> v.word?

/-- Gives settings their values, each at most once. -/
def assignAll (s : Settings) (values : List (Setting × Given)) : Option Settings :=
  if (values.map Prod.fst).Nodup then
    values.foldlM (fun s (setting, v) => s.assign setting v) s
  else none

/-- The settings that names are bound to. -/
def ofMembers? (members : List (String × Given)) : Option Settings :=
  standard.assignAll (members.filterMap fun (name, v) => (Setting.ofName? name).map (·, v))

/-- The settings that a list gives in their order; it may end early. -/
def ofList? (values : List Given) : Option Settings :=
  if values.length ≤ Setting.all.length then standard.assignAll (Setting.all.zip values) else none

/-- The settings that a JSON document gives, by name or in order. -/
def ofJson? : Json → Option Settings
  | .object members => do
    ofMembers? (← members.mapM fun (name, v) => return (← name, .ofJson v))
  | .array items => ofList? (items.map .ofJson)
  | _ => none

/-- The settings that a TOML document gives by name. -/
def ofToml? (members : Toml.Members) : Option Settings :=
  ofMembers? (members.map fun (name, e) => (name, .ofToml e))

/-- The settings that a text of some format gives. -/
def parse? (format : SettingsFormat) (s : String) : Option Settings :=
  match format with
  | .toml => Toml.parse? s >>= ofToml?
  | .json => Json.parse? s >>= ofJson?

/-- A service cannot run with intervals or frames of no length. -/
def validate (s : Settings) : Except SettingsError Unit :=
  if s.leaseInterval = 0 ∨ s.gracePeriod = 0 ∨ s.reaperInterval = 0 then .error .zeroInterval
  else if s.maxFrameLength = 0 then .error .zeroFrameLength
  else .ok ()

/-- What follows the last dot of a file's name, unless the name begins with that dot. -/
def extension (path : String) : String :=
  let name := path.toList.reverse.takeWhile (· ≠ '/')
  match name.dropWhile (· ≠ '.') with
  | '.' :: _ :: _ => String.ofList (name.takeWhile (· ≠ '.')).reverse
  | _ => ""

/-- The format that an extension names, in either case. -/
def format? (extension : String) : Option SettingsFormat :=
  match extension.map Char.toLower with
  | "toml" => some .toml
  | "json" => some .json
  | _ => none

/-- The settings that a file gives, by its path and its bytes, if there is such a file. -/
def ofFile (path : String) (bytes : Option (List UInt8)) : Except SettingsError Settings := do
  let some bytes := bytes | throw .unreadable
  let .ok text := Utf8.decode bytes | throw .unreadable
  let some format := format? (extension path) | throw (.unsupportedExtension (extension path))
  let some settings := parse? format text | throw (.malformed format)
  settings.validate
  return settings

end Settings

end Coordination
