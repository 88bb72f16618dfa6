import Coordination.Text.Hex
import Coordination.Wire.Opcode

/-!
# Frames

A frame is a header of twenty bytes and a payload:

    magic 4 | version 1 | kind 1 | opcode 2 | id 8 | payload length 4

all highest byte first. `Frame.scan` takes one frame off the front of a buffer, or asks for more
bytes, or finds the header damaged. Damage is final: the scanner never moves past it. What a frame
means is settled afterwards, by `toRequest`, `toResponse` and `toEvent`.
-/

namespace Coordination.Wire

/-- The direction of a frame. -/
inductive FrameKind where
  | request
  | response
  | event
  deriving DecidableEq

namespace FrameKind

/-- The byte that stands for a kind of frame. -/
def byte : FrameKind → UInt8
  | .request => 1
  | .response => 2
  | .event => 3

/-- The kind of frame a byte stands for. -/
def ofByte? : UInt8 → Option FrameKind
  | 1 => some .request
  | 2 => some .response
  | 3 => some .event
  | _ => none

/-- How messages call the kind. -/
def name : FrameKind → String
  | .request => "Request"
  | .response => "Response"
  | .event => "Event"

/-- The byte of a kind stands for that kind. -/
theorem ofByte?_byte (k : FrameKind) : ofByte? k.byte = some k := by
  cases k <;> rfl

end FrameKind

/-- One framed message. -/
structure Frame where
  kind : FrameKind
  /-- The number of the operation; whether it is known is settled when the payload is read. -/
  opcode : UInt16
  /-- Ties a response to its request; zero in events. -/
  id : UInt64
  payload : List UInt8
  deriving DecidableEq

/-- How a stream of frames breaks. -/
inductive FrameError where
  | invalidMagic (found : Nat)
  | versionMismatch (found : UInt8)
  | invalidKind (found : UInt8)
  | payloadTooLarge (size limit : Nat)
  /-- The stream ends inside a frame. -/
  | cutOff
  deriving DecidableEq

namespace Frame

/-- The number of bytes in front of the payload. -/
def headerSize : Nat := 20

/-- The letters HYSP. -/
def magic : Nat := 0x48595350

/-- The one version of the protocol. -/
def version : UInt8 := 1

end Frame

/-- The text of the failure. -/
def FrameError.message : FrameError → String
  | .invalidMagic found =>
    "invalid magic number: expected " ++ Text.Hex.number 8 Frame.magic ++ ", got " ++
      Text.Hex.number 8 found
  | .versionMismatch found =>
    "protocol version mismatch: expected " ++ Frame.version.toNat.repr ++ ", got " ++
      found.toNat.repr
  | .invalidKind found => "invalid frame kind " ++ found.toNat.repr
  | .payloadTooLarge size limit =>
    "payload too large: " ++ size.repr ++ " bytes (max " ++ limit.repr ++ ")"
  | .cutOff => "bytes remaining on stream"

namespace Frame

/-! ## Frames as bytes -/

/-- Writes a frame whose payload is within the limit. The length field has four bytes. -/
def encode (limit : Nat) (f : Frame) : Except FrameError (List UInt8) :=
  if limit < f.payload.length then .error (.payloadTooLarge f.payload.length limit)
  else
    .ok (bigEndian 4 magic ++ [version, f.kind.byte] ++ bigEndian 2 f.opcode.toNat ++
      bigEndian 8 f.id.toNat ++ bigEndian 4 f.payload.length ++ f.payload)

/-- Takes a frame off the front of a buffer and leaves the rest; `none` asks for more bytes. -/
def scan (limit : Nat) (buffer : List UInt8) : Except FrameError (Option (Frame × List UInt8)) :=
  if buffer.length < headerSize then .ok none
  else
    let foundMagic := ofBigEndian (buffer.take 4)
    let foundVersion := buffer.getD 4 0
    let foundKind := buffer.getD 5 0
    let opcode := ofBigEndian ((buffer.drop 6).take 2)
    let id := ofBigEndian ((buffer.drop 8).take 8)
    let length := ofBigEndian ((buffer.drop 16).take 4)
    if foundMagic ≠ magic then .error (.invalidMagic foundMagic)
    else if foundVersion ≠ version then .error (.versionMismatch foundVersion)
    else
      match FrameKind.ofByte? foundKind with
      | none => .error (.invalidKind foundKind)
      | some kind =>
        if limit < length then .error (.payloadTooLarge length limit)
        else if buffer.length < headerSize + length then .ok none
        else
          let body := buffer.drop headerSize
          .ok (some (⟨kind, UInt16.ofNat opcode, UInt64.ofNat id, body.take length⟩,
            body.drop length))

/-- A frame takes at least one byte from the buffer. -/
theorem length_lt_of_scan {limit : Nat} {buffer rest : List UInt8} {f : Frame}
    (h : scan limit buffer = .ok (some (f, rest))) : rest.length < buffer.length := by
  unfold scan at h
  split at h
  · cases h
  · dsimp only at h
    split at h
    · cases h
    · split at h
      · cases h
      · split at h
        · cases h
        · split at h
          · cases h
          · split at h
            · cases h
            · cases h
              simp only [headerSize, List.length_drop] at *
              omega

/-- Takes frames off the front of a buffer until it asks for more bytes or breaks; returns them,
the failure, and what is left. -/
def scanAll (limit : Nat) (buffer : List UInt8) : List Frame × Option FrameError × List UInt8 :=
  match _ : scan limit buffer with
  | .error e => ([], some e, buffer)
  | .ok none => ([], none, buffer)
  | .ok (some (f, rest)) =>
    let (frames, tail) := scanAll limit rest
    (f :: frames, tail)
termination_by buffer.length
decreasing_by exact length_lt_of_scan ‹_›

/-- The last frame of a stream that has ended, if bytes are left. -/
def scanEnd (limit : Nat) (buffer : List UInt8) : Except FrameError (Option (Frame × List UInt8)) :=
  match scan limit buffer with
  | .error e => .error e
  | .ok (some f) => .ok (some f)
  | .ok none => if buffer = [] then .ok none else .error .cutOff

/-! ## Frames as messages -/

/-- The frame of a request. -/
def ofRequest (id : UInt64) (r : Request) : Frame :=
  ⟨.request, r.opcode.number, id, r.encode⟩

/-- The frame that answers a request. -/
def ofResponse (id : UInt64) (opcode : UInt16) (r : Response) : Frame :=
  ⟨.response, opcode, id, r.encode⟩

/-- The frame of an event, which answers no request. -/
def ofEvent (m : EventMessage) : Frame := ⟨.event, Opcode.event.number, 0, m.encode⟩

/-- Reads a whole payload. -/
def read {α : Type} (r : Reader α) (f : Frame) : Except Failure α :=
  match r.complete f.payload with
  | .ok a => .ok a
  | .error e => .error (.protocol ("malformed payload: " ++ e.message))

/-- The request of a frame, if its kind, its opcode and its payload agree. -/
def toRequest (f : Frame) : Except Failure Request :=
  if f.kind ≠ .request then
    .error (.protocol ("expected request frame, got " ++ f.kind.name))
  else
    match Opcode.ofNumber? f.opcode with
    | none => .error (.protocol ("unknown opcode " ++ Text.Hex.number 4 f.opcode.toNat))
    | some opcode => do
      let r ← f.read Reader.request
      if r.opcode ≠ opcode then
        .error (.protocol ("opcode " ++ opcode.name ++ " does not match payload " ++ r.opcode.name))
      else
        return r

/-- The response a frame holds. -/
def toResponse (f : Frame) : Except Failure Response :=
  if f.kind ≠ .response then .error (.protocol "expected response frame")
  else f.read Reader.response

/-- The event a frame holds. -/
def toEvent (f : Frame) : Except Failure EventMessage :=
  if f.kind ≠ .event then .error (.protocol "expected event frame")
  else f.read Reader.eventMessage

end Frame

end Coordination.Wire
