import Coordination.Text.Utf8
import Coordination.Wire.Integer

/-!
# Reading values off bytes

A `Reader` takes a value off the front of a byte string and leaves the rest. `Reader.complete`
reads a whole byte string and refuses one that has bytes left, `Reader.leading` lets them be.
Every way in which bytes can fail to be a value is a case of `Malformed`.
-/

namespace Coordination.Wire

/-- How bytes fail to be a value. -/
inductive Malformed where
  /-- A text is longer than what is left. -/
  | shortText
  /-- Anything else is longer than what is left. -/
  | short
  /-- Bytes are left after the value. -/
  | trailing
  /-- A truth value is neither zero nor one. -/
  | badBool (found : UInt8)
  /-- No variant of the type has this tag. -/
  | unknownTag (found count : Nat)
  /-- A number of 32 bits is larger than that. -/
  | wide (found : Nat)
  /-- The leading byte announces a number of 128 bits. -/
  | tooWide
  /-- The leading byte is kept for later versions. -/
  | reserved
  /-- A text is not UTF-8. -/
  | notText (why : Text.Utf8.Invalid)
  deriving DecidableEq

/-- The text of the failure. -/
def Malformed.message : Malformed → String
  | .shortText => "io error: "
  | .short => "io error: unexpected end of file"
  | .trailing => "Slice had bytes remaining after deserialization"
  | .badBool found =>
    "invalid u8 while decoding bool, expected 0 or 1, found " ++ found.toNat.repr
  | .unknownTag found count =>
    "invalid value: integer \x60" ++ found.repr ++ "\x60, expected variant index 0 <= i < " ++
      count.repr
  | .wide found =>
    "Invalid u32 " ++ found.repr ++ ": you may have a version disagreement?"
  | .tooWide =>
    "Invalid value (u128 range): you may have a version or configuration disagreement?"
  | .reserved =>
    "\nByte 255 is treated as an extension point; it should not be encoding anything.\n" ++
      "Do you have a mismatched bincode version or configuration?\n"
  | .notText why => "string is not valid utf8: " ++ why.message

/-- Takes a value off the front of a byte string. -/
abbrev Reader := StateT (List UInt8) (Except Malformed)

namespace Reader

variable {α : Type}

/-- Reads a whole byte string. -/
def complete (r : Reader α) (bytes : List UInt8) : Except Malformed α :=
  match r.run bytes with
  | .error e => .error e
  | .ok (a, []) => .ok a
  | .ok (_, _ :: _) => .error .trailing

/-- Reads the front of a byte string and ignores the rest. -/
def leading (r : Reader α) (bytes : List UInt8) : Except Malformed α :=
  match r.run bytes with
  | .error e => .error e
  | .ok (a, _) => .ok a

/-- Refuses whatever follows. -/
def fail (e : Malformed) : Reader α := fun _ => .error e

/-- The next `n` bytes, or the given failure if fewer are left. -/
def take (n : Nat) (e : Malformed) : Reader (List UInt8) := fun bytes =>
  if n ≤ bytes.length then .ok (bytes.take n, bytes.drop n) else .error e

/-- Reads a byte. -/
def byte : Reader UInt8
  | [] => .error .short
  | b :: rest => .ok (b, rest)

/-- Reads a truth value. -/
def bool : Reader Bool := do
  match ← byte with
  | 0 => return false
  | 1 => return true
  | found => fail (.badBool found)

/-- A number of fixed width, lowest byte first. -/
def fixed (width : Nat) : Reader Nat := ofLittleEndian <$> take width .short

/-- A number in as few bytes as its size needs: one byte up to 250, else a leading byte that tells
the width. A longer form than needed is accepted. -/
def varint : Reader Nat := do
  let lead ← byte
  if lead < 251 then return lead.toNat
  else if lead = 251 then fixed 2
  else if lead = 252 then fixed 4
  else if lead = 253 then fixed 8
  else if lead = 254 then fail .tooWide
  else fail .reserved

/-- Reads a word. -/
def word64 : Reader UInt64 := UInt64.ofNat <$> varint

/-- Reads a number of 32 bits. -/
def word32 : Reader UInt32 := do
  let n ← varint
  if n < UInt32.size then return UInt32.ofNat n else fail (.wide n)

/-- The tag of a type with so many variants. -/
def tag (count : Nat) : Reader Nat := do
  let n := (← word32).toNat
  if n < count then return n else fail (.unknownTag n count)

/-- A text of the given number of bytes. -/
def textOf (length : Nat) : Reader String := do
  match Text.Utf8.decode (← take length .shortText) with
  | .ok s => return s
  | .error why => fail (.notText why)

/-- So many values in a row. -/
def many (r : Reader α) : Nat → Reader (List α)
  | 0 => return []
  | n + 1 => return (← r) :: (← many r n)

/-- Reads a text with its length in front. -/
def text : Reader String := do textOf (← varint)

/-- Reads bytes with their count in front. -/
def bytes : Reader (List UInt8) := do take (← varint) .short

/-- Reads a list with its length in front. -/
def list (r : Reader α) : Reader (List α) := do many r (← varint)

end Reader

/-! ## Writing the same values -/

/-- A number in as few bytes as its size needs. -/
def varint (n : Nat) : List UInt8 :=
  if n < 251 then [UInt8.ofNat n]
  else if n < UInt16.size then 251 :: littleEndian 2 n
  else if n < UInt32.size then 252 :: littleEndian 4 n
  else 253 :: littleEndian 8 n

/-- A truth value is written as one byte. -/
def bool (b : Bool) : List UInt8 := [if b then 1 else 0]

/-- Bytes are written with their count in front. -/
def bytes (b : List UInt8) : List UInt8 := varint b.length ++ b

/-- A text is written as its bytes. -/
def text (s : String) : List UInt8 := bytes (Text.Utf8.encode s)

/-- A list is written with its length in front. -/
def list {α : Type} (write : α → List UInt8) (l : List α) : List UInt8 :=
  varint l.length ++ l.flatMap write

end Coordination.Wire
