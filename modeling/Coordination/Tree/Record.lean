import Coordination.Store
import Coordination.Wire.Reader

/-!
# Node records

The store keeps one record per persistent node, under a key made of the node's path. A record holds
the directory flag and the attributes in ascending order of their names, with every length in eight
bytes. Reading accepts names in any order, keeps the last value of a repeated name, and ignores
what follows the record.
-/

namespace Coordination

/-- The persistent part of a node. -/
structure Record where
  isDir : Bool
  attrs : FinMap String Bytes
  deriving DecidableEq

namespace Record

/-- What the keys of all node records begin with. -/
def keyStem : Bytes := Text.Utf8.encode "node/"

/-- The store key of the node at a path. -/
def key (path : String) : Bytes := keyStem ++ Text.Utf8.encode path

/-- A byte string after its length. -/
def field (b : Bytes) : Bytes := Wire.littleEndian 8 b.length ++ b

/-- The bytes of a record. -/
def encode (r : Record) : Bytes :=
  Wire.bool r.isDir ++ Wire.littleEndian 8 r.attrs.size ++
    r.attrs.toList.flatMap fun (name, value) => field (Text.Utf8.encode name) ++ field value

/-- Reads an attribute: its name and its value. -/
def readAttr : Wire.Reader (String × Bytes) := do
  let name ← Wire.Reader.textOf (← Wire.Reader.fixed 8)
  let value ← Wire.Reader.take (← Wire.Reader.fixed 8) .short
  return (name, value)

/-- Reads a record, with its attributes in any order. -/
def read : Wire.Reader Record := do
  let isDir ← Wire.Reader.bool
  let attrs ← Wire.Reader.many readAttr (← Wire.Reader.fixed 8)
  return ⟨isDir, .ofList attrs⟩

/-- The record at the front of some bytes. -/
def decode (bytes : Bytes) : Except Failure Record :=
  match read.leading bytes with
  | .ok r => .ok r
  | .error e => .error (.store e.message)

end Record

end Coordination
