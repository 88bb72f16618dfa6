import Coordination.Proofs.Maps
import Coordination.Proofs.Wire.Reader
import Coordination.Tree.Record

/-!
# Records are read as they were written

A record whose lengths fit the eight bytes they are written in is read back from its bytes, and the
path of a node is read back from its key.
-/

namespace Coordination.Record

variable {r : Record} {bytes rest : Bytes} {path : String}

/-- Every length in the record fits the eight bytes it is written in, as any does that a machine word
holds. -/
structure Fits (r : Record) : Prop where
  size : r.attrs.size < 256 ^ 8
  name : ∀ b ∈ r.attrs.toList, (Text.Utf8.encode b.1).length < 256 ^ 8
  value : ∀ b ∈ r.attrs.toList, b.2.length < 256 ^ 8

/-- It can be decided whether a record fits. -/
instance (r : Record) : Decidable r.Fits :=
  decidable_of_iff (r.attrs.size < 256 ^ 8 ∧
      (∀ b ∈ r.attrs.toList, (Text.Utf8.encode b.1).length < 256 ^ 8) ∧
        ∀ b ∈ r.attrs.toList, b.2.length < 256 ^ 8)
    ⟨fun ⟨size, name, value⟩ => ⟨size, name, value⟩, fun fits => ⟨fits.size, fits.name, fits.value⟩⟩

/-- Whether a record fits is a matter of its attributes. -/
lemma Fits.of_attrs {r' : Record} (fits : r.Fits) (same : r'.attrs = r.attrs) : r'.Fits where
  size := same ▸ fits.size
  name := same ▸ fits.name
  value := same ▸ fits.value

/-- The bytes are what the record is written as, or else are read as the record. -/
def Written (r : Record) (bytes : Bytes) : Prop := bytes = r.encode ∨ decode bytes = .ok r

/-! ## Values -/

/-- An attribute is read back. -/
lemma run_readAttr {b : String × Bytes} (name : (Text.Utf8.encode b.1).length < 256 ^ 8)
    (value : b.2.length < 256 ^ 8) (rest : Bytes) :
    readAttr.run (field (Text.Utf8.encode b.1) ++ field b.2 ++ rest) = .ok (b, rest) := by
  simp only [field, List.append_assoc]
  rw [readAttr, Wire.Reader.run_bind_of_ok (Wire.Reader.run_fixed name _),
    Wire.Reader.run_bind_of_ok (Wire.Reader.run_textOf ..),
    Wire.Reader.run_bind_of_ok (Wire.Reader.run_fixed value _),
    Wire.Reader.run_bind_of_ok (Wire.Reader.run_take ..)]
  rfl

/-- Reading takes a record off the bytes it was written as. -/
lemma run_read (fits : r.Fits) (rest : Bytes) : read.run (r.encode ++ rest) = .ok (r, rest) := by
  have attrs := Wire.Reader.run_many readAttr
    (fun b => field (Text.Utf8.encode b.1) ++ field b.2) r.attrs.toList
    (fun b mem => run_readAttr (fits.name b mem) (fits.value b mem)) rest
  rw [read, encode, List.append_assoc, List.append_assoc,
    Wire.Reader.run_bind_of_ok (Wire.Reader.run_bool ..),
    Wire.Reader.run_bind_of_ok (Wire.Reader.run_fixed fits.size _)]
  refine (Wire.Reader.run_bind_of_ok attrs).trans ?_
  rw [FinMap.ofList_toList]
  rfl

/-- A record that fits is read back. -/
lemma decode_encode (fits : r.Fits) : decode r.encode = .ok r := by
  have whole := run_read fits []
  rw [List.append_nil] at whole
  rw [decode, Wire.Reader.leading, whole]

/-- What was written for a record is read as that record. -/
lemma Written.decode_eq_ok (written : r.Written bytes) (fits : r.Fits) : decode bytes = .ok r := by
  rcases written with rfl | read
  · exact decode_encode fits
  · exact read

/-! ## Keys -/

/-- The keys of records begin with their stem. -/
lemma keyStem_prefix_key (path : String) : keyStem <+: key path := List.prefix_append ..

/-- Nodes at different paths have different keys. -/
lemma key_injective : Function.Injective key := by
  intro path path' same
  exact Text.Utf8.encode_injective (List.append_cancel_left same)

/-- What follows the stem of a key is read as a path if the key is that of the path. -/
lemma decode_drop_eq_ok {k : Bytes} (stem : keyStem <+: k) :
    Text.Utf8.decode (k.drop keyStem.length) = .ok path ↔ k = key path := by
  obtain ⟨rest, rfl⟩ := stem
  rw [List.drop_left, Text.Utf8.decode_eq_ok_iff, key]
  exact List.append_cancel_left_eq .. ▸ Iff.rfl

end Coordination.Record
