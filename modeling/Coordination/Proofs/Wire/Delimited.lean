import Coordination.Proofs.Failure
import Coordination.Proofs.Wire.Reader
import Coordination.Wire.Message

/-!
# Values that mark their own end

A reader takes some bytes for a value when it does so whatever follows them (`Reader.Reads`). It is
self-delimiting when it never looks behind what it takes (`Reader.SelfDelimiting`): where it took a
value off the front of some bytes, the bytes it used would have been taken for that value in front
of anything else. Both properties go through sequences, so a reader has them if its parts do. Of the
bytes that a self-delimiting reader accepts as a whole, none is a part of another
(`Reader.complete_eq_error`).
-/

namespace Coordination.Wire.Reader

variable {α β : Type} {r : Reader α} {front back bytes rest p q : List UInt8} {a : α} {b : β}

/-! ## Bytes that are taken for a value -/

/-- The bytes are taken for the value, whatever follows. -/
def Reads (r : Reader α) (front : List UInt8) (a : α) : Prop :=
  ∀ rest, r.run (front ++ rest) = .ok (a, rest)

/-- A result that needs no bytes. -/
lemma Reads.pure (a : α) : Reads (pure a) [] a := fun _ => rfl

/-- What two readers read in a row is written in a row. -/
lemma Reads.bind {f : α → Reader β} (first : Reads r front a) (next : Reads (f a) back b) :
    Reads (r >>= f) (front ++ back) b := by
  intro rest
  rw [List.append_assoc, run_bind_of_ok (first _)]
  exact next rest

/-- The last part of a sequence. -/
lemma Reads.last (g : α → β) (only : Reads r front a) :
    Reads (r >>= fun a => Pure.pure (g a)) front (g a) := by
  intro rest
  rw [run_bind_of_ok (only rest)]
  rfl

/-- A value that its first part tells already. -/
lemma Reads.bind_pure {f : α → Reader β} (first : Reads r front a) (next : f a = Pure.pure b) :
    Reads (r >>= f) front b := by
  intro rest
  rw [run_bind_of_ok (first rest), next]
  rfl

/-- A byte is read as it is. -/
lemma reads_byte (b : UInt8) : Reads byte [b] b := fun _ => rfl

/-- Truth values are read back. -/
lemma reads_bool (b : Bool) : Reads bool (Wire.bool b) b := run_bool b

/-- Numbers of fixed width are read back. -/
lemma reads_fixed {width n : Nat} (small : n < 256 ^ width) :
    Reads (fixed width) (littleEndian width n) n := run_fixed small

/-- Each of the four widths is read back. -/
lemma reads_varint {n : Nat} (small : n < 2 ^ 64) : Reads varint (Wire.varint n) n := by
  intro rest
  rw [Wire.varint]
  split
  case isTrue short =>
    have value : (UInt8.ofNat n).toNat = n := UInt8.toNat_ofNat_of_lt' (short.trans (by decide))
    have lead : UInt8.ofNat n < 251 := by rw [UInt8.lt_iff_toNat_lt, value]; exact short
    rw [varint, run_bind_of_ok (reads_byte _ _), if_pos lead, value]
    rfl
  split
  case isFalse.isTrue two => exact @reads_fixed 2 n two rest
  split
  case isFalse.isFalse.isTrue four => exact @reads_fixed 4 n four rest
  case isFalse.isFalse.isFalse => exact @reads_fixed 8 n small rest

/-- Words are read back. -/
lemma reads_word64 (n : UInt64) : Reads word64 (Wire.word64 n) n := by
  have number := (reads_varint n.toNat_lt).last UInt64.ofNat
  rwa [← map_eq_pure_bind, UInt64.ofNat_toNat] at number

/-- Half words are read back. -/
lemma reads_word32 (n : UInt32) : Reads word32 (Wire.word32 n) n := by
  intro rest
  have small : n.toNat < 2 ^ 64 := n.toNat_lt.trans (by decide)
  rw [word32, Wire.word32, run_bind_of_ok (reads_varint small rest), if_pos n.toNat_lt,
    UInt32.ofNat_toNat]
  rfl

/-- Tags within range are read back. -/
lemma reads_tag {count n : Nat} (known : n < count := by decide)
    (few : count < 2 ^ 32 := by decide) : Reads (tag count) (Wire.varint n) n := by
  intro rest
  have small : n < UInt32.size := known.trans few
  have value : (UInt32.ofNat n).toNat = n := UInt32.toNat_ofNat_of_lt' small
  have word := reads_word32 (UInt32.ofNat n) rest
  rw [Wire.word32, value] at word
  rw [tag, run_bind_of_ok word, value, if_pos known]
  rfl

/-- Lengths are words of 64 bits. -/
def Counted {α : Type} (l : List α) : Prop := l.length < 2 ^ 64

/-- It can be decided whether a list is counted. -/
instance (l : List α) : Decidable (Counted l) := inferInstanceAs (Decidable (l.length < 2 ^ 64))

/-- Byte strings are read back, if they can be counted. -/
lemma reads_bytes {b : List UInt8} (counted : Counted b) : Reads Reader.bytes (Wire.bytes b) b :=
  (reads_varint counted).bind fun rest => run_take b rest .short

/-- Texts are read back, if their bytes can be counted. -/
lemma reads_text {s : String} (counted : Counted (Text.Utf8.encode s)) :
    Reads text (Wire.text s) s :=
  (reads_varint counted).bind fun rest => run_textOf s rest

/-- Lists of what can be read back are read back. -/
lemma reads_list {write : α → List UInt8} {l : List α} (counted : Counted l)
    (each : ∀ a ∈ l, Reads r (write a) a) : Reads (list r) (Wire.list write l) l :=
  (reads_varint counted).bind fun rest => run_many r write l each rest

/-- What was taken for a value is accepted as a whole. -/
lemma Reads.complete (reads : Reads r p a) : r.complete p = .ok a := by
  have whole := reads []
  rw [List.append_nil] at whole
  rw [Reader.complete, whole]

/-! ## Readers that do not look behind a value -/

/-- Whatever the reader takes off the front of some bytes it would take in front of any others. -/
class SelfDelimiting (r : Reader α) : Prop where
  front {bytes rest : List UInt8} {a : α} :
    r.run bytes = .ok (a, rest) → ∃ front, bytes = front ++ rest ∧ Reads r front a

/-- What needs no bytes leaves all of them. -/
instance : SelfDelimiting (pure a : Reader α) where
  front := by
    rintro bytes rest _ ⟨⟩
    exact ⟨[], rfl, .pure a⟩

/-- Two readers in a row know where they end. -/
lemma SelfDelimiting.bind {f : α → Reader β} (first : SelfDelimiting r)
    (next : ∀ a, SelfDelimiting (f a)) : SelfDelimiting (r >>= f) where
  front := by
    intro bytes rest b taken
    rw [StateT.run_bind] at taken
    obtain ⟨⟨a, behind⟩, taken, others⟩ := bind_eq_ok.mp taken
    obtain ⟨front, rfl, reads⟩ := first.front taken
    obtain ⟨back, rfl, reads'⟩ := (next a).front others
    exact ⟨front ++ back, (List.append_assoc ..).symm, reads.bind reads'⟩

/-- The same for readers that are known to be self-delimiting. -/
instance [SelfDelimiting r] {f : α → Reader β} [∀ a, SelfDelimiting (f a)] :
    SelfDelimiting (r >>= f) := .bind inferInstance inferInstance

/-- Changing the result changes no end. -/
instance [SelfDelimiting r] (g : α → β) : SelfDelimiting (g <$> r) := by
  rw [map_eq_pure_bind]
  infer_instance

/-- A reader that always fails has nothing to delimit. -/
instance (e : Malformed) : SelfDelimiting (fail e : Reader α) where
  front := by rintro bytes rest a ⟨⟩

/-- A choice between such readers. -/
instance (c : Prop) [Decidable c] {s : Reader α} [SelfDelimiting r] [SelfDelimiting s] :
    SelfDelimiting (if c then r else s) := by
  split <;> assumption

/-- A byte ends after itself. -/
instance : SelfDelimiting byte where
  front := by
    intro bytes rest b taken
    cases bytes with
    | nil => cases taken
    | cons b bytes =>
      cases taken
      exact ⟨[b], rfl, reads_byte b⟩

/-- A given number of bytes ends where it says. -/
instance (n : Nat) (e : Malformed) : SelfDelimiting (take n e) where
  front := by
    intro bytes rest b taken
    have enough : n ≤ bytes.length := by
      by_contra short
      exact nomatch (if_neg short).symm.trans taken
    obtain ⟨rfl, rfl⟩ : bytes.take n = b ∧ bytes.drop n = rest := by
      simpa using (if_pos enough).symm.trans taken
    refine ⟨bytes.take n, (List.take_append_drop ..).symm, fun rest => ?_⟩
    have length : (bytes.take n).length = n := List.length_take_of_le enough
    have again := run_take (bytes.take n) rest e
    rwa [length] at again

/-- A truth value ends after its byte. -/
instance : SelfDelimiting bool := by
  unfold bool
  refine .bind inferInstance fun b => ?_
  split <;> infer_instance

/-- A number ends where its mark says. -/
instance : SelfDelimiting varint := by
  unfold varint fixed
  infer_instance

/-- A word ends as a number does. -/
instance : SelfDelimiting word64 := by
  unfold word64
  infer_instance

/-- A half word ends as a number does. -/
instance : SelfDelimiting word32 := by
  unfold word32
  infer_instance

/-- A tag ends as a number does. -/
instance (count : Nat) : SelfDelimiting (tag count) := by
  unfold tag
  infer_instance

/-- A text of given length ends where it says. -/
instance (n : Nat) : SelfDelimiting (textOf n) := by
  unfold textOf
  refine .bind inferInstance fun b => ?_
  split <;> infer_instance

/-- A text ends where its count says. -/
instance : SelfDelimiting text := by
  unfold text
  infer_instance

/-- Bytes end where their count says. -/
instance : SelfDelimiting Reader.bytes := by
  unfold Reader.bytes
  infer_instance

/-- A given number of items ends with the last. -/
instance [SelfDelimiting r] (n : Nat) : SelfDelimiting (many r n) := by
  induction n with
  | zero => exact inferInstanceAs (SelfDelimiting (pure []))
  | succ n ih =>
    unfold many
    infer_instance

/-- A list ends with the last of the items it counts. -/
instance [SelfDelimiting r] : SelfDelimiting (list r) := by
  unfold list
  infer_instance

/-- A payload is read completely if nothing is left. -/
lemma complete_eq_ok_iff : r.complete p = .ok a ↔ r.run p = .ok (a, []) := by
  unfold complete
  split <;> simp_all

/-- What is accepted as a whole is taken for the same value in front of anything else. -/
lemma reads_of_complete [SelfDelimiting r] (accepted : r.complete p = .ok a) : Reads r p a := by
  obtain ⟨front, rfl, reads⟩ := SelfDelimiting.front (complete_eq_ok_iff.mp accepted)
  rwa [List.append_nil]

/-- Of two byte strings of which one goes on where the other ends, at most one is accepted. -/
lemma complete_eq_error [SelfDelimiting r] (accepted : r.complete p = .ok a) (other : q ≠ p)
    (part : q <+: p ∨ p <+: q) : ∃ e, r.complete q = .error e := by
  cases found : r.complete q with
  | error e => exact ⟨e, rfl⟩
  | ok b =>
    -- The shorter one would be taken off the front of the longer one, with bytes left behind it.
    exfalso
    have longer {p q : List UInt8} {a b : α} (short : r.complete p = .ok a)
        (long : r.complete q = .ok b) (part : p <+: q) : p = q := by
      obtain ⟨rest, rfl⟩ := part
      have taken := reads_of_complete short rest
      rw [complete_eq_ok_iff.mp long] at taken
      cases taken
      rw [List.append_nil]
    rcases part with part | part
    · exact other (longer found accepted part)
    · exact other (longer accepted found part).symm

end Coordination.Wire.Reader
