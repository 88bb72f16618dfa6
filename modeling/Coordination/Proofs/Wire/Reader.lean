import Mathlib
import Coordination.Proofs.Text.Utf8
import Coordination.Wire.Reader

/-!
# What readers take

A reader takes back what was written for it and leaves the rest, whatever that is: so says one law
for each reader, and `run_bind` threads the bytes through a sequence of them.
-/

namespace Coordination.Wire

/-! ## Integers -/

/-- A number is read back from its bytes, as far as the width reaches. -/
lemma ofLittleEndian_littleEndian {width n : Nat} (h : n < 256 ^ width) :
    ofLittleEndian (littleEndian width n) = n := by
  induction width generalizing n with
  | zero => simp_all [littleEndian, ofLittleEndian]
  | succ width ih =>
    have small : n / 256 < 256 ^ width := Nat.div_lt_of_lt_mul (by rw [Nat.pow_succ] at h; omega)
    have tail := ih small
    simp only [ofLittleEndian] at tail
    simp only [littleEndian, ofLittleEndian, List.foldr_cons, tail, UInt8.toNat_ofNat']
    omega

/-- Bytes are written back from their number. -/
lemma littleEndian_ofLittleEndian (bytes : List UInt8) :
    littleEndian bytes.length (ofLittleEndian bytes) = bytes := by
  induction bytes with
  | nil => rfl
  | cons b bytes ih =>
    have small := b.toNat_lt
    have value : ofLittleEndian (b :: bytes) = b.toNat + 256 * ofLittleEndian bytes := rfl
    have low : UInt8.ofNat (b.toNat + 256 * ofLittleEndian bytes) = b := by
      apply UInt8.toNat_inj.mp
      rw [UInt8.toNat_ofNat']
      omega
    have high : (b.toNat + 256 * ofLittleEndian bytes) / 256 = ofLittleEndian bytes := by omega
    rw [List.length_cons, littleEndian, value, low, high, ih]

/-- So many bytes hold no larger number. -/
lemma ofLittleEndian_lt (bytes : List UInt8) : ofLittleEndian bytes < 256 ^ bytes.length := by
  induction bytes with
  | nil => decide
  | cons b bytes ih =>
    have := b.toNat_lt
    simp only [ofLittleEndian, List.foldr_cons, List.length_cons, Nat.pow_succ] at ih ⊢
    omega

/-- A number is read back from its bytes. -/
lemma ofBigEndian_bigEndian {width n : Nat} (h : n < 256 ^ width) :
    ofBigEndian (bigEndian width n) = n := by
  simp [ofBigEndian, bigEndian, ofLittleEndian_littleEndian h]

namespace Reader

variable {α β : Type} {bytes rest : List UInt8}

/-- A sequence goes on with what the first reader leaves. -/
lemma run_bind_of_ok {r : Reader α} {f : α → Reader β} {a : α}
    (first : r.run bytes = .ok (a, rest)) : (r >>= f).run bytes = (f a).run rest := by
  rw [StateT.run_bind, first]
  rfl

/-- Bytes are taken from in front of others. -/
lemma run_take (b rest : List UInt8) (e : Malformed) :
    (take b.length e).run (b ++ rest) = .ok (b, rest) := by
  have enough : b.length ≤ (b ++ rest).length := by simp
  refine (if_pos enough).trans ?_
  rw [List.take_left, List.drop_left]

/-- A number of fixed width is read back. -/
lemma run_fixed {width n : Nat} (small : n < 256 ^ width) (rest : List UInt8) :
    (fixed width).run (littleEndian width n ++ rest) = .ok (n, rest) := by
  have taken := run_take (littleEndian width n) rest .short
  rw [littleEndian_length] at taken
  rw [fixed, map_eq_pure_bind, run_bind_of_ok taken, ofLittleEndian_littleEndian small]
  rfl

/-- A truth value is read back. -/
lemma run_bool (b : Bool) (rest : List UInt8) :
    bool.run (Wire.bool b ++ rest) = .ok (b, rest) := by
  cases b <;> rfl

/-- A text of given length is read back. -/
lemma run_textOf (s : String) (rest : List UInt8) :
    (textOf (Text.Utf8.encode s).length).run (Text.Utf8.encode s ++ rest) = .ok (s, rest) := by
  rw [textOf, run_bind_of_ok (run_take ..), Text.Utf8.decode_encode]
  rfl

/-- Values that are read one by one are read in a row. -/
lemma run_many (r : Reader α) (write : α → List UInt8) (list : List α)
    (each : ∀ a ∈ list, ∀ rest, r.run (write a ++ rest) = .ok (a, rest)) (rest : List UInt8) :
    (many r list.length).run (list.flatMap write ++ rest) = .ok (list, rest) := by
  induction list with
  | nil => rfl
  | cons a list ih =>
    have first := each a (List.mem_cons_self ..)
    have others := ih fun a mem => each a (List.mem_cons_of_mem _ mem)
    rw [List.flatMap_cons, List.append_assoc, List.length_cons, many, run_bind_of_ok (first _),
      run_bind_of_ok others]
    rfl

end Reader

end Coordination.Wire
