import Coordination.Proofs.Wire.Reader
import Coordination.Wire.Frame

/-!
# What the scanner takes off a buffer

A header is written and checked as a whole: `Header.check_eq_ok_iff` says that the checks let
through exactly what `Header.bytes` writes. The scanner is these checks on the first twenty bytes
followed by a count of the others (`Frame.scan_append`), so it takes a frame exactly where a frame
was written (`Frame.scan_eq_some_iff`), and what it has found out stays true when more bytes arrive.
-/

namespace Coordination.Wire

variable {limit : Nat} {buffer rest : List UInt8} {f : Frame} {e : FrameError}

/-! ## Bytes and kinds read and written back -/

/-- Bytes are written back from the number they stand for. -/
lemma bigEndian_ofBigEndian {width : Nat} {bytes : List UInt8} (wide : bytes.length = width) :
    bigEndian width (ofBigEndian bytes) = bytes := by
  have back := littleEndian_ofLittleEndian bytes.reverse
  rw [List.length_reverse, wide] at back
  rw [bigEndian, ofBigEndian, back, List.reverse_reverse]

/-- Bytes stand for a number below the bound of their width. -/
lemma ofBigEndian_lt {width : Nat} {bytes : List UInt8} (wide : bytes.length = width) :
    ofBigEndian bytes < 256 ^ width := by
  have bound := ofLittleEndian_lt bytes.reverse
  rwa [List.length_reverse, wide] at bound

/-- The bytes of a number tell nothing beyond their width. -/
lemma littleEndian_mod (width n : Nat) :
    littleEndian width (n % 256 ^ width) = littleEndian width n := by
  induction width generalizing n with
  | zero => rfl
  | succ width ih =>
    have low : UInt8.ofNat (n % 256 ^ (width + 1)) = UInt8.ofNat n := by
      apply UInt8.toNat_inj.mp
      rw [UInt8.toNat_ofNat', UInt8.toNat_ofNat', Nat.pow_succ]
      exact Nat.mod_mod_of_dvd n (Nat.dvd_mul_left ..)
    have high : n % 256 ^ (width + 1) / 256 = n / 256 % 256 ^ width := by
      rw [Nat.pow_succ', Nat.mod_mul_right_div_self]
    rw [littleEndian, littleEndian, low, high, ih]

/-- Only so much of a number is written as there is room for. -/
lemma bigEndian_mod (width n : Nat) : bigEndian width (n % 256 ^ width) = bigEndian width n := by
  rw [bigEndian, littleEndian_mod, bigEndian]

/-- A kind stands for one byte. -/
lemma FrameKind.ofByte?_eq_some_iff {b : UInt8} {k : FrameKind} :
    FrameKind.ofByte? b = some k ↔ b = k.byte := by
  constructor
  · intro known
    unfold FrameKind.ofByte? at known
    split at known <;> cases known <;> rfl
  · rintro rfl
    exact FrameKind.ofByte?_byte k

/-! ## Headers -/

/-- What a header says. -/
structure Header where
  kind : FrameKind
  opcode : UInt16
  id : UInt64
  /-- The number of bytes in the payload. -/
  size : Nat

namespace Header

variable {h : Header} {m o i s : List UInt8} {v k : UInt8}

/-- The bytes of a header: mark, version, kind, opcode, identifier and length. -/
def bytes (h : Header) : List UInt8 :=
  bigEndian 4 Frame.magic ++ [Frame.version, h.kind.byte] ++ bigEndian 2 h.opcode.toNat ++
    bigEndian 8 h.id.toNat ++ bigEndian 4 h.size

/-- A header always has the same number of bytes. -/
@[simp] lemma length_bytes (h : Header) : h.bytes.length = Frame.headerSize := by
  simp [bytes, Frame.headerSize]

/-- Checks the twenty bytes of a header, field by field. -/
def check (limit : Nat) (bytes : List UInt8) : Except FrameError Header :=
  if ofBigEndian (bytes.take 4) ≠ Frame.magic then
    .error (.invalidMagic (ofBigEndian (bytes.take 4)))
  else if bytes.getD 4 0 ≠ Frame.version then .error (.versionMismatch (bytes.getD 4 0))
  else
    match FrameKind.ofByte? (bytes.getD 5 0) with
    | none => .error (.invalidKind (bytes.getD 5 0))
    | some kind =>
      let size := ofBigEndian ((bytes.drop 16).take 4)
      if limit < size then .error (.payloadTooLarge size limit)
      else
        .ok ⟨kind, UInt16.ofNat (ofBigEndian ((bytes.drop 6).take 2)),
          UInt64.ofNat (ofBigEndian ((bytes.drop 8).take 8)), size⟩

/-- The frame with this header and payload. -/
def frame (h : Header) (payload : List UInt8) : Frame := ⟨h.kind, h.opcode, h.id, payload⟩

/-- Twenty bytes fall into the fields of a header. -/
lemma exists_fields {bytes : List UInt8} (twenty : bytes.length = Frame.headerSize) :
    ∃ m v k o i s, bytes = m ++ v :: k :: (o ++ (i ++ s)) ∧ m.length = 4 ∧ o.length = 2 ∧
      i.length = 8 ∧ s.length = 4 := by
  have sixteen : (bytes.drop 4).length = 16 := by rw [List.length_drop, twenty]; rfl
  obtain ⟨v, k, tail, cut⟩ : ∃ v k tail, bytes.drop 4 = v :: k :: tail := by
    match after : bytes.drop 4 with
    | [] | [_] => simp [after] at sixteen
    | v :: k :: tail => exact ⟨v, k, tail, rfl⟩
  have left : tail.length = 14 := by simpa [cut] using sixteen
  refine ⟨bytes.take 4, v, k, tail.take 2, (tail.drop 2).take 8, (tail.drop 2).drop 8, ?_, ?_, ?_,
    ?_, ?_⟩
  · rw [List.take_append_drop, List.take_append_drop, ← cut, List.take_append_drop]
  all_goals simp [left, twenty, Frame.headerSize]

/-- The checks, read off the fields. -/
lemma check_fields (hm : m.length = 4) (ho : o.length = 2) (hi : i.length = 8)
    (hs : s.length = 4) :
    check limit (m ++ v :: k :: (o ++ (i ++ s))) =
      if ofBigEndian m ≠ Frame.magic then .error (.invalidMagic (ofBigEndian m))
      else if v ≠ Frame.version then .error (.versionMismatch v)
      else
        match FrameKind.ofByte? k with
        | none => .error (.invalidKind k)
        | some kind =>
          if limit < ofBigEndian s then .error (.payloadTooLarge (ofBigEndian s) limit)
          else
            .ok ⟨kind, UInt16.ofNat (ofBigEndian o), UInt64.ofNat (ofBigEndian i), ofBigEndian s⟩
    := by
  have magic : (m ++ v :: k :: (o ++ (i ++ s))).take 4 = m := List.take_left' hm
  have version : (m ++ v :: k :: (o ++ (i ++ s))).getD 4 0 = v := by
    simp [List.getD, hm]
  have kind : (m ++ v :: k :: (o ++ (i ++ s))).getD 5 0 = k := by
    simp [List.getD, List.getElem?_append_right, hm]
  have opcode : ((m ++ v :: k :: (o ++ (i ++ s))).drop 6).take 2 = o := by
    simp [List.drop_append, List.take_append, hm, ho]
  have id : ((m ++ v :: k :: (o ++ (i ++ s))).drop 8).take 8 = i := by
    simp [List.drop_append, List.take_append, hm, ho, hi]
  have size : ((m ++ v :: k :: (o ++ (i ++ s))).drop 16).take 4 = s := by
    simp [List.drop_append, List.drop_of_length_le, List.take_of_length_le, hm, ho, hi, hs]
  rw [check, magic, version, kind, opcode, id, size]

/-- The checks let through what is written for a header whose size fits its field. -/
lemma check_eq_ok_iff {bytes : List UInt8} (twenty : bytes.length = Frame.headerSize) :
    check limit bytes = .ok h ↔ bytes = h.bytes ∧ h.size ≤ limit ∧ h.size < 2 ^ 32 := by
  constructor
  · intro passed
    obtain ⟨m, v, k, o, i, s, rfl, hm, ho, hi, hs⟩ := exists_fields twenty
    rw [check_fields hm ho hi hs] at passed
    split at passed
    · cases passed
    split at passed
    · cases passed
    split at passed
    · cases passed
    split at passed
    · cases passed
    rename_i rightMagic rightVersion _ kind known within
    cases passed
    have opcode : (UInt16.ofNat (ofBigEndian o)).toNat = ofBigEndian o :=
      UInt16.toNat_ofNat_of_lt' (ofBigEndian_lt ho)
    have id : (UInt64.ofNat (ofBigEndian i)).toNat = ofBigEndian i :=
      UInt64.toNat_ofNat_of_lt' (ofBigEndian_lt hi)
    refine ⟨?_, Nat.le_of_not_lt within, ofBigEndian_lt hs⟩
    rw [bytes, opcode, id, ← not_not.mp rightMagic, ← not_not.mp rightVersion,
      ← FrameKind.ofByte?_eq_some_iff.mp known, bigEndian_ofBigEndian hm, bigEndian_ofBigEndian ho,
      bigEndian_ofBigEndian hi, bigEndian_ofBigEndian hs]
    simp
  · rintro ⟨rfl, within, small⟩
    have fields : h.bytes = bigEndian 4 Frame.magic ++ Frame.version :: h.kind.byte ::
        (bigEndian 2 h.opcode.toNat ++ (bigEndian 8 h.id.toNat ++ bigEndian 4 h.size)) := by
      simp [bytes]
    rw [fields, check_fields (by simp) (by simp) (by simp) (by simp)]
    have magic : ofBigEndian (bigEndian 4 Frame.magic) = Frame.magic :=
      ofBigEndian_bigEndian (by decide)
    have opcode : ofBigEndian (bigEndian 2 h.opcode.toNat) = h.opcode.toNat :=
      ofBigEndian_bigEndian h.opcode.toNat_lt
    have id : ofBigEndian (bigEndian 8 h.id.toNat) = h.id.toNat :=
      ofBigEndian_bigEndian h.id.toNat_lt
    have size : ofBigEndian (bigEndian 4 h.size) = h.size := ofBigEndian_bigEndian small
    rw [magic, opcode, id, size, FrameKind.ofByte?_byte]
    simp [Nat.not_lt.mpr within]

end Header

/-! ## One frame -/

namespace Frame

/-- The header a frame is written with. -/
def header (f : Frame) : Header := ⟨f.kind, f.opcode, f.id, f.payload.length⟩

/-- The bytes of a frame: its header and its payload. -/
def bytes (f : Frame) : List UInt8 := f.header.bytes ++ f.payload

/-- A frame whose payload is within the limit is written as its bytes. -/
lemma encode_eq_ok_iff {out : List UInt8} :
    f.encode limit = .ok out ↔ f.payload.length ≤ limit ∧ out = f.bytes := by
  rw [encode]
  split
  case isTrue large => simp [Nat.not_le.mpr large]
  case isFalse within =>
    constructor
    · intro written
      cases written
      exact ⟨Nat.le_of_not_lt within, rfl⟩
    · rintro ⟨_, rfl⟩
      rfl

/-- The scanner waits for a whole header. -/
lemma scan_of_short (short : buffer.length < headerSize) : scan limit buffer = .ok none :=
  if_pos short

/-- With a whole header in the buffer the scanner checks it, then counts the bytes behind it. -/
lemma scan_append {head body : List UInt8} (twenty : head.length = headerSize) :
    scan limit (head ++ body) = (Header.check limit head).map fun h =>
      if body.length < h.size then none
      else some (h.frame (body.take h.size), body.drop h.size) := by
  have whole : ¬ (head ++ body).length < headerSize := by simp [twenty]
  have inside : headerSize ≤ head.length := twenty.ge
  have field {n m : Nat} (le : n + m ≤ headerSize) :
      ((head ++ body).drop n).take m = (head.drop n).take m := by
    rw [List.drop_append_of_le_length (by omega), List.take_append_of_le_length (by simp; omega)]
  have byte {n : Nat} (lt : n < headerSize) : (head ++ body).getD n 0 = head.getD n 0 :=
    List.getD_append _ _ _ _ (lt.trans_le inside)
  have behind : (head ++ body).drop headerSize = body := List.drop_left' twenty
  have magic : (head ++ body).take 4 = head.take 4 := field (n := 0) (by decide)
  rw [scan, if_neg whole, Header.check, magic, byte (by decide), byte (by decide),
    field (by decide), field (by decide), field (by decide), behind]
  dsimp only
  split
  · rfl
  split
  · rfl
  cases FrameKind.ofByte? (head.getD 5 0) with
  | none => rfl
  | some kind =>
    dsimp only
    split
    · rfl
    rw [List.length_append, twenty]
    simp only [Nat.add_lt_add_iff_left, Except.map, Header.frame]
    split <;> rfl

/-- A buffer with a whole header in it falls into the header and what is behind. -/
lemma exists_header (whole : ¬ buffer.length < headerSize) :
    ∃ head body, buffer = head ++ body ∧ head.length = headerSize :=
  ⟨buffer.take headerSize, buffer.drop headerSize, (List.take_append_drop ..).symm,
    by simpa using whole⟩

/-- The payload is within the limit and its size within the four bytes that are kept for it. -/
structure Fits (limit : Nat) (f : Frame) : Prop where
  within : f.payload.length ≤ limit
  narrow : f.payload.length < 2 ^ 32

/-- The scanner takes a frame exactly where one was written whose size fits its field. -/
lemma scan_eq_some_iff :
    scan limit buffer = .ok (some (f, rest)) ↔ buffer = f.bytes ++ rest ∧ f.Fits limit := by
  constructor
  · intro taken
    have whole : ¬ buffer.length < headerSize := by
      intro short
      simp [scan_of_short short] at taken
    obtain ⟨head, body, rfl, twenty⟩ := exists_header whole
    rw [scan_append twenty] at taken
    cases checked : Header.check limit head with
    | error e => simp [checked, Except.map] at taken
    | ok h =>
      obtain ⟨rfl, within, narrow⟩ := (Header.check_eq_ok_iff twenty).mp checked
      rw [checked] at taken
      by_cases few : body.length < h.size
      · simp [Except.map, few] at taken
      simp only [Except.map, if_neg few, Except.ok.injEq, Option.some.injEq, Prod.mk.injEq] at taken
      obtain ⟨rfl, rfl⟩ := taken
      have size : (body.take h.size).length = h.size := by simpa using few
      have same : (h.frame (body.take h.size)).header = h := by
        simp [header, Header.frame, size]
      refine ⟨?_, size.trans_le within, size.trans_lt narrow⟩
      rw [bytes, same, Header.frame, List.append_assoc, List.take_append_drop]
  · rintro ⟨rfl, within, narrow⟩
    have passed : Header.check limit f.header.bytes = .ok f.header :=
      (Header.check_eq_ok_iff f.header.length_bytes).mpr ⟨rfl, within, narrow⟩
    rw [bytes, List.append_assoc, scan_append f.header.length_bytes, passed]
    simp [Except.map, header, Header.frame]

/-- Damage is found in the header, so more bytes do not mend it. -/
lemma scan_append_of_error (damaged : scan limit buffer = .error e) (more : List UInt8) :
    scan limit (buffer ++ more) = .error e := by
  have whole : ¬ buffer.length < headerSize := by
    intro short
    simp [scan_of_short short] at damaged
  obtain ⟨head, body, rfl, twenty⟩ := exists_header whole
  rw [scan_append twenty] at damaged
  rw [List.append_assoc, scan_append twenty]
  cases checked : Header.check limit head with
  | error found => simpa [checked, Except.map] using damaged
  | ok h => simp [checked, Except.map] at damaged

/-- There is no frame in nothing. -/
@[simp] lemma scan_nil : scan limit [] = .ok none := scan_of_short (by decide)

end Frame

end Coordination.Wire
