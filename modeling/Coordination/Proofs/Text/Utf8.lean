import Mathlib
import Coordination.Text.Utf8

/-!
# UTF-8 loses nothing

`decode` accepts exactly what `encode` writes, so a text and its bytes determine each other. The
proofs go character by character: `decodeFrom_character` reads back the bytes of one character, and
`encodeChar_scalar` writes back what a leading byte and its continuation stand for. Texts are
ordered as their bytes are (`encode_lt_encode`).
-/

namespace Coordination.Text.Utf8

variable {a b c d : UInt8} {bytes : List UInt8} {s : String}

/-! ## Bytes as numbers -/

/-- Continuation bytes are those from 128 to 191. -/
lemma isContinuation_iff : isContinuation b = true ↔ 0x80 ≤ b.toNat ∧ b.toNat ≤ 0xBF := by
  simp [isContinuation, UInt8.le_iff_toNat_le]

/-- The second byte keeps a character of three bytes from being too small or a surrogate. -/
lemma isSecondOfThree_iff : isSecondOfThree a b = true ↔ 0x80 ≤ b.toNat ∧ b.toNat ≤ 0xBF ∧
    (a.toNat = 0xE0 → 0xA0 ≤ b.toNat) ∧ (a.toNat = 0xED → b.toNat ≤ 0x9F) := by
  have first : a = 0xE0 ↔ a.toNat = 0xE0 := UInt8.toNat_inj.symm
  have last : a = 0xED ↔ a.toNat = 0xED := UInt8.toNat_inj.symm
  unfold isSecondOfThree
  simp only [first, last]
  split
  · simp [UInt8.le_iff_toNat_le]
    omega
  · split
    · simp [UInt8.le_iff_toNat_le]
      omega
    · rw [isContinuation_iff]
      omega

/-- The second byte keeps a character of four bytes from being too small or too large. -/
lemma isSecondOfFour_iff : isSecondOfFour a b = true ↔ 0x80 ≤ b.toNat ∧ b.toNat ≤ 0xBF ∧
    (a.toNat = 0xF0 → 0x90 ≤ b.toNat) ∧ (a.toNat = 0xF4 → b.toNat ≤ 0x8F) := by
  have first : a = 0xF0 ↔ a.toNat = 0xF0 := UInt8.toNat_inj.symm
  have last : a = 0xF4 ↔ a.toNat = 0xF4 := UInt8.toNat_inj.symm
  unfold isSecondOfFour
  simp only [first, last]
  split
  · simp [UInt8.le_iff_toNat_le]
    omega
  · split
    · simp [UInt8.le_iff_toNat_le]
      omega
    · rw [isContinuation_iff]
      omega

/-- A byte is determined by its number. -/
lemma ofNat_eq {n : Nat} (same : n = a.toNat) : UInt8.ofNat n = a := by
  rw [same, UInt8.ofNat_toNat]

/-- The number of a byte that was made from a small number. -/
lemma toNat_byte {n : Nat} (small : n < 256) : (UInt8.ofNat n).toNat = n := by
  rw [UInt8.toNat_ofNat', Nat.mod_eq_of_lt small]

/-- The number of a character that was made from a valid one. -/
lemma toNat_ofNat {n : Nat} (valid : n.isValidChar) : (Char.ofNat n).toNat = n := by
  rw [Char.ofNat, dif_pos valid]
  rfl

/-! ## Writing what was read -/

/-- A byte below 128 encodes itself. -/
lemma encodeChar_one (lead : a < 0x80) : String.utf8EncodeChar (scalar a.toNat []) = [a] := by
  rw [UInt8.lt_iff_toNat_lt] at lead
  have small : a.toNat < 0x80 := lead
  have valid : a.toNat.isValidChar := .inl (by omega)
  have value : (scalar a.toNat []).val.toNat = a.toNat := toNat_ofNat valid
  simp only [String.utf8EncodeChar, value]
  rw [if_pos (by omega), UInt8.ofNat_toNat]

/-- Two bytes encode the character they spell. -/
lemma encodeChar_two (lead : 0xC2 ≤ a ∧ a ≤ 0xDF) (second : isContinuation b = true) :
    String.utf8EncodeChar (scalar (a.toNat % 32) [b]) = [a, b] := by
  have low : 0xC2 ≤ a.toNat := lead.1
  have high : a.toNat ≤ 0xDF := lead.2
  rw [isContinuation_iff] at second
  have valid : (a.toNat % 32 * 64 + b.toNat % 64).isValidChar := .inl (by omega)
  have value : (scalar (a.toNat % 32) [b]).val.toNat = a.toNat % 32 * 64 + b.toNat % 64 :=
    toNat_ofNat valid
  simp only [String.utf8EncodeChar, value]
  rw [if_neg (by omega), if_pos (by omega)]
  simp only [List.cons.injEq, and_true]
  exact ⟨ofNat_eq (by omega), ofNat_eq (by omega)⟩

/-- Three bytes encode the character they spell. -/
lemma encodeChar_three (lead : 0xE0 ≤ a ∧ a ≤ 0xEF) (second : isSecondOfThree a b = true)
    (third : isContinuation c = true) :
    String.utf8EncodeChar (scalar (a.toNat % 16) [b, c]) = [a, b, c] := by
  have low : 0xE0 ≤ a.toNat := lead.1
  have high : a.toNat ≤ 0xEF := lead.2
  rw [isSecondOfThree_iff] at second
  rw [isContinuation_iff] at third
  -- the range of the second byte keeps out surrogates, and values that fit two bytes
  have valid : ((a.toNat % 16 * 64 + b.toNat % 64) * 64 + c.toNat % 64).isValidChar := by
    unfold Nat.isValidChar
    omega
  have value : (scalar (a.toNat % 16) [b, c]).val.toNat =
      (a.toNat % 16 * 64 + b.toNat % 64) * 64 + c.toNat % 64 := toNat_ofNat valid
  simp only [String.utf8EncodeChar, value]
  rw [if_neg (by omega), if_neg (by omega), if_pos (by omega)]
  simp only [List.cons.injEq, and_true]
  exact ⟨ofNat_eq (by omega), ofNat_eq (by omega), ofNat_eq (by omega)⟩

/-- Four bytes encode the character they spell. -/
lemma encodeChar_four (lead : 0xF0 ≤ a ∧ a ≤ 0xF4) (second : isSecondOfFour a b = true)
    (third : isContinuation c = true) (fourth : isContinuation d = true) :
    String.utf8EncodeChar (scalar (a.toNat % 8) [b, c, d]) = [a, b, c, d] := by
  have low : 0xF0 ≤ a.toNat := lead.1
  have high : a.toNat ≤ 0xF4 := lead.2
  rw [isSecondOfFour_iff] at second
  rw [isContinuation_iff] at third fourth
  -- here it keeps out values that fit three bytes, and those above the last character
  have valid : (((a.toNat % 8 * 64 + b.toNat % 64) * 64 + c.toNat % 64) * 64 +
      d.toNat % 64).isValidChar := by
    unfold Nat.isValidChar
    omega
  have value : (scalar (a.toNat % 8) [b, c, d]).val.toNat =
      ((a.toNat % 8 * 64 + b.toNat % 64) * 64 + c.toNat % 64) * 64 + d.toNat % 64 :=
    toNat_ofNat valid
  simp only [String.utf8EncodeChar, value]
  rw [if_neg (by omega), if_neg (by omega), if_neg (by omega)]
  simp only [List.cons.injEq, and_true]
  exact ⟨ofNat_eq (by omega), ofNat_eq (by omega), ofNat_eq (by omega), ofNat_eq (by omega)⟩

/-- If a character is written as the bytes it was read off, and the others are, then all are. -/
lemma encode_cons {ch : Char} {front rest : List UInt8} {read : Except Invalid (List Char)}
    {cs : List Char} (all : (ch :: ·) <$> read = .ok cs) (first : String.utf8EncodeChar ch = front)
    (others : ∀ cs', read = .ok cs' → cs'.flatMap String.utf8EncodeChar = rest) :
    cs.flatMap String.utf8EncodeChar = front ++ rest := by
  cases read with
  | error why => cases all
  | ok cs' =>
    obtain rfl := Except.ok.inj all
    rw [List.flatMap_cons, first, others cs' rfl]

/-- Writing gives back the bytes that were read. -/
lemma encode_of_decodeFrom {i : Nat} {cs : List Char} (read : decodeFrom i bytes = .ok cs) :
    cs.flatMap String.utf8EncodeChar = bytes := by
  fun_induction decodeFrom i bytes generalizing cs with
  | case1 =>
    obtain rfl := Except.ok.inj read
    rfl
  | case2 i a s lead ih => exact encode_cons read (encodeChar_one lead) fun _ => ih
  | case4 i a _ lead b s second ih =>
    exact encode_cons read (encodeChar_two lead second) fun _ => ih
  | case11 i a _ _ lead b c s second third ih =>
    have second := Decidable.not_not.mp second
    have third := Decidable.not_not.mp third
    exact encode_cons read (encodeChar_three lead second third) fun _ => ih
  | case21 i a _ _ _ lead b c d s second third fourth ih =>
    have second := Decidable.not_not.mp second
    have third := Decidable.not_not.mp third
    have fourth := Decidable.not_not.mp fourth
    exact encode_cons read (encodeChar_four lead second third fourth) fun _ => ih
  -- every other case fails
  | _ => cases read

/-! ## Reading what was written -/

/-- A byte below 128 is decoded as itself. -/
lemma decodeFrom_one (i : Nat) (rest : List UInt8) (lead : a.toNat < 0x80) :
    decodeFrom i (a :: rest) = (scalar a.toNat [] :: ·) <$> decodeFrom (i + 1) rest := by
  rw [decodeFrom.eq_def]
  exact if_pos lead

/-- Two bytes are decoded as the character they spell. -/
lemma decodeFrom_two (i : Nat) (rest : List UInt8) (lead : 0xC2 ≤ a.toNat ∧ a.toNat ≤ 0xDF)
    (second : isContinuation b = true) : decodeFrom i (a :: b :: rest) =
      (scalar (a.toNat % 32) [b] :: ·) <$> decodeFrom (i + 2) rest := by
  have lead : 0xC2 ≤ a ∧ a ≤ 0xDF := lead
  have long : ¬ a < 0x80 := UInt8.not_lt.mpr (UInt8.le_trans (by decide) lead.1)
  rw [decodeFrom, if_neg long, if_pos lead]
  exact if_pos second

/-- Three bytes are decoded as the character they spell. -/
lemma decodeFrom_three (i : Nat) (rest : List UInt8) (lead : 0xE0 ≤ a.toNat ∧ a.toNat ≤ 0xEF)
    (second : isSecondOfThree a b = true) (third : isContinuation c = true) :
    decodeFrom i (a :: b :: c :: rest) =
      (scalar (a.toNat % 16) [b, c] :: ·) <$> decodeFrom (i + 3) rest := by
  have lead : 0xE0 ≤ a ∧ a ≤ 0xEF := lead
  have long : ¬ a < 0x80 := UInt8.not_lt.mpr (UInt8.le_trans (by decide) lead.1)
  have longer : ¬ (0xC2 ≤ a ∧ a ≤ 0xDF) :=
    fun short => absurd (UInt8.le_trans lead.1 short.2) (by decide)
  rw [decodeFrom, if_neg long, if_neg longer, if_pos lead]
  dsimp only
  rw [if_neg (not_not.mpr second), if_neg (not_not.mpr third)]

/-- Four bytes are decoded as the character they spell. -/
lemma decodeFrom_four (i : Nat) (rest : List UInt8) (lead : 0xF0 ≤ a.toNat ∧ a.toNat ≤ 0xF4)
    (second : isSecondOfFour a b = true) (third : isContinuation c = true)
    (fourth : isContinuation d = true) : decodeFrom i (a :: b :: c :: d :: rest) =
      (scalar (a.toNat % 8) [b, c, d] :: ·) <$> decodeFrom (i + 4) rest := by
  have lead : 0xF0 ≤ a ∧ a ≤ 0xF4 := lead
  have long : ¬ a < 0x80 := UInt8.not_lt.mpr (UInt8.le_trans (by decide) lead.1)
  have longer : ¬ (0xC2 ≤ a ∧ a ≤ 0xDF) :=
    fun short => absurd (UInt8.le_trans lead.1 short.2) (by decide)
  have longest : ¬ (0xE0 ≤ a ∧ a ≤ 0xEF) :=
    fun short => absurd (UInt8.le_trans lead.1 short.2) (by decide)
  rw [decodeFrom, if_neg long, if_neg longer, if_neg longest, if_pos lead]
  dsimp only
  rw [if_neg (not_not.mpr second), if_neg (not_not.mpr third), if_neg (not_not.mpr fourth)]

/-- The bytes of a character are read as that character. -/
lemma decodeFrom_encodeChar (i : Nat) (ch : Char) (rest : List UInt8) :
    ∃ j, decodeFrom i (String.utf8EncodeChar ch ++ rest) = (ch :: ·) <$> decodeFrom j rest := by
  have valid : ch.val.toNat < 0xD800 ∨ 0xDFFF < ch.val.toNat ∧ ch.val.toNat < 0x110000 := ch.valid
  have value : Char.ofNat ch.val.toNat = ch := Char.ofNat_toNat ch
  unfold String.utf8EncodeChar
  generalize ch.val.toNat = v at valid value
  subst value
  dsimp only
  -- the cases are the ranges of values that take one, two, three and four bytes
  split
  case isTrue short =>
    have lead : (UInt8.ofNat v).toNat = _ := toNat_byte (by omega)
    refine ⟨i + 1, (decodeFrom_one i rest ?_).trans ?_⟩
    · rw [lead]
      omega
    · rw [lead]
      rfl
  case isFalse long =>
    split
    case isTrue short =>
      have lead : (UInt8.ofNat (v / 64 % 0x20 + 0xC0)).toNat = _ := toNat_byte (by omega)
      have second : (UInt8.ofNat (v % 0x40 + 0x80)).toNat = _ := toNat_byte (by omega)
      refine ⟨i + 2, (decodeFrom_two i rest ?_ ?_).trans ?_⟩
      · rw [lead]
        omega
      · rw [isContinuation_iff, second]
        omega
      · rw [scalar, List.foldl_cons, List.foldl_nil, lead, second]
        have whole : (v / 64 % 0x20 + 0xC0) % 32 * 64 + (v % 0x40 + 0x80) % 64 = v := by omega
        rw [whole]
    case isFalse longer =>
      split
      case isTrue short =>
        have lead : (UInt8.ofNat (v / 4096 % 0x10 + 0xE0)).toNat = _ := toNat_byte (by omega)
        have second : (UInt8.ofNat (v / 64 % 0x40 + 0x80)).toNat = _ := toNat_byte (by omega)
        have third : (UInt8.ofNat (v % 0x40 + 0x80)).toNat = _ := toNat_byte (by omega)
        refine ⟨i + 3, (decodeFrom_three i rest ?_ ?_ ?_).trans ?_⟩
        · rw [lead]
          omega
        · rw [isSecondOfThree_iff, lead, second]
          omega
        · rw [isContinuation_iff, third]
          omega
        · have whole : ((v / 4096 % 0x10 + 0xE0) % 16 * 64 + (v / 64 % 0x40 + 0x80) % 64) * 64 +
              (v % 0x40 + 0x80) % 64 = v := by omega
          simp only [scalar, List.foldl_cons, List.foldl_nil, lead, second, third, whole]
      case isFalse longest =>
        have lead : (UInt8.ofNat (v / 262144 % 0x08 + 0xF0)).toNat = _ := toNat_byte (by omega)
        have second : (UInt8.ofNat (v / 4096 % 0x40 + 0x80)).toNat = _ := toNat_byte (by omega)
        have third : (UInt8.ofNat (v / 64 % 0x40 + 0x80)).toNat = _ := toNat_byte (by omega)
        have fourth : (UInt8.ofNat (v % 0x40 + 0x80)).toNat = _ := toNat_byte (by omega)
        refine ⟨i + 4, (decodeFrom_four i rest ?_ ?_ ?_ ?_).trans ?_⟩
        · rw [lead]
          omega
        · rw [isSecondOfFour_iff, lead, second]
          omega
        · rw [isContinuation_iff, third]
          omega
        · rw [isContinuation_iff, fourth]
          omega
        · have whole : (((v / 262144 % 0x08 + 0xF0) % 8 * 64 + (v / 4096 % 0x40 + 0x80) % 64) * 64 +
              (v / 64 % 0x40 + 0x80) % 64) * 64 + (v % 0x40 + 0x80) % 64 = v := by omega
          simp only [scalar, List.foldl_cons, List.foldl_nil, lead, second, third, fourth, whole]

/-- Reading gives back the text that was written. -/
lemma decode_encode (s : String) : decode (encode s) = .ok s := by
  have chars : ∀ (cs : List Char) i, decodeFrom i (cs.flatMap String.utf8EncodeChar) = .ok cs := by
    intro cs
    induction cs with
    | nil => exact fun _ => rfl
    | cons ch cs ih =>
      intro i
      obtain ⟨j, first⟩ := decodeFrom_encodeChar i ch (cs.flatMap String.utf8EncodeChar)
      rw [List.flatMap_cons, first, ih j]
      rfl
  rw [decode, encode, chars]
  exact congrArg Except.ok String.ofList_toList

/-- Bytes are read as a text if and only if they are what it is written as. -/
lemma decode_eq_ok_iff : decode bytes = .ok s ↔ bytes = encode s := by
  constructor
  · intro read
    rw [decode] at read
    cases chars : decodeFrom 0 bytes with
    | error why =>
      rw [chars] at read
      cases read
    | ok cs =>
      rw [chars] at read
      obtain rfl := Except.ok.inj read
      rw [encode, String.toList_ofList]
      exact (encode_of_decodeFrom chars).symm
  · rintro rfl
    exact decode_encode s

example : decodeFrom 0 [0x61, 0xC3, 0xA9] = .ok ['a', 'é'] := by rfl
example : decodeFrom 0 [0x61, 0xC3] = .error (.incomplete 1) := by rfl

/-- Texts with the same bytes are the same. -/
lemma encode_injective : Function.Injective encode := by
  intro s s' same
  have read := decode_encode s
  rw [same, decode_encode] at read
  exact (Except.ok.inj read).symm

/-! ## The order of texts and bytes -/

/-- Small numbers are ordered as the bytes made from them. -/
lemma byte_lt_byte {m n : Nat} (small : m < 256) (small' : n < 256) :
    UInt8.ofNat m < UInt8.ofNat n ↔ m < n := by
  rw [UInt8.lt_iff_toNat_lt, toNat_byte small, toNat_byte small']

/-- Small numbers are equal if the bytes made from them are. -/
lemma byte_eq_byte {m n : Nat} (small : m < 256) (small' : n < 256) :
    UInt8.ofNat m = UInt8.ofNat n ↔ m = n := by
  rw [← UInt8.toNat_inj, toNat_byte small, toNat_byte small']

/-- Of two numbers the digits in base 64 decide, the higher ones first. -/
lemma digits_lt {m n : Nat} (less : m < n) :
    m / 262144 < n / 262144 ∨ m / 262144 = n / 262144 ∧
      (m / 4096 % 64 < n / 4096 % 64 ∨ m / 4096 % 64 = n / 4096 % 64 ∧
        (m / 64 % 64 < n / 64 % 64 ∨ m / 64 % 64 = n / 64 % 64 ∧ m % 64 < n % 64)) := by
  have digit (m n : Nat) (less : m < n) :
      m / 64 < n / 64 ∨ m / 64 = n / 64 ∧ m % 64 < n % 64 := by
    omega
  have third (n : Nat) : n / 4096 = n / 64 / 64 := (Nat.div_div_eq_div_mul n 64 64).symm
  have fourth (n : Nat) : n / 262144 = n / 64 / 64 / 64 := by
    rw [Nat.div_div_eq_div_mul, Nat.div_div_eq_div_mul]
  rw [third, third, fourth, fourth]
  rcases digit m n less with less | ⟨eq, less⟩
  · rcases digit _ _ less with less | ⟨eq, less⟩
    · rcases digit _ _ less with less | ⟨eq, less⟩
      · exact .inl less
      · exact .inr ⟨eq, .inl less⟩
    · exact .inr ⟨congrArg (· / 64) eq, .inr ⟨congrArg (· % 64) eq, .inl less⟩⟩
  · rw [eq]
    exact .inr ⟨rfl, .inr ⟨rfl, .inr ⟨rfl, less⟩⟩⟩

/-- The bytes of a smaller character are smaller, whatever follows. -/
lemma encodeChar_lt {ch ch' : Char} (less : ch < ch') (rest rest' : List UInt8) :
    String.utf8EncodeChar ch ++ rest < String.utf8EncodeChar ch' ++ rest' := by
  have less : ch.val.toNat < ch'.val.toNat := less
  have large : ch'.val.toNat < 0x110000 :=
    ch'.valid.elim (fun low => Nat.lt_trans low (by decide)) And.right
  have lead (n : Nat) (bounded : n < 0x110000) : n / 262144 % 8 = n / 262144 := by omega
  have first := lead _ (less.trans large)
  have first' := lead _ large
  have digits := digits_lt less
  simp only [String.utf8EncodeChar]
  -- a wider character has the larger leading byte, and of one width the digits decide
  split_ifs <;>
    simp (disch := omega) only [List.cons_append, List.cons_lt_cons_iff, byte_lt_byte,
      byte_eq_byte] <;>
    omega

/-- The order of texts is that of their bytes. -/
lemma encode_lt_encode {s' : String} (less : s < s') : encode s < encode s' := by
  have chars {l l' : List Char} (less : l < l') :
      l.flatMap String.utf8EncodeChar < l'.flatMap String.utf8EncodeChar := by
    induction less with
    | @nil ch l =>
      rw [List.flatMap_nil, List.flatMap_cons]
      cases bytes : String.utf8EncodeChar ch with
      | nil => exact absurd bytes String.utf8EncodeChar_ne_nil
      | cons b rest => exact List.nil_lt_cons ..
    | rel less => exact encodeChar_lt less _ _
    | cons _ ih =>
      rw [List.flatMap_cons, List.flatMap_cons]
      exact List.append_left_lt ih
  exact chars (String.lt_iff_toList_lt.mp less)

end Coordination.Text.Utf8
