/-!
# UTF-8

`encode` writes a text as bytes, `decode` reads bytes as a text and says where and how they fail:
the longest ill-formed sequence that could have begun a character, or a character cut off by the
end of the bytes.
-/

namespace Coordination.Text.Utf8

/-- How a byte string fails to be UTF-8. -/
inductive Invalid where
  /-- At `index` stand `length` bytes that begin no character. -/
  | malformed (length index : Nat)
  /-- The bytes end inside the character that begins at `index`. -/
  | incomplete (index : Nat)
  deriving DecidableEq

/-- The text of the failure. -/
def Invalid.message : Invalid → String
  | .malformed length index =>
    "invalid utf-8 sequence of " ++ length.repr ++ " bytes from index " ++ index.repr
  | .incomplete index => "incomplete utf-8 byte sequence from index " ++ index.repr

/-- The bytes of a text. -/
def encode (s : String) : List UInt8 := s.toList.flatMap String.utf8EncodeChar

/-- Continuation bytes carry six bits. -/
def isContinuation (b : UInt8) : Bool := 0x80 ≤ b && b ≤ 0xBF

/-- The second bytes that may follow a leading byte of a character of three bytes. -/
def isSecondOfThree (a b : UInt8) : Bool :=
  if a = 0xE0 then 0xA0 ≤ b && b ≤ 0xBF
  else if a = 0xED then 0x80 ≤ b && b ≤ 0x9F
  else isContinuation b

/-- The second bytes that may follow a leading byte of a character of four bytes. -/
def isSecondOfFour (a b : UInt8) : Bool :=
  if a = 0xF0 then 0x90 ≤ b && b ≤ 0xBF
  else if a = 0xF4 then 0x80 ≤ b && b ≤ 0x8F
  else isContinuation b

/-- The character of a leading byte, stripped of its mark, and continuation bytes. -/
def scalar (lead : Nat) (continuation : List UInt8) : Char :=
  Char.ofNat (continuation.foldl (fun n b => n * 64 + b.toNat % 64) lead)

/-- Reads characters, the first of which begins at index `i`. -/
def decodeFrom (i : Nat) : List UInt8 → Except Invalid (List Char)
  | [] => .ok []
  | a :: s =>
    if a < 0x80 then
      (scalar a.toNat [] :: ·) <$> decodeFrom (i + 1) s
    else if 0xC2 ≤ a ∧ a ≤ 0xDF then
      match s with
      | [] => .error (.incomplete i)
      | b :: s =>
        if isContinuation b then (scalar (a.toNat % 32) [b] :: ·) <$> decodeFrom (i + 2) s
        else .error (.malformed 1 i)
    else if 0xE0 ≤ a ∧ a ≤ 0xEF then
      match s with
      | [] => .error (.incomplete i)
      | [b] =>
        if isSecondOfThree a b then .error (.incomplete i) else .error (.malformed 1 i)
      | b :: c :: s =>
        if ¬ isSecondOfThree a b then .error (.malformed 1 i)
        else if ¬ isContinuation c then .error (.malformed 2 i)
        else (scalar (a.toNat % 16) [b, c] :: ·) <$> decodeFrom (i + 3) s
    else if 0xF0 ≤ a ∧ a ≤ 0xF4 then
      match s with
      | [] => .error (.incomplete i)
      | [b] =>
        if isSecondOfFour a b then .error (.incomplete i) else .error (.malformed 1 i)
      | [b, c] =>
        if ¬ isSecondOfFour a b then .error (.malformed 1 i)
        else if isContinuation c then .error (.incomplete i)
        else .error (.malformed 2 i)
      | b :: c :: d :: s =>
        if ¬ isSecondOfFour a b then .error (.malformed 1 i)
        else if ¬ isContinuation c then .error (.malformed 2 i)
        else if ¬ isContinuation d then .error (.malformed 3 i)
        else (scalar (a.toNat % 8) [b, c, d] :: ·) <$> decodeFrom (i + 4) s
    else .error (.malformed 1 i)

/-- The text that the bytes encode. -/
def decode (bytes : List UInt8) : Except Invalid String :=
  String.ofList <$> decodeFrom 0 bytes

end Coordination.Text.Utf8
