import Coordination.Text.Scan

/-!
# JSON

A reader for JSON texts. Numbers keep their value only where they are written as plain whole
numbers, and a text that holds half a surrogate pair is well formed but stands for nothing.
-/

namespace Coordination.Text

/-- A JSON value, as far as settings need it. -/
inductive Json where
  | null
  | bool (b : Bool)
  /-- A number, with its value if it is written as a whole number without a sign. -/
  | number (value : Option Nat)
  | text (content : Option String)
  | array (items : List Json)
  /-- Members in their order; a name that stands for no text may still be skipped. -/
  | object (members : List (Option String × Json))

namespace Json

/-- Any blanks between tokens. -/
def blank : Scan Unit :=
  discard (Scan.many (Scan.one (fun c => c = ' ' || c = '\n' || c = '\t' || c = '\r')))

/-- Code points of a text, in which halves of surrogate pairs still stand alone. -/
def joinSurrogates : List Nat → Option (List Char)
  | [] => some []
  | [a] => if 0xD800 ≤ a ∧ a ≤ 0xDFFF then none else some [Char.ofNat a]
  | a :: b :: rest =>
    if 0xD800 ≤ a ∧ a ≤ 0xDBFF ∧ 0xDC00 ≤ b ∧ b ≤ 0xDFFF then
      (Char.ofNat (0x10000 + (a - 0xD800) * 0x400 + (b - 0xDC00)) :: ·) <$> joinSurrogates rest
    else if 0xD800 ≤ a ∧ a ≤ 0xDFFF then none
    else (Char.ofNat a :: ·) <$> joinSurrogates (b :: rest)

/-- What follows a backslash. -/
def escape : Scan Nat := do
  match ← Scan.one (fun _ => true) with
  | '"' => return 0x22
  | '\\' => return 0x5C
  | '/' => return 0x2F
  | 'b' => return 0x08
  | 'f' => return 0x0C
  | 'n' => return 0x0A
  | 'r' => return 0x0D
  | 't' => return 0x09
  | 'u' => return ofDigits 16 (← Scan.times (Scan.one (isDigit 16)) 4)
  | _ => failure

/-- Four hexadecimal digits of an escaped character. -/
def codePoint : Scan Nat :=
  (do Scan.char '\\'; escape) <|>
    Char.toNat <$> Scan.one (fun c => c ≠ '"' && c ≠ '\\' && 0x20 ≤ c.toNat)

/-- A text in quotes. -/
def quoted : Scan (Option String) := do
  Scan.char '"'
  let points ← Scan.many codePoint
  Scan.char '"'
  return String.ofList <$> joinSurrogates points

/-- At least one digit. -/
def digits : Scan (List Char) := Scan.many1 (Scan.one (isDigit 10))

/-- The whole part of a number, without needless zeros in front. -/
def wholePart : Scan Nat :=
  (do Scan.char '0'; return 0) <|>
    (do
      let first ← Scan.one (fun c => isDigit 10 c && c ≠ '0')
      return ofDigits 10 (first :: (← Scan.many (Scan.one (isDigit 10)))))

/-- A number, of which only whole ones without a sign are kept. -/
def scanNumber : Scan Json := do
  let sign ← Scan.opt (Scan.char '-')
  let whole ← wholePart
  let fraction ← Scan.opt (do Scan.char '.'; digits)
  let exponent ← Scan.opt (do
    discard (Scan.one (fun c => c = 'e' || c = 'E'))
    discard (Scan.opt (Scan.one (fun c => c = '+' || c = '-')))
    digits)
  let isPlain := sign.isNone && fraction.isNone && exponent.isNone
  return .number (if isPlain then some whole else none)

/-- Items between brackets with commas between them. -/
def bracketed {α : Type} (opening closing : Char) (item : Scan α) : Scan (List α) := do
  Scan.char opening
  blank
  let items ← (do
      let first ← item
      return first :: (← Scan.many (do blank; Scan.char ','; blank; item))) <|> pure []
  blank
  Scan.char closing
  return items

/-- A member of an object. -/
def member (value : Scan Json) : Scan (Option String × Json) := do
  let name ← quoted
  blank
  Scan.char ':'
  blank
  return (name, ← value)

/-- A value that is nested at most `n` deep. -/
def value : Nat → Scan Json
  | 0 => failure
  | n + 1 => do
    match ← Scan.peek with
    | some '{' => .object <$> bracketed '{' '}' (member (value n))
    | some '[' => .array <$> bracketed '[' ']' (value n)
    | some '"' => .text <$> quoted
    | some 't' => do Scan.word "true"; return .bool true
    | some 'f' => do Scan.word "false"; return .bool false
    | some 'n' => do Scan.word "null"; return .null
    | _ => scanNumber

/-- The value that a text writes. -/
def parse? (s : String) : Option Json :=
  Scan.whole (do blank; let v ← value (s.length + 1); blank; return v) s

end Json

end Coordination.Text
