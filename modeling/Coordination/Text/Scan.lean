/-!
# Scanning text

A `Scan` takes a value off the front of a text or fails. An alternative starts where the first one
started, so failing costs nothing.
-/

namespace Coordination.Text

/-- Takes a value off the front of a text. -/
abbrev Scan := StateT (List Char) Option

namespace Scan

variable {α : Type}

/-- Scans a whole text. -/
def whole (p : Scan α) (s : String) : Option α :=
  match p.run s.toList with
  | some (a, []) => some a
  | _ => none

/-- The next character, which stays. -/
def peek : Scan (Option Char) := fun s => some (s.head?, s)

/-- The next character, if it is of a class. -/
def one (p : Char → Bool) : Scan Char
  | c :: s => if p c then some (c, s) else none
  | [] => none

/-- A given character. -/
def char (c : Char) : Scan Unit := discard (one (· = c))

/-- Exactly this text. -/
def word (w : String) : Scan Unit := w.toList.forM char

/-- A value, if there is one. -/
def opt (p : Scan α) : Scan (Option α) := some <$> p <|> pure none

/-- Up to `n` values in a row. -/
def upTo (p : Scan α) : Nat → Scan (List α)
  | 0 => pure []
  | n + 1 => (do let a ← p; return a :: (← upTo p n)) <|> pure []

/-- As many values in a row as there are. Each must take a character at least. -/
def many (p : Scan α) : Scan (List α) := fun s => upTo p s.length s

/-- At least one item. -/
def many1 (p : Scan α) : Scan (List α) := do return (← p) :: (← many p)

/-- Looks whether a value is next and takes nothing. -/
def ahead (p : Scan α) : Scan Unit := fun s => (p s).map fun _ => ((), s)

/-- Exactly `n` values. -/
def times (p : Scan α) : Nat → Scan (List α)
  | 0 => pure []
  | n + 1 => do return (← p) :: (← times p n)

/-- Goes on only if the condition holds. -/
def ensure (b : Bool) : Scan Unit := if b then pure () else failure

/-- Fails where there is no value. -/
def ofOption (o : Option α) : Scan α := fun s => o.map (·, s)

end Scan

/-! ## Digits -/

/-- The value of a digit in base sixteen. -/
def digitValue? (c : Char) : Option Nat :=
  if '0' ≤ c ∧ c ≤ '9' then some (c.toNat - '0'.toNat)
  else if 'a' ≤ c ∧ c ≤ 'f' then some (c.toNat - 'a'.toNat + 10)
  else if 'A' ≤ c ∧ c ≤ 'F' then some (c.toNat - 'A'.toNat + 10)
  else none

/-- Whether a character is a digit in a base up to sixteen. -/
def isDigit (base : Nat) (c : Char) : Bool := (digitValue? c).any (· < base)

/-- The number that digits write in a base. -/
def ofDigits (base : Nat) (digits : List Char) : Nat :=
  digits.foldl (fun n c => n * base + (digitValue? c).getD 0) 0

end Coordination.Text
