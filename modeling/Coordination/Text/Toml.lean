import Coordination.Text.Scan

/-!
# TOML

A reader for TOML documents. A document is read line by line; headers and dotted keys build a tree
of tables. Which table may still be added to depends on how it came to be, so a table keeps its
`Origin`. The value of a float, a date or anything nested in a value is checked and then forgotten.
-/

namespace Coordination.Text

namespace Toml

/-- What a key is bound to after the equals sign. -/
inductive Value where
  | text (content : String)
  | integer (n : Int)
  /-- A truth value, a float, a date or time, an array, or an inline table. -/
  | other
  deriving DecidableEq

/-- How a table came to be. -/
inductive Origin where
  /-- It has a header of its own. -/
  | header
  /-- It lies on the way to a table with a header. -/
  | implied
  /-- It is named by a dotted key. -/
  | dotted
  deriving DecidableEq

/-- What stands under a name in a table. -/
inductive Entry where
  | value (v : Value)
  | table (origin : Origin) (members : List (String × Entry))
  | tables (elements : List (List (String × Entry)))

/-- A table: names in the order of their first appearance. -/
abbrev Members := List (String × Entry)

/-- A line without its comment. -/
inductive Line where
  | blank
  | header (path : List String)
  | element (path : List String)
  | member (path : List String) (v : Value)

/-! ## Tables -/

namespace Members

/-- Sets the entry under a name. -/
def set (k : String) (e : Entry) : Members → Members
  | [] => [(k, e)]
  | (k', e') :: m => if k' = k then (k, e) :: m else (k', e') :: set k e m

/-- Adds an entry under a name that is new. -/
def add (k : String) (e : Entry) (m : Members) : Option Members :=
  if (m.lookup k).isNone then some (m.set k e) else none

/-- Binds the last name of a key in the table that the other names lead to. The key may make new
tables and add to those that dotted keys made. Tables that are only implied may lie on the way. -/
def bind (v : Value) : List String → Members → Option Members
  | [], _ => none
  | [k], m => m.add k (.value v)
  | k :: path, m => do
    let isLast := path.length = 1
    match m.lookup k with
    | none => return m.set k (.table .dotted (← bind v path []))
    | some (.table .dotted inner) => return m.set k (.table .dotted (← bind v path inner))
    | some (.table .implied inner) =>
      if isLast then none else return m.set k (.table .implied (← bind v path inner))
    | some (.tables elements) =>
      match elements.getLast? with
      | some inner =>
        if isLast then none
        else return m.set k (.tables (elements.dropLast ++ [← bind v path inner]))
      | none => none
    | some (.table .header _) | some (.value _) => none

/-- Changes the table that a path leads to. Tables that are missing on the way are implied, and an
array of tables leads on from its last one. -/
def modifyAt (f : Members → Option Members) : List String → Members → Option Members
  | [], m => f m
  | k :: path, m => do
    match m.lookup k with
    | none => return m.set k (.table .implied (← modifyAt f path []))
    | some (.table origin inner) => return m.set k (.table origin (← modifyAt f path inner))
    | some (.tables elements) =>
      match elements.getLast? with
      | some inner => return m.set k (.tables (elements.dropLast ++ [← modifyAt f path inner]))
      | none => none
    | some (.value _) => none

/-- Gives a table its header, which it may have only once. -/
def openTable (k : String) (m : Members) : Option Members :=
  match m.lookup k with
  | none => some (m.set k (.table .header []))
  | some (.table .implied inner) => some (m.set k (.table .header inner))
  | _ => none

/-- Starts a new table at the end of an array of tables. -/
def openElement (k : String) (m : Members) : Option Members :=
  match m.lookup k with
  | none => some (m.set k (.tables [[]]))
  | some (.tables elements) => some (m.set k (.tables (elements ++ [[]])))
  | _ => none

end Members

/-- Adds lines to a document, of which the table at `here` is open. -/
def build (here : List String) (m : Members) : List Line → Option Members
  | [] => some m
  | .blank :: lines => build here m lines
  | .header path :: lines => do
    let m ← m.modifyAt (Members.openTable (path.getLast?.getD "")) path.dropLast
    build path m lines
  | .element path :: lines => do
    let m ← m.modifyAt (Members.openElement (path.getLast?.getD "")) path.dropLast
    build path m lines
  | .member path v :: lines => do
    build here (← m.modifyAt (Members.bind v path) here) lines

/-! ## Blanks and comments -/

/-- Spaces and tabs separate tokens of a line. -/
def isBlank (c : Char) : Bool := c = ' ' || c = '\t'

/-- Any number of blanks. -/
def blanks : Scan Unit := discard (Scan.many (Scan.one isBlank))

/-- The end of a line. -/
def newline : Scan Unit := Scan.word "\n" <|> Scan.word "\r\n"

/-- Printable characters, tabs, and everything beyond ASCII. -/
def isPrintable (c : Char) : Bool := c = '\t' || 0x20 ≤ c.toNat && c ≠ '\x7F'

/-- A comment goes to the end of its line. -/
def comment : Scan Unit := do
  Scan.char '#'
  discard (Scan.many (Scan.one isPrintable))

/-- Blanks, newlines and comments. -/
def gap : Scan Unit := do
  blanks
  discard (Scan.many (do discard (Scan.opt comment); newline; blanks))

/-! ## Texts -/

/-- The character that so many digits stand for. -/
def codePoint (count : Nat) : Scan Char := do
  let n := ofDigits 16 (← Scan.times (Scan.one (isDigit 16)) count)
  Scan.ensure n.isValidChar
  return Char.ofNat n

/-- An escaped character of a basic string. -/
def escape : Scan Char := do
  Scan.char '\\'
  match ← Scan.one (fun _ => true) with
  | 'b' => return '\x08'
  | 't' => return '\t'
  | 'n' => return '\n'
  | 'f' => return '\x0C'
  | 'r' => return '\r'
  | '"' => return '"'
  | '\\' => return '\\'
  | 'u' => codePoint 4
  | 'U' => codePoint 8
  | _ => failure

/-- A character that stands for itself between quotes. -/
def plain (quote : Char) : Scan Char :=
  Scan.one fun c => isPrintable c && c ≠ quote && (quote ≠ '"' || c ≠ '\\')

/-- A character between quotes. Only double quotes know escapes. -/
def character (quote : Char) : Scan Char :=
  if quote = '"' then plain quote <|> escape else plain quote

/-- A text on one line. -/
def shortText (quote : Char) : Scan String := do
  Scan.char quote
  let content ← Scan.many (character quote)
  Scan.char quote
  return String.ofList content

/-- A backslash at the end of a line leaves out all blanks and newlines that follow it. -/
def continuation : Scan Unit := do
  Scan.char '\\'
  blanks
  newline
  discard (Scan.many (discard (Scan.one isBlank) <|> newline))

/-- A piece of a text on several lines, other than a quote. -/
def piece (quote : Char) : Scan (List Char) :=
  let piece := (do newline; return ['\n']) <|> (do return [← character quote])
  if quote = '"' then (do continuation; return []) <|> piece else piece

/-- One or two quotes before `next`. -/
def quotesBefore (quote : Char) (next : Scan Unit) : Scan (List Char) := do
  Scan.char quote
  let second ← Scan.opt (do Scan.char quote; Scan.ahead next)
  if second.isSome then return [quote, quote]
  else
    Scan.ahead next
    return [quote]

/-- A text on several lines. A newline right after the opening is left out, and one or two quotes
may stand inside and before the closing. -/
def longText (quote : Char) : Scan String := do
  let delimiter : Scan Unit := [quote, quote, quote].forM Scan.char
  delimiter
  discard (Scan.opt newline)
  let content ← Scan.many (piece quote <|> quotesBefore quote (discard (piece quote)))
  let last ← Scan.opt (quotesBefore quote delimiter)
  delimiter
  return String.ofList (content.flatten ++ last.getD [])

/-- A string in one of the four ways to quote it. -/
def text : Scan String :=
  longText '"' <|> shortText '"' <|> longText '\'' <|> shortText '\''

/-! ## Keys -/

/-- Characters of a name that needs no quotes. -/
def isKeyCharacter (c : Char) : Bool := c.isAlphanum || c = '_' || c = '-'

/-- One part of a key, quoted or not. -/
def name : Scan String :=
  shortText '"' <|> shortText '\'' <|> String.ofList <$> Scan.many1 (Scan.one isKeyCharacter)

/-- A key: fewer than eighty names with dots between them. -/
def key : Scan (List String) := do
  let part : Scan String := do
    blanks
    let n ← name
    blanks
    return n
  let first ← part
  let rest ← Scan.many (do Scan.char '.'; part)
  Scan.ensure (rest.length + 1 < 80)
  return first :: rest

/-! ## Numbers -/

/-- Digits of a base; one underscore may stand between two of them. -/
def digitRun (base : Nat) : Scan (List Char) := do
  let first ← Scan.one (isDigit base)
  return first :: (← Scan.many (do discard (Scan.opt (Scan.char '_')); Scan.one (isDigit base)))

/-- Whether a minus sign stands here; a plus sign means nothing. -/
def sign : Scan Bool := do
  return (← Scan.opt (Scan.one fun c => c = '+' || c = '-')) = some '-'

/-- Digits without a leading zero. -/
def wholePart : Scan (List Char) := do
  let digits ← digitRun 10
  Scan.ensure (digits.length = 1 || digits.head? ≠ some '0')
  return digits

/-- An integer in base 16, 8 or 2. -/
def prefixed : Scan Int := do
  Scan.char '0'
  match ← Scan.one (fun _ => true) with
  | 'x' => return ofDigits 16 (← digitRun 16)
  | 'o' => return ofDigits 8 (← digitRun 8)
  | 'b' => return ofDigits 2 (← digitRun 2)
  | _ => failure

/-- A decimal integer. -/
def decimal : Scan Int := do
  let negative ← sign
  let n : Int := ofDigits 10 (← wholePart)
  return if negative then -n else n

/-- An integer that fits into 64 bits with a sign. -/
def integer : Scan Int := do
  let n ← prefixed <|> decimal
  Scan.ensure (Int64.minValue.toInt ≤ n && n ≤ Int64.maxValue.toInt)
  return n

/-- Whether `digits * 10 ^ exponent` is nearer to `2 ^ 1024` than to any smaller number with 53
significant bits. The number of digits decides unless it is close to that of `2 ^ 1024`. -/
def overflows (digits : List Char) (exponent : Int) : Bool :=
  let digits := digits.dropWhile (· = '0')
  let magnitude := digits.length + exponent
  let bound := Nat.pow 2 1024 - Nat.pow 2 970
  let n := ofDigits 10 digits
  if digits.isEmpty || magnitude < 300 then false
  else if 320 < magnitude then true
  else if 0 ≤ exponent then bound ≤ n * Nat.pow 10 exponent.toNat
  else bound * Nat.pow 10 (-exponent).toNat ≤ n

/-- The exponent of a float. -/
def exponent : Scan Int := do
  discard (Scan.one fun c => c = 'e' || c = 'E')
  let negative ← sign
  let n : Int := ofDigits 10 (← digitRun 10)
  return if negative then -n else n

/-- The floats that are no numbers. -/
def infinityOrNan : Scan Unit := Scan.word "inf" <|> Scan.word "nan"

/-- A number with a fraction or an exponent, or none at all. Only negative ones may be too large for
64 bits. -/
def float : Scan Unit := do
  let negative ← sign
  infinityOrNan <|> (do
    let whole ← wholePart
    let fraction ← Scan.opt (do Scan.char '.'; digitRun 10)
    let power ← Scan.opt exponent
    Scan.ensure (fraction.isSome || power.isSome)
    let fraction := fraction.getD []
    Scan.ensure (negative || !overflows (whole ++ fraction) (power.getD 0 - fraction.length)))

/-! ## Dates and times -/

/-- A number of exactly so many digits, within limits. -/
def field (count low high : Nat) : Scan Nat := do
  let n := ofDigits 10 (← Scan.times (Scan.one (isDigit 10)) count)
  Scan.ensure (low ≤ n && n ≤ high)
  return n

/-- Leap years of the Gregorian calendar. -/
def isLeap (year : Nat) : Bool := year % 4 = 0 && (year % 100 ≠ 0 || year % 400 = 0)

/-- The number of days in a month. -/
def daysInMonth (year month : Nat) : Nat :=
  if month = 2 then if isLeap year then 29 else 28
  else if month ∈ [4, 6, 9, 11] then 30
  else 31

/-- A full date. -/
def date : Scan Unit := do
  let year ← field 4 0 9999
  Scan.char '-'
  let month ← field 2 1 12
  Scan.char '-'
  discard (field 2 1 (daysInMonth year month))

/-- The first two fields of a time. -/
def hourAndMinute : Scan Unit := do
  discard (field 2 0 23)
  Scan.char ':'
  discard (field 2 0 59)

/-- A time of day; a minute may have a leap second. -/
def time : Scan Unit := do
  hourAndMinute
  Scan.char ':'
  discard (field 2 0 60)
  discard (Scan.opt (do Scan.char '.'; Scan.many1 (Scan.one (isDigit 10))))

/-- The offset of a time from universal time. -/
def offset : Scan Unit :=
  discard (Scan.one fun c => c = 'Z' || c = 'z') <|>
    (do discard (Scan.one fun c => c = '+' || c = '-'); hourAndMinute)

/-- A date, a time, or a date with a time and perhaps an offset. -/
def moment : Scan Unit :=
  (do
    date
    discard (Scan.opt (do
      discard (Scan.one fun c => c = 'T' || c = 't' || c = ' ')
      time
      discard (Scan.opt offset)))) <|> time

/-! ## Values and lines -/

/-- A value that has no other values inside; what is neither a text nor an integer is not kept. -/
def scalar : Scan Value :=
  .text <$> text <|>
    (do Scan.word "true" <|> Scan.word "false"; return .other) <|>
    (do moment; return .other) <|>
    (do float; return .other) <|>
    .integer <$> integer

/-- Items of an array; a comma may follow the last one. -/
def array (value : Scan Value) : Scan Value := do
  let item : Scan Unit := do
    gap
    discard value
    gap
  Scan.char '['
  let first ← Scan.opt item
  if first.isSome then
    discard (Scan.many (do Scan.char ','; item))
    discard (Scan.opt (Scan.char ','))
  gap
  Scan.char ']'
  return .other

/-- A key, an equals sign and a value. -/
def binding (value : Scan Value) : Scan (List String × Value) := do
  let path ← key
  Scan.char '='
  blanks
  return (path, ← value)

/-- Bindings on one line, whose keys do not clash. -/
def inlineTable (value : Scan Value) : Scan Value := do
  let item : Scan (List String × Value) := do
    let b ← binding value
    blanks
    return b
  Scan.char '\x7B'
  let first ← Scan.opt item
  let rest ← if first.isSome then Scan.many (do Scan.char ','; item) else pure []
  blanks
  Scan.char '\x7D'
  let bindings := first.toList ++ rest
  discard (Scan.ofOption (bindings.foldlM (fun m (path, v) => Members.bind v path m) []))
  return .other

/-- A value with at most `n` arrays and inline tables inside each other. -/
def value : Nat → Scan Value
  | 0 => scalar
  | n + 1 => array (value n) <|> inlineTable (value n) <|> scalar

/-- The header of a table or of an element of an array of tables. -/
def headerLine : Scan Line :=
  (do
    Scan.word "[["
    let path ← key
    Scan.word "]]"
    return .element path) <|>
  (do
    Scan.char '['
    let path ← key
    Scan.char ']'
    return .header path)

/-- A line without its newline. -/
def line : Scan Line := do
  blanks
  let content ← headerLine <|> (do let (path, v) ← binding (value 79); return .member path v) <|>
    pure .blank
  blanks
  discard (Scan.opt comment)
  return content

/-- The lines of a document, which may begin with a byte order mark. -/
def lines : Scan (List Line) := do
  discard (Scan.opt (Scan.char '\uFEFF'))
  let complete ← Scan.many (do let l ← line; newline; return l)
  return complete ++ [← line]

/-- The table that a document writes. -/
def parse? (s : String) : Option Members := Scan.whole lines s >>= build [] []

end Toml

end Coordination.Text
