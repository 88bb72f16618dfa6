import Coordination.Text.Scan

/-!
# Socket addresses

An IPv4 or IPv6 address with a port. IPv6 addresses stand in brackets, may leave out one run of
zero groups, may end in an IPv4 address, and may name a scope. They are written in lower case with
their longest run of zero groups left out.
-/

namespace Coordination

/-- The address and port that a listener is bound to. -/
inductive SocketAddress where
  | v4 (octets : List Nat) (port : Nat)
  | v6 (groups : List Nat) (scope port : Nat)
  deriving DecidableEq

namespace SocketAddress

open Text

/-! ## Reading -/

/-- A number of at most `width` digits that is not written with a leading zero. -/
def octet : Scan Nat := do
  let digits ← Scan.many1 (Scan.one (isDigit 10))
  let n := ofDigits 10 digits
  Scan.ensure (digits.length ≤ 3 && n < 256 && (digits.length = 1 || digits.head? ≠ some '0'))
  return n

/-- A number below a bound, in decimal. -/
def below (bound : Nat) : Scan Nat := do
  let n := ofDigits 10 (← Scan.many1 (Scan.one (isDigit 10)))
  Scan.ensure (n < bound)
  return n

/-- A port behind its colon. -/
def port : Scan Nat := do
  Scan.char ':'
  below UInt16.size

/-- Four octets with dots between them. -/
def ipv4 : Scan (List Nat) := do
  let a ← octet
  return a :: (← Scan.times (do Scan.char '.'; octet) 3)

/-- A group of an IPv6 address: up to four digits in base sixteen. -/
def group : Scan Nat := do
  let digits ← Scan.many1 (Scan.one (isDigit 16))
  Scan.ensure (digits.length ≤ 4)
  return ofDigits 16 digits

/-- The two groups that an IPv4 address stands for. -/
def groupsOfOctets : List Nat → List Nat
  | [a, b, c, d] => [a * 256 + b, c * 256 + d]
  | _ => []

/-- Up to `limit` groups with colons between them, of which `i` are already read; answers whether
the last two were written as an IPv4 address. -/
def groups (i : Nat) : Nat → Scan (List Nat × Bool)
  | 0 => return ([], false)
  | limit + 1 => do
    let separator : Scan Unit := if i = 0 then pure () else Scan.char ':'
    let embedded ← if limit = 0 then pure none else Scan.opt (do separator; ipv4)
    match embedded with
    | some octets => return (groupsOfOctets octets, true)
    | none =>
      match ← Scan.opt (do separator; group) with
      | none => return ([], false)
      | some g =>
        let (rest, isEmbedded) ← groups (i + 1) limit
        return (g :: rest, isEmbedded)

/-- Eight groups, some of which may be left out as a run of zeros. -/
def ipv6 : Scan (List Nat) := do
  let (head, embedded) ← groups 0 8
  if head.length = 8 then return head
  else
    Scan.ensure (!embedded)
    Scan.word "::"
    let (tail, _) ← groups 0 (7 - head.length)
    return head ++ List.replicate (8 - head.length - tail.length) 0 ++ tail

/-- An address of version 4 with its port. -/
def scanV4 : Scan SocketAddress := do
  let octets ← ipv4
  return .v4 octets (← port)

/-- An address of version 6 in brackets, perhaps with a scope, and its port. -/
def scanV6 : Scan SocketAddress := do
  Scan.char '['
  let groups ← ipv6
  let scope ← Scan.opt (do Scan.char '%'; below UInt32.size)
  Scan.char ']'
  return .v6 groups (scope.getD 0) (← port)

/-- The address that a text writes. -/
def parse? (s : String) : Option SocketAddress := Scan.whole (scanV4 <|> scanV6) s

/-! ## Writing -/

/-- A number in base sixteen, in lower case and without leading zeros. -/
def hex (n : Nat) : String := String.ofList (Nat.toDigits 16 n)

/-- Octets with dots between them. -/
def dotted (octets : List Nat) : String := String.intercalate "." (octets.map Nat.repr)

/-- Where the longest run of zero groups begins and how long it is; of equal runs the first. -/
def longestZeros (groups : List Nat) : Nat × Nat :=
  let runs := (List.range groups.length).map fun i =>
    (i, ((groups.drop i).takeWhile (· = 0)).length)
  runs.foldl (fun best run => if best.2 < run.2 then run else best) (0, 0)

/-- Groups with colons between them. -/
def colons (groups : List Nat) : String := String.intercalate ":" (groups.map hex)

/-- An IPv6 address; one that stands for an IPv4 address ends in it. -/
def renderGroups : List Nat → String
  | [0, 0, 0, 0, 0, 0xFFFF, a, b] =>
    "::ffff:" ++ dotted [a / 256, a % 256, b / 256, b % 256]
  | groups =>
    let (start, length) := longestZeros groups
    if length ≤ 1 then colons groups
    else colons (groups.take start) ++ "::" ++ colons (groups.drop (start + length))

/-- The text of an address. -/
def render : SocketAddress → String
  | .v4 octets port => dotted octets ++ ":" ++ port.repr
  | .v6 groups scope port =>
    let scope := if scope = 0 then "" else "%" ++ scope.repr
    "[" ++ renderGroups groups ++ scope ++ "]:" ++ port.repr

end SocketAddress

end Coordination
