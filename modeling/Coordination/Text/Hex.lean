/-!
# Hexadecimal numbers

Numbers of fixed width, in upper case, as error texts write them.
-/

namespace Coordination.Text.Hex

/-- The digit of a number below sixteen. -/
def digit (n : Nat) : Char := "0123456789ABCDEF".toList.getD n '0'

/-- The low `width` digits of a number. -/
def digits : Nat → Nat → List Char
  | 0, _ => []
  | width + 1, n => digits width (n / 16) ++ [digit (n % 16)]

/-- The low `width` digits of a number, after `0x`. -/
def number (width n : Nat) : String := "0x" ++ String.ofList (digits width n)

end Coordination.Text.Hex
