/-
  Hexadecimal numbers of a fixed least width.
-/

namespace ObjectLowering.Text

/-- The lower-case hexadecimal digit of a number below sixteen. -/
def hexDigit (n : Nat) : Char := "0123456789abcdef".toList.getD n '0'

/-- The upper-case hexadecimal digit of a number below sixteen. -/
def hexDigitUpper (n : Nat) : Char := "0123456789ABCDEF".toList.getD n '0'

/-- The last `width` hexadecimal digits of `n`, lowest digit last. -/
def hexDigits (digit : Nat → Char) : Nat → Nat → List Char
  | 0, _ => []
  | width + 1, n => hexDigits digit width (n / 16) ++ [digit (n % 16)]

/-- `n` in lower-case hexadecimal, `width` digits. -/
def hexLower (width n : Nat) : String := String.ofList (hexDigits hexDigit width n)

/-- `n` in upper-case hexadecimal, `width` digits. -/
def hexUpper (width n : Nat) : String := String.ofList (hexDigits hexDigitUpper width n)

/-- The value of a hexadecimal digit of either case. -/
def hexValue? (c : Char) : Option Nat :=
  if '0' ≤ c ∧ c ≤ '9' then some (c.toNat - '0'.toNat)
  else if 'a' ≤ c ∧ c ≤ 'f' then some (c.toNat - 'a'.toNat + 10)
  else if 'A' ≤ c ∧ c ≤ 'F' then some (c.toNat - 'A'.toNat + 10)
  else none

end ObjectLowering.Text
