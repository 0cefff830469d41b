/-
  Bytes as text in base 64, filled up with `=`, written and read.
-/

namespace ObjectLowering.Text

/-- The digits in base 64. -/
def base64Digits : List Char :=
  "ABCDEFGHIJKLMNOPQRSTUVWXYZabcdefghijklmnopqrstuvwxyz0123456789+/".toList

/-- The digit of a number below sixty-four. -/
def base64Digit (n : Nat) : Char := base64Digits.getD (n % 64) 'A'

/-- Three bytes as four digits, with what remains filled up. -/
def base64Chars : List UInt8 → List Char
  | a :: b :: c :: rest =>
    let n := (a.toNat * 256 + b.toNat) * 256 + c.toNat
    [n / 262144, n / 4096, n / 64, n].map base64Digit ++ base64Chars rest
  | [a, b] =>
    let n := a.toNat * 256 + b.toNat
    [n / 1024, n / 16, n * 4].map base64Digit ++ ['=']
  | [a] => [a.toNat / 4, a.toNat * 16].map base64Digit ++ ['=', '=']
  | [] => []

/-- The text of bytes. -/
def base64 (bytes : List UInt8) : String := String.ofList (base64Chars bytes)

/-! ## Reading -/

/-- The number of a digit. -/
def base64Value? (c : Char) : Option Nat := base64Digits.idxOf? c

/-- The bytes of groups of four digits; the last group may be filled up. -/
def base64Groups? : List Char → Option (List UInt8)
  | [] => some []
  | [a, b, '=', '='] => do
    let n := (← base64Value? a) * 64 + (← base64Value? b)
    return [UInt8.ofNat (n / 16)]
  | [a, b, c, '='] => do
    let n := ((← base64Value? a) * 64 + (← base64Value? b)) * 64 + (← base64Value? c)
    return [UInt8.ofNat (n / 1024), UInt8.ofNat (n / 4)]
  | a :: b :: c :: d :: rest => do
    let n := (((← base64Value? a) * 64 + (← base64Value? b)) * 64 + (← base64Value? c)) * 64 +
      (← base64Value? d)
    return UInt8.ofNat (n / 65536) :: UInt8.ofNat (n / 256) :: UInt8.ofNat n ::
      (← base64Groups? rest)
  | _ => none

/-- The bytes of a text, in which lines may end anywhere. -/
def base64Bytes? (s : String) : Option (List UInt8) :=
  base64Groups? (s.toList.filter fun c => c != '\n' && c != '\r')

end ObjectLowering.Text
