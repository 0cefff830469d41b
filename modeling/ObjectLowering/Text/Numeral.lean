/-
  Numbers written in digits.

  * `digitsInBase?` reads plain digits, `charOfHex?` the number of a character.
  * `natLiteral?` reads a literal: `0x`, `0o`, `0b` or a leading zero choose
    the base, and single underscores may stand between digits.
  * `literalFront` cuts a literal off a longer text, and `signed64?` puts a
    sign and the range of 64 bits around any of them.
-/
import ObjectLowering.Text.Hex

namespace ObjectLowering.Text

/-- The number that digits of a base spell; there has to be a digit. -/
def digitsInBase? (base : Nat) (ds : List Char) : Option Nat :=
  if ds.isEmpty then none
  else ds.foldlM (fun n d => do
    let v ← hexValue? d
    if v < base then some (base * n + v) else none) 0

/-- The character whose number hexadecimal digits spell, if it has one. -/
def charOfHex? (ds : List Char) : Option Char := do
  let n ← digitsInBase? 16 ds
  if n < 0xD800 ∨ (0xDFFF < n ∧ n < 0x110000) then some (Char.ofNat n) else none

/-! ## Literals -/

/-- The base that a mark behind a leading zero chooses. -/
def baseOfMark? : Char → Option Nat
  | 'x' | 'X' => some 16
  | 'o' | 'O' => some 8
  | 'b' | 'B' => some 2
  | _ => none

/-- No underscore is the last character or stands beside another. -/
def underscoresFit : List Char → Bool
  | [] => true
  | ['_'] => false
  | '_' :: '_' :: _ => false
  | _ :: rest => underscoresFit rest

/-- Every underscore stands between two decimal digits; `afterDigit` says that one came before. -/
def underscoresSeparate (afterDigit : Bool) : List Char → Bool
  | [] => true
  | '_' :: rest =>
    afterDigit && (rest.head?.map Char.isDigit).getD false && underscoresSeparate false rest
  | c :: rest => underscoresSeparate c.isDigit rest

/-- The number that digits of a base spell, underscores between them aside. -/
def spacedDigits? (base : Nat) (ds : List Char) : Option Nat :=
  if underscoresFit ds then digitsInBase? base (ds.filter (· != '_')) else none

/-- The number of a literal. A base mark or a leading zero may be followed by an underscore. -/
def natLiteral? : List Char → Option Nat
  | '0' :: mark :: ds =>
    match baseOfMark? mark with
    | some base => spacedDigits? base ds
    | none => spacedDigits? 8 (mark :: ds)
  | '_' :: _ => none
  | ds => spacedDigits? 10 ds

/-- A digit of a base, or an underscore. -/
def isNumeral (base : Nat) (c : Char) : Bool :=
  c == '_' || ((hexValue? c).map fun v => decide (v < base)).getD false

/-- The longest front of a text that can belong to a literal. -/
def literalFront : List Char → List Char
  | '0' :: mark :: ds =>
    match baseOfMark? mark with
    | some base => '0' :: mark :: ds.takeWhile (isNumeral base)
    | none => '0' :: (mark :: ds).takeWhile (isNumeral 8)
  | ds => ds.takeWhile (isNumeral 10)

/-! ## Signs -/

/-- One more than the largest number of 64 bits with a sign. -/
abbrev signedLimit : Nat := 0x8000000000000000

/-- A signed 64-bit number: an optional sign in front of a magnitude. -/
def signed64? (magnitude? : List Char → Option Nat) : List Char → Option Int
  | '-' :: cs => (magnitude? cs).bind fun n => if n ≤ signedLimit then some (-(n : Int)) else none
  | '+' :: cs => (magnitude? cs).bind fun n => if n < signedLimit then some (n : Int) else none
  | cs => (magnitude? cs).bind fun n => if n < signedLimit then some (n : Int) else none

end ObjectLowering.Text
