/-
  Decimal fractions as binary floating-point numbers, and their shortest
  decimal writing.

  * `Decimal.toBinary?` finds the nearest representable number `m · 2 ^ e`.
  * `Binary.shortest` finds the fewest digits that lie closer to it than to
    any other number of its format.
  * `Floating.general` and `Floating.positional` write those digits with and
    without an exponent.
-/
import ObjectLowering.Data.Value
import ObjectLowering.Text.Numeral

namespace ObjectLowering.Data

/-- A binary format: the number of digits of a mantissa, and the exponents it can have. -/
structure BinaryFormat where
  digits : Nat
  least : Int
  most : Int
deriving DecidableEq, Repr

/-- The format of 64 bits. -/
def BinaryFormat.double : BinaryFormat := ⟨53, -1074, 971⟩

/-- The format of 32 bits. -/
def BinaryFormat.single : BinaryFormat := ⟨24, -149, 104⟩

/-- The number `mantissa · 2 ^ exponent`. -/
structure Binary where
  mantissa : Nat
  exponent : Int
deriving DecidableEq, Repr

/-- A positive fraction of natural numbers. -/
structure Fraction where
  num : Nat
  den : Nat

/-- `n · base ^ e`. -/
def Fraction.scaled (n base : Nat) (e : Int) : Fraction :=
  if 0 ≤ e then ⟨n * base.pow e.toNat, 1⟩ else ⟨n, base.pow (-e).toNat⟩

/-- The fraction divided by `base ^ e`. -/
def Fraction.divPow (x : Fraction) (base : Nat) (e : Int) : Fraction :=
  if 0 ≤ e then ⟨x.num, x.den * base.pow e.toNat⟩ else ⟨x.num * base.pow (-e).toNat, x.den⟩

/-- The order of fractions. -/
def Fraction.le (x y : Fraction) : Bool := x.num * y.den ≤ y.num * x.den

/-- The nearest natural number, a tie going to the even neighbour. -/
def Fraction.roundEven (x : Fraction) : Nat :=
  let q := x.num / x.den
  let r := x.num % x.den
  if 2 * r < x.den then q
  else if x.den < 2 * r then q + 1
  else if q % 2 = 0 then q else q + 1

/-- The number of binary digits of the whole part of `x`, less that of its reciprocal. -/
def Fraction.log2 (x : Fraction) : Int := (Nat.log2 x.num : Int) - Nat.log2 x.den

/-- The nearest number of a format, with fewer digits near zero; none beyond the largest. -/
def Fraction.toBinary? (x : Fraction) (format : BinaryFormat) : Option Binary :=
  let places : Int := format.digits - 1
  let guess := x.log2 - places
  -- `2 ^ log2` is within a factor of two of `x`
  let e := if (Fraction.scaled 1 2 (guess + places)).le x then guess else guess - 1
  let e := max e format.least
  let m := (x.divPow 2 e).roundEven
  let (m, e) := if m = Nat.pow 2 format.digits then (Nat.pow 2 (format.digits - 1), e + 1)
    else (m, e)
  if e ≤ format.most then some ⟨m, e⟩ else none

/-- The number of digits before the decimal point; below zero, the number of zeros behind it. -/
def Decimal.magnitude (d : Decimal) : Int := (toString d.digits).length + d.exponent

/-- The nearest number of 64 bits to a decimal fraction, sign aside. All of them but zero have a
    magnitude between -330 and 310, so powers of ten beyond are never computed. -/
def Decimal.toBinary? (d : Decimal) : Option Binary :=
  if d.digits = 0 ∨ d.magnitude < -330 then some ⟨0, 0⟩
  else if 310 < d.magnitude then none
  else (Fraction.scaled d.digits 10 d.exponent).toBinary? .double

/-- Removes zeros at the end of a digit string. -/
def stripZeros : Nat → Nat → Int → Nat × Int
  | 0, n, e => (n, e)
  | fuel + 1, n, e => if n ≠ 0 ∧ n % 10 = 0 then stripZeros fuel (n / 10) (e + 1) else (n, e)

namespace Binary

/-- The value of a number. -/
def fraction (b : Binary) : Fraction := .scaled b.mantissa 2 b.exponent

/-- The nearest number of a format. -/
def round? (b : Binary) (format : BinaryFormat) : Option Binary :=
  if b.mantissa = 0 then some b else b.fraction.toBinary? format

/-- The bounds of the numbers that round to `b`. -/
def bounds (format : BinaryFormat) (b : Binary) : Fraction × Fraction :=
  let high := Fraction.scaled (2 * b.mantissa + 1) 2 (b.exponent - 1)
  let low := if b.mantissa = Nat.pow 2 (format.digits - 1) ∧ format.least < b.exponent
    then Fraction.scaled (4 * b.mantissa - 1) 2 (b.exponent - 2)
    else Fraction.scaled (2 * b.mantissa - 1) 2 (b.exponent - 1)
  (low, high)

/-- The fraction `n · 10 ^ e` rounds to `b`. -/
def reads (format : BinaryFormat) (b : Binary) (n : Nat) (e : Int) : Bool :=
  let x := Fraction.scaled n 10 e
  let (low, high) := b.bounds format
  if b.mantissa % 2 = 0 then low.le x && x.le high else !x.le low && !high.le x

/-- The smallest power of ten above `b`, as an exponent, searched upwards. -/
def magnitude (b : Binary) : Nat → Int → Int
  | 0, e => e
  | fuel + 1, e => if (Fraction.scaled 1 10 e).le b.fraction then magnitude b fuel (e + 1) else e

/-- The shortest digits that read back, tried from `n` digits on: digits and their exponent. -/
def shortestFrom (format : BinaryFormat) (b : Binary) (top : Int) : Nat → Nat → Nat × Int
  | 0, n =>
    let e := top - n
    ((b.fraction.divPow 10 e).roundEven, e)
  | fuel + 1, n =>
    let e := top - n
    let scaled := b.fraction.divPow 10 e
    let nearest := scaled.roundEven
    let below := scaled.num / scaled.den
    if b.reads format nearest e then (nearest, e)
    else if b.reads format below e then (below, e)
    else if b.reads format (below + 1) e then (below + 1, e)
    else shortestFrom format b top fuel (n + 1)

/-- The fewest decimal digits that read back as `b`, without zeros at the end. -/
def shortest (format : BinaryFormat) (b : Binary) : Nat × Int :=
  if b.mantissa = 0 then (0, 0)
  else
    let top := b.magnitude 700 (-330)
    let (n, e) := b.shortestFrom format top 17 1
    stripZeros 20 n e

/-- The shortest digits of a number of a format, and the place of the point. -/
def shortDigits (format : BinaryFormat) (b : Binary) : List Char × Int :=
  let (n, e) := b.shortest format
  let ds := (toString n).toList
  (ds, if n = 0 then 1 else ds.length + e)

end Binary

/-- Digits with a decimal point after the first `point` of them. -/
def placePoint (digits : List Char) (point : Int) : List Char :=
  if point ≤ 0 then ['0', '.'] ++ List.replicate (-point).toNat '0' ++ digits
  else
    let p := point.toNat
    if digits.length ≤ p then digits ++ List.replicate (p - digits.length) '0'
    else digits.take p ++ ['.'] ++ digits.drop p

/-- Digits with a point after the first of them, and the exponent that belongs to it. -/
def withExponent (digits : List Char) (x : Int) : List Char :=
  let tail := digits.drop 1
  let size := (toString x.natAbs).toList
  digits.take 1 ++ (if tail.isEmpty then [] else '.' :: tail) ++
    ['e', if x < 0 then '-' else '+'] ++ (if size.length < 2 then '0' :: size else size)

namespace Floating

/-- The text of an infinite number. -/
def infinityText (isNegative : Bool) : String := if isNegative then "-Inf" else "+Inf"

/-- The text of a number of a format; `write` gets its digits and the place of the point. -/
def textIn (format : BinaryFormat) (write : List Char → Int → List Char) : Floating → String
  | finite d =>
    match d.toBinary?.bind (·.round? format) with
    | some b =>
      let (ds, point) := b.shortDigits format
      (if d.isNegative then "-" else "") ++ String.ofList (write ds point)
    | none => infinityText d.isNegative
  | infinite isNegative => infinityText isNegative
  | undefined => "NaN"

/-- Written without exponent, as a number of 64 bits. -/
def positional : Floating → String := textIn .double placePoint

/-- Written as a number of 32 bits, with an exponent when it is below -4 or above 5. -/
def general : Floating → String := textIn .single fun ds point =>
  if point - 1 < -4 ∨ 6 ≤ point - 1 then withExponent ds (point - 1) else placePoint ds point

/-- The number is zero once it is rounded to 64 bits. -/
def isZero : Floating → Bool
  | finite d => (d.toBinary?.map fun b => b.mantissa == 0).getD false
  | _ => false

/-- The whole part of the nearest number of 64 bits, towards zero. What lies outside of the words
    of 64 bits with a sign is the least of them. -/
def truncate : Floating → Int
  | finite d =>
    match d.toBinary? with
    | some b =>
      let n : Int := b.fraction.num / b.fraction.den
      let n := if d.isNegative then -n else n
      if -(Text.signedLimit : Int) ≤ n ∧ n < Text.signedLimit then n else -Text.signedLimit
    | none => -Text.signedLimit
  | _ => -Text.signedLimit

end Floating

end ObjectLowering.Data
