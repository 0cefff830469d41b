/-
  Bytes as text: their UTF-8 decoding, in which every byte that belongs to no
  character becomes the replacement character.
-/

namespace ObjectLowering.Text

/-- The character of a first byte and the further bytes that it announces: the number they spell
    has to be one of a character, and not one that fewer bytes spell. -/
def utf8Char? (first : Nat) (least : Nat) (further : List UInt8) : Option Char :=
  let n := further.foldl (fun n b => n * 64 + b.toNat % 64) first
  if further.all (fun b => 0x80 ≤ b && b < 0xC0) ∧ least ≤ n ∧ n.isValidChar
  then some (Char.ofNat n) else none

/-- The first character of bytes, and how many of them it takes. -/
def utf8Front? : List UInt8 → Option (Char × Nat)
  | [] => none
  | a :: rest =>
    let n := a.toNat
    let read (low least count : Nat) : Option (Char × Nat) :=
      if rest.length < count then none
      else (utf8Char? (n - low) least (rest.take count)).map (·, count + 1)
    if n < 0x80 then some (Char.ofNat n, 1)
    else if 0xC0 ≤ n ∧ n < 0xE0 then read 0xC0 0x80 1
    else if 0xE0 ≤ n ∧ n < 0xF0 then read 0xE0 0x800 2
    else if 0xF0 ≤ n ∧ n < 0xF8 then read 0xF0 0x10000 3
    else none

/-- Decodes bytes; `skip` of them belong to the character before. -/
def lossyFrom (skip : Nat) : List UInt8 → List Char
  | [] => []
  | b :: rest =>
    match skip with
    | n + 1 => lossyFrom n rest
    | 0 =>
      match utf8Front? (b :: rest) with
      | some (c, width) => c :: lossyFrom (width - 1) rest
      | none => '\uFFFD' :: lossyFrom 0 rest

/-- The characters of bytes. -/
def lossyUtf8 (bytes : List UInt8) : List Char := lossyFrom 0 bytes

end ObjectLowering.Text
