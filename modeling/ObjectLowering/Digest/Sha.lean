/-
  The secure hash algorithms with 160 and 256 bits.

  * `sha1` is the digest behind name-based ids.
  * `sha256Hex` is the entity tag of stored content.
-/
import ObjectLowering.Digest.Bytes
import ObjectLowering.Text.Hex

namespace ObjectLowering.Digest

/-- Runs `step` on the start position of every 64-byte block. -/
def foldBlocks {σ : Type} (step : σ → Nat → σ) : Nat → Nat → σ → σ
  | 0, _, s => s
  | n + 1, i, s => foldBlocks step n (i + 64) (step s i)

/-- The word at an index, zero beyond the end. -/
def wordAt (w : Array UInt32) (i : Nat) : UInt32 := w.getD i 0

/-! ## 160 bits -/

/-- The five words carried from block to block. -/
structure Sha1State where
  a : UInt32 := 0x67452301
  b : UInt32 := 0xEFCDAB89
  c : UInt32 := 0x98BADCFE
  d : UInt32 := 0x10325476
  e : UInt32 := 0xC3D2E1F0

/-- The eighty words of a block's schedule. -/
def sha1Schedule (m : ByteArray) (start : Nat) : Array UInt32 :=
  let first : Array UInt32 := ((List.range 16).map fun t => bigWord32 m (start + 4 * t)).toArray
  (List.range 64).foldl (fun w k =>
    let t := k + 16
    w.push (rotateLeft32
      (wordAt w (t - 3) ^^^ wordAt w (t - 8) ^^^ wordAt w (t - 14) ^^^ wordAt w (t - 16)) 1)) first

/-- The round function and constant of round `t`. -/
def sha1Round (t : Nat) (b c d : UInt32) : UInt32 :=
  if t < 20 then (b &&& c ||| (~~~ b &&& d)) + 0x5A827999
  else if t < 40 then (b ^^^ c ^^^ d) + 0x6ED9EBA1
  else if t < 60 then (b &&& c ||| b &&& d ||| c &&& d) + 0x8F1BBCDC
  else (b ^^^ c ^^^ d) + 0xCA62C1D6

/-- One block of the compression function. -/
def sha1Block (m : ByteArray) (s : Sha1State) (start : Nat) : Sha1State :=
  let w := sha1Schedule m start
  let r := (List.range 80).foldl (fun (r : Sha1State) t =>
    let next := rotateLeft32 r.a 5 + sha1Round t r.b r.c r.d + r.e + wordAt w t
    { a := next, b := r.a, c := rotateLeft32 r.b 30, d := r.c, e := r.d }) s
  { a := s.a + r.a, b := s.b + r.b, c := s.c + r.c, d := s.d + r.d, e := s.e + r.e }

/-- The twenty bytes of the digest. -/
def sha1 (message : ByteArray) : List UInt8 :=
  let m := padMessage message
  let s := foldBlocks (sha1Block m) (m.size / 64) 0 {}
  [s.a, s.b, s.c, s.d, s.e].flatMap bytesOfWord32

/-! ## 256 bits -/

/-- The eight words carried from block to block. -/
structure Sha256State where
  a : UInt32 := 0x6a09e667
  b : UInt32 := 0xbb67ae85
  c : UInt32 := 0x3c6ef372
  d : UInt32 := 0xa54ff53a
  e : UInt32 := 0x510e527f
  f : UInt32 := 0x9b05688c
  g : UInt32 := 0x1f83d9ab
  h : UInt32 := 0x5be0cd19

/-- The constants of the sixty-four rounds. -/
def sha256Constants : Array UInt32 := #[
  0x428a2f98, 0x71374491, 0xb5c0fbcf, 0xe9b5dba5, 0x3956c25b, 0x59f111f1, 0x923f82a4, 0xab1c5ed5,
  0xd807aa98, 0x12835b01, 0x243185be, 0x550c7dc3, 0x72be5d74, 0x80deb1fe, 0x9bdc06a7, 0xc19bf174,
  0xe49b69c1, 0xefbe4786, 0x0fc19dc6, 0x240ca1cc, 0x2de92c6f, 0x4a7484aa, 0x5cb0a9dc, 0x76f988da,
  0x983e5152, 0xa831c66d, 0xb00327c8, 0xbf597fc7, 0xc6e00bf3, 0xd5a79147, 0x06ca6351, 0x14292967,
  0x27b70a85, 0x2e1b2138, 0x4d2c6dfc, 0x53380d13, 0x650a7354, 0x766a0abb, 0x81c2c92e, 0x92722c85,
  0xa2bfe8a1, 0xa81a664b, 0xc24b8b70, 0xc76c51a3, 0xd192e819, 0xd6990624, 0xf40e3585, 0x106aa070,
  0x19a4c116, 0x1e376c08, 0x2748774c, 0x34b0bcb5, 0x391c0cb3, 0x4ed8aa4a, 0x5b9cca4f, 0x682e6ff3,
  0x748f82ee, 0x78a5636f, 0x84c87814, 0x8cc70208, 0x90befffa, 0xa4506ceb, 0xbef9a3f7, 0xc67178f2]

/-- The sixty-four words of a block's schedule. -/
def sha256Schedule (m : ByteArray) (start : Nat) : Array UInt32 :=
  let first : Array UInt32 := ((List.range 16).map fun t => bigWord32 m (start + 4 * t)).toArray
  (List.range 48).foldl (fun w k =>
    let t := k + 16
    let x := wordAt w (t - 15)
    let y := wordAt w (t - 2)
    let s0 := rotateRight32 x 7 ^^^ rotateRight32 x 18 ^^^ (x >>> 3)
    let s1 := rotateRight32 y 17 ^^^ rotateRight32 y 19 ^^^ (y >>> 10)
    w.push (wordAt w (t - 16) + s0 + wordAt w (t - 7) + s1)) first

/-- One block of the compression function. -/
def sha256Block (m : ByteArray) (s : Sha256State) (start : Nat) : Sha256State :=
  let w := sha256Schedule m start
  let r := (List.range 64).foldl (fun (r : Sha256State) t =>
    let s1 := rotateRight32 r.e 6 ^^^ rotateRight32 r.e 11 ^^^ rotateRight32 r.e 25
    let choice := (r.e &&& r.f) ^^^ (~~~ r.e &&& r.g)
    let t1 := r.h + s1 + choice + wordAt sha256Constants t + wordAt w t
    let s0 := rotateRight32 r.a 2 ^^^ rotateRight32 r.a 13 ^^^ rotateRight32 r.a 22
    let majority := (r.a &&& r.b) ^^^ (r.a &&& r.c) ^^^ (r.b &&& r.c)
    { a := t1 + (s0 + majority), b := r.a, c := r.b, d := r.c
      e := r.d + t1, f := r.e, g := r.f, h := r.g }) s
  { a := s.a + r.a, b := s.b + r.b, c := s.c + r.c, d := s.d + r.d
    e := s.e + r.e, f := s.f + r.f, g := s.g + r.g, h := s.h + r.h }

/-- The thirty-two bytes of the digest. -/
def sha256 (message : ByteArray) : List UInt8 :=
  let m := padMessage message
  let s := foldBlocks (sha256Block m) (m.size / 64) 0 {}
  [s.a, s.b, s.c, s.d, s.e, s.f, s.g, s.h].flatMap bytesOfWord32

/-- Bytes in lower-case hexadecimal. -/
def hexOfBytes (bytes : List UInt8) : String :=
  String.join (bytes.map fun b => Text.hexLower 2 b.toNat)

/-- The 256-bit digest of a text in lower-case hexadecimal. -/
def sha256Hex (s : String) : String := hexOfBytes (sha256 s.toUTF8)

end ObjectLowering.Digest
