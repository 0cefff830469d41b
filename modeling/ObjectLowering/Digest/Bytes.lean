/-
  Reading words out of byte strings.
-/

namespace ObjectLowering.Digest

/-- The byte at a position, zero beyond the end. -/
def byteAt (b : ByteArray) (i : Nat) : UInt8 := if h : i < b.size then b[i] else 0

/-- The four bytes from a position on, first byte lowest. -/
def littleWord32 (b : ByteArray) (i : Nat) : UInt32 :=
  (byteAt b i).toUInt32 ||| (byteAt b (i + 1)).toUInt32 <<< 8 |||
  (byteAt b (i + 2)).toUInt32 <<< 16 ||| (byteAt b (i + 3)).toUInt32 <<< 24

/-- The eight bytes from a position on, first byte lowest. -/
def littleWord64 (b : ByteArray) (i : Nat) : UInt64 :=
  (littleWord32 b i).toUInt64 ||| (littleWord32 b (i + 4)).toUInt64 <<< 32

/-- The four bytes from a position on, first byte highest. -/
def bigWord32 (b : ByteArray) (i : Nat) : UInt32 :=
  (byteAt b i).toUInt32 <<< 24 ||| (byteAt b (i + 1)).toUInt32 <<< 16 |||
  (byteAt b (i + 2)).toUInt32 <<< 8 ||| (byteAt b (i + 3)).toUInt32

/-- A word as four bytes, highest byte first. -/
def bytesOfWord32 (w : UInt32) : List UInt8 :=
  [(w >>> 24).toUInt8, (w >>> 16).toUInt8, (w >>> 8).toUInt8, w.toUInt8]

/-- A message followed by the delimiter byte, zeros and its length in bits, a whole number of
    64-byte blocks. -/
def padMessage (b : ByteArray) : ByteArray :=
  let bits := b.size * 8
  let zeros := (119 - b.size % 64) % 64
  let tail : List UInt8 := 0x80 :: List.replicate zeros 0 ++
    (List.range 8).map fun i => (bits / Nat.pow 256 (7 - i)).toUInt8
  tail.foldl ByteArray.push b

/-- Turns a word left. -/
def rotateLeft32 (x : UInt32) (n : UInt32) : UInt32 := x <<< n ||| x >>> (32 - n)

/-- Turns a word right. -/
def rotateRight32 (x : UInt32) (n : UInt32) : UInt32 := x >>> n ||| x <<< (32 - n)

/-- Turns a word left. -/
def rotateLeft64 (x : UInt64) (n : UInt64) : UInt64 := x <<< n ||| x >>> (64 - n)

end ObjectLowering.Digest
