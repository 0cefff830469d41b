/-
  The 64-bit xxHash of a byte string, with seed zero: the default hash from
  id keys to ids.
-/
import ObjectLowering.Digest.Bytes

namespace ObjectLowering.Digest.XxHash

def prime1 : UInt64 := 0x9E3779B185EBCA87
def prime2 : UInt64 := 0xC2B2AE3D27D4EB4F
def prime3 : UInt64 := 0x165667B19E3779F9
def prime4 : UInt64 := 0x85EBCA77C2B2AE63
def prime5 : UInt64 := 0x27D4EB2F165667C5

/-- One step of a lane: the input word is scaled, added, turned and scaled again. -/
def round (acc input : UInt64) : UInt64 :=
  rotateLeft64 (acc + input * prime2) 31 * prime1

/-- Mixes a finished lane into the running value. -/
def merge (acc lane : UInt64) : UInt64 :=
  (acc ^^^ round 0 lane) * prime1 + prime4

/-- The four lanes that long inputs run through. -/
structure Lanes where
  a : UInt64 := prime1 + prime2
  b : UInt64 := prime2
  c : UInt64 := 0
  d : UInt64 := 0 - prime1

/-- Feeds `n` stripes of 32 bytes, from position `i` on, to the lanes. -/
def Lanes.feed (bytes : ByteArray) : Nat → Nat → Lanes → Lanes
  | 0, _, l => l
  | n + 1, i, l =>
    Lanes.feed bytes n (i + 32)
      { a := round l.a (littleWord64 bytes i)
        b := round l.b (littleWord64 bytes (i + 8))
        c := round l.c (littleWord64 bytes (i + 16))
        d := round l.d (littleWord64 bytes (i + 24)) }

/-- The value of the lanes after the last stripe. -/
def Lanes.finish (l : Lanes) : UInt64 :=
  merge (merge (merge (merge
    (rotateLeft64 l.a 1 + rotateLeft64 l.b 7 + rotateLeft64 l.c 12 + rotateLeft64 l.d 18)
    l.a) l.b) l.c) l.d

/-- Mixes in `n` words of eight bytes. -/
def mixWords (bytes : ByteArray) : Nat → Nat → UInt64 → UInt64
  | 0, _, h => h
  | n + 1, i, h =>
    mixWords bytes n (i + 8)
      (rotateLeft64 (h ^^^ round 0 (littleWord64 bytes i)) 27 * prime1 + prime4)

/-- Mixes in `n` single bytes. -/
def mixBytes (bytes : ByteArray) : Nat → Nat → UInt64 → UInt64
  | 0, _, h => h
  | n + 1, i, h =>
    mixBytes bytes n (i + 1)
      (rotateLeft64 (h ^^^ (byteAt bytes i).toUInt64 * prime5) 11 * prime1)

/-- The final scrambling of all bits. -/
def avalanche (h : UInt64) : UInt64 :=
  let h := (h ^^^ (h >>> 33)) * prime2
  let h := (h ^^^ (h >>> 29)) * prime3
  h ^^^ (h >>> 32)

/-- The hash of a byte string: 32-byte stripes, then words, half a word and single bytes. -/
def hashBytes (bytes : ByteArray) : UInt64 :=
  let size := bytes.size
  let stripes := size / 32
  let start : UInt64 :=
    if 32 ≤ size then (Lanes.feed bytes stripes 0 {}).finish else prime5
  let h := start + size.toUInt64
  let i := 32 * stripes
  let words := (size - i) / 8
  let h := mixWords bytes words i h
  let i := i + 8 * words
  let half := (size - i) / 4
  let h := if half = 0 then h else
    rotateLeft64 (h ^^^ (littleWord32 bytes i).toUInt64 * prime1) 23 * prime2 + prime3
  let i := i + 4 * half
  avalanche (mixBytes bytes (size - i) i h)

/-- The hash of the UTF-8 encoding of a text. -/
def hash (s : String) : UInt64 := hashBytes s.toUTF8

end ObjectLowering.Digest.XxHash
