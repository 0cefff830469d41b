/-
  The 32-bit cyclic redundancy check, polynomial `0xEDB88320` with the lowest
  bit first.
-/
import ObjectLowering.Digest.Bytes

namespace ObjectLowering.Digest

/-- One bit of the check. -/
def crcBit (c : UInt32) : UInt32 :=
  if c &&& 1 = 1 then (c >>> 1) ^^^ 0xEDB88320 else c >>> 1

/-- One byte of the check. -/
def crcByte (c : UInt32) (b : UInt8) : UInt32 :=
  (List.range 8).foldl (fun c _ => crcBit c) (c ^^^ b.toUInt32)

/-- The check of a byte string. -/
def crc32 (bytes : ByteArray) : UInt32 := (bytes.foldl crcByte 0xFFFFFFFF) ^^^ 0xFFFFFFFF

end ObjectLowering.Digest
