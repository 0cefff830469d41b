/-
  Name-based unique ids (version 5): the first sixteen bytes of the 160-bit
  digest of a namespace and a name, with the version and the variant set.
-/
import ObjectLowering.Digest.Sha

namespace ObjectLowering.Digest

/-- The sixteen bytes of a unique id. -/
structure Uuid where
  bytes : List UInt8

/-- The namespace of names that are URLs. -/
def Uuid.urlNamespace : Uuid :=
  ⟨[0x6b, 0xa7, 0xb8, 0x11, 0x9d, 0xad, 0x11, 0xd1, 0x80, 0xb4, 0x00, 0xc0, 0x4f, 0xd4, 0x30, 0xc8]⟩

/-- The id of a name inside a namespace. -/
def Uuid.ofName (space : Uuid) (name : String) : Uuid :=
  let digest := sha1 (space.bytes.toByteArray ++ name.toUTF8)
  ⟨(digest.take 16).mapIdx fun i b =>
    if i = 6 then (b &&& 0x0f) ||| 0x50
    else if i = 8 then (b &&& 0x3f) ||| 0x80
    else b⟩

/-- The usual writing: lower-case hexadecimal in groups of 8, 4, 4, 4 and 12 digits. -/
def Uuid.text (u : Uuid) : String :=
  let part (i n : Nat) := hexOfBytes ((u.bytes.drop i).take n)
  String.intercalate "-" [part 0 4, part 4 2, part 6 2, part 8 2, part 10 6]

end ObjectLowering.Digest
