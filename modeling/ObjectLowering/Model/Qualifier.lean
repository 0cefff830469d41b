/-
  Qualifiers of association ends: the key under which a collection is
  indexed, written `name` or `name:type`.
-/
import ObjectLowering.Text.Blank

namespace ObjectLowering.Model

/-- The key type of unqualified collections and of qualifiers without a type. -/
def defaultKeyType : String := "uint64"

/-- A parsed qualifier; both parts are empty when none was given. -/
structure Qualifier where
  name : String := ""
  type : String := ""
deriving DecidableEq, Repr

namespace Qualifier

/-- No qualifier was given. -/
def isZero (q : Qualifier) : Bool := q.name == "" && q.type == ""

/-- The type of the key. -/
def keyType (q : Qualifier) : String := if q.type = "" then defaultKeyType else q.type

/-- Splits a written qualifier at the first colon and trims both parts. -/
def parse (raw : String) : Qualifier :=
  let cs := raw.toList
  let name := cs.takeWhile (· != ':')
  let type := (cs.dropWhile (· != ':')).drop 1
  { name := Text.trim (String.ofList name), type := Text.trim (String.ofList type) }

/-- A written qualifier is well formed if it is blank or has a type. -/
def isWellFormed (raw : String) : Bool := Text.isBlankText raw || (parse raw).type != ""

end Qualifier

end ObjectLowering.Model
