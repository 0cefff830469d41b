/-
  A store in memory.
-/
import ObjectLowering.Artifact.Store
import ObjectLowering.Data.Entries
import ObjectLowering.Text.Escape
import ObjectLowering.Text.Parts

namespace ObjectLowering.Artifact

open Text Data

/-- A stored artifact. -/
structure Stored where
  info : Info
  content : String
deriving DecidableEq, Repr

/-- The stored artifacts by key, in ascending order. -/
structure MemoryStore where
  objects : List (String × Stored) := []
deriving DecidableEq, Repr

namespace MemoryStore

/-- The artifact of a key. -/
def get (s : MemoryStore) (key : String) : Except StoreError Stored :=
  match s.objects.lookup key with
  | some o => .ok o
  | none => .error (.notFound key)

/-- The description of the artifact of a key. -/
def head (s : MemoryStore) (key : String) : Except StoreError Info := (s.get key).map (·.info)

/-- Stores an artifact. -/
def put (s : MemoryStore) (u : Upload) : Except StoreError (MemoryStore × Info) :=
  if isBlankText u.key then .error .emptyKey
  else match u.body with
    | .error cause => .error (.unreadable cause)
    | .ok content =>
      if (s.objects.lookup u.key).isSome ∧ !u.overwrites then .error (.taken u.key)
      else
        let info := describe u content
        .ok ({ objects := putEntry u.key { info, content } s.objects }, info)

/-- Removes the artifact of a key, and tells whether there was one. -/
def delete (s : MemoryStore) (key : String) : MemoryStore × Bool :=
  ({ objects := s.objects.filter fun o => o.1 != key }, (s.objects.lookup key).isSome)

/-- The artifacts whose keys start with a text, in ascending order of keys. -/
def list (s : MemoryStore) (front : String) : List Info :=
  (s.objects.filter fun o => startsWith o.1 front).map (·.2.info)

/-- A link to an artifact that exists. -/
def link (s : MemoryStore) (r : LinkRequest) : Except StoreError Link :=
  if !r.isReading then .error .unsupported
  else (s.head r.key).map fun _ => { url := "memory://simgen/" ++ escape isPathChar r.key }

end MemoryStore

end ObjectLowering.Artifact
