/-
  The id table: which id each key of each class has, and who claimed it.

  * A key is hashed to its id.  Two keys with one id anywhere in the table
    are a collision, and so are two owners of one key in one scope.
  * `claim` either enters a key or refuses it and changes nothing.
  * `claimAll` runs a list of claims up to the first that is refused.
  * `snapshot` is the whole table by class and key.
-/
import ObjectLowering.Code.Identifier
import ObjectLowering.Data.Entries
import ObjectLowering.Digest.XxHash
import ObjectLowering.Text.Quoted

namespace ObjectLowering.Lowering

open Code Text

/-- The key of a name under a prefix. -/
def keyOf (stem name : String) : String :=
  if stem = "" then constantName name else stem ++ "_" ++ constantName name

/-- An id as text: sixteen upper-case hexadecimal digits behind `0x`. -/
def formatId (id : UInt64) : String := "0x" ++ hexUpper 16 id.toNat

/-- A key with its id. -/
structure IdEntry where
  key : String
  id : UInt64
deriving DecidableEq, Repr

/-- Why a claim is refused. -/
structure Collision where
  /-- The scope. -/
  scope : String
  id : UInt64
  key : String
  /-- The key that has the id already. -/
  existing : String
  /-- The owner of the key and the one who claimed it, if the key itself is contested. -/
  holder : String := ""
  claimant : String := ""
deriving DecidableEq, Repr

/-- The text of a collision. -/
def Collision.message (c : Collision) : String :=
  "lowering: feature id collision: class " ++ c.scope ++ ": " ++
    if c.holder ≠ "" then c.holder ++ " and " ++ c.claimant ++ " both map to key " ++ c.key
    else quote c.key ++ " and " ++ quote c.existing ++ " both hash to " ++ formatId c.id

/-- The entries of one class in the order of allocation, and the owners of its keys. -/
structure IdScope where
  name : String
  entries : List IdEntry := []
  owners : List (String × String) := []
deriving DecidableEq, Repr

namespace IdScope

/-- The entry of a key. -/
def find (s : IdScope) (key : String) : Option IdEntry := s.entries.find? fun e => e.key == key

/-- The owner of a key, empty if none is known. -/
def owner (s : IdScope) (key : String) : String := (s.owners.lookup key).getD ""

/-- Records the owner of a key that has none. -/
def own (s : IdScope) (key owner : String) : IdScope :=
  if owner ≠ "" ∧ s.owner key = "" then { s with owners := (key, owner) :: s.owners } else s

end IdScope

/-- The id tables of all classes, in the order of their creation. -/
structure IdTable where
  hash : String → UInt64 := Digest.XxHash.hash
  /-- The key of every id in use. -/
  index : List (UInt64 × String) := []
  scopes : List IdScope := []

namespace IdTable

/-- The scope of a class. -/
def scope? (t : IdTable) (name : String) : Option IdScope := t.scopes.find? fun s => s.name == name

/-- Makes sure that a class has a scope. -/
def withScope (t : IdTable) (name : String) : IdTable :=
  match t.scope? name with
  | some _ => t
  | none => { t with scopes := t.scopes ++ [{ name }] }

/-- Enters a scope in place of the one with its name. -/
def setScope (t : IdTable) (s : IdScope) : IdTable :=
  let t := t.withScope s.name
  { t with scopes := t.scopes.map fun x => if x.name = s.name then s else x }

/-- The entries of a class. -/
def entries (t : IdTable) (name : String) : List IdEntry :=
  ((t.scope? name).map (·.entries)).getD []

/-- The ids of every class by key. -/
def snapshot (t : IdTable) : List (String × List (String × UInt64)) :=
  Data.entriesOf (t.scopes.map fun s =>
    (s.name, Data.entriesOf (s.entries.map fun e => (e.key, e.id))))

/-- Claims a key for an owner in the scope of a class. Claiming again is fine for the same owner;
    an empty owner never conflicts. -/
def claim (t : IdTable) (name key owner : String) : Except Collision (IdTable × IdEntry) :=
  let s := (t.scope? name).getD { name }
  match s.find key with
  | some e =>
    let holder := s.owner key
    if owner ≠ "" ∧ holder ≠ "" ∧ holder ≠ owner then
      .error { scope := name, id := e.id, key, existing := key, holder, claimant := owner }
    else .ok (t.setScope (s.own key owner), e)
  | none =>
    let id := t.hash key
    let e : IdEntry := { key, id }
    let entered := (t.setScope ({ s with entries := s.entries ++ [e] }.own key owner), e)
    match t.index.lookup id with
    | some existing =>
      if existing ≠ key then .error { scope := name, id, key, existing }
      else .ok entered
    | none => .ok ({ entered.1 with index := (id, key) :: t.index }, e)

/-- Allocates a key on behalf of nobody. -/
def allocateKey (t : IdTable) (name key : String) : Except Collision (IdTable × IdEntry) :=
  t.claim name key ""

/-- Allocates the key of a name under a prefix. -/
def allocate (t : IdTable) (name stem part : String) : Except Collision (IdTable × IdEntry) :=
  t.allocateKey name (keyOf stem part)

/-- Runs claims (key and owner) in order up to the first that is refused: the table after those
    that succeeded, their number, and the refusal. -/
def claimAll (t : IdTable) (name : String) :
    List (String × String) → IdTable × Nat × Option Collision
  | [] => (t, 0, none)
  | (key, owner) :: rest =>
    match t.claim name key owner with
    | .error c => (t, 0, some c)
    | .ok (t, _) =>
      let (t, n, c) := t.claimAll name rest
      (t, n + 1, c)

end IdTable

end ObjectLowering.Lowering
