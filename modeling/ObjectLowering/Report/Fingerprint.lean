/-
  Fingerprints: the ids of every class, kept to notice that an id changes
  from one run to the next.

  * `Fingerprint.ofUnits` collects the ids, `render` and `read?` write and
    read them.
  * `drift` lists what a newer fingerprint changed or lost; what it added is
    no drift.
-/
import ObjectLowering.Data.JsonPrinter
import ObjectLowering.Data.JsonReader
import ObjectLowering.Data.Strict
import ObjectLowering.Lowering.CodeUnit

namespace ObjectLowering.Report

open Data Lowering Text

/-- The ids of a class by key, as texts. -/
abbrev IdTexts := List (String × String)

/-- The ids of classes by name. Classes, and the ids of a class, may be absent altogether. -/
structure Fingerprint where
  version : Int := 0
  classes : Option (List (String × Option IdTexts)) := none
deriving DecidableEq, Repr

/-- The version that is written and read. -/
def fingerprintVersion : Int := 1

namespace Fingerprint

/-- The ids of a unit as entries. -/
def idTexts (u : CodeUnit) : IdTexts := entriesOf (u.ids.map fun e => (e.key, formatId e.id))

/-- The fingerprint of units; a unit without ids has no entry. -/
def ofUnits (units : List CodeUnit) : Fingerprint :=
  { version := fingerprintVersion
    classes := some (entriesOf
      ((units.filter fun u => !u.ids.isEmpty).map fun u => (u.name, some (idTexts u)))) }

/-! ## Writing and reading -/

/-- Absent entries are `null`. -/
def entriesValue {α : Type} (item : α → Value) : Option (List (String × α)) → Value
  | none => .null
  | some es => .record ((entriesOf es).map fun (name, x) => (name, item x))

/-- A fingerprint as data. -/
def toValue (f : Fingerprint) : Value :=
  .record [("version", .int f.version),
    ("classes", entriesValue (entriesValue Value.text) f.classes)]

/-- The text of a fingerprint file. -/
def render (f : Fingerprint) : String := Json.printIndented "" f.toValue ++ "\n"

/-- Reads the fields of a fingerprint. -/
def reader : Strict.Reader Fingerprint :=
  Strict.record [
    ("version", fun f v => (Strict.int f.version v).map fun version => { f with version }),
    ("classes", fun f v =>
      (Strict.entries (Strict.entries Strict.text "") none f.classes v).map fun classes =>
        { f with classes })]

/-- Why a fingerprint cannot be read. -/
inductive ReadError where
  | unreadable
  | wrongVersion (version : Int)
deriving DecidableEq, Repr

/-- The text of a version error. -/
def versionMessage (version : Int) : String :=
  "fingerprint version " ++ toString version ++ ", want " ++ toString fingerprintVersion

/-- Reads the text of a fingerprint file. -/
def read (s : String) : Except ReadError Fingerprint :=
  match (Json.read s).bind (reader {}) with
  | none => .error .unreadable
  | some f => if f.version = fingerprintVersion then .ok f else .error (.wrongVersion f.version)

/-! ## Drift -/

/-- The ids of a class. -/
def ids? (f : Fingerprint) (name : String) : Option IdTexts :=
  ((f.classes.getD []).lookup name).map (·.getD [])

/-- What became of one id of a class. -/
def idDrift (name : String) (now : IdTexts) (key id : String) : Option String :=
  match now.lookup key with
  | none => some ("class " ++ name ++ " id removed: " ++ key)
  | some current =>
    if current = id then none
    else some ("class " ++ name ++ " id changed: " ++ key ++ " " ++ id ++ " -> " ++ current)

/-- What became of one class. -/
def classDrift (current : Fingerprint) (name : String) (ids : IdTexts) : List String :=
  match current.ids? name with
  | none => ["class removed: " ++ name]
  | some now => ids.filterMap fun (key, id) => idDrift name now key id

/-- The ids of a baseline that changed or disappeared, in ascending order of their texts. -/
def drift (baseline current : Fingerprint) : List String :=
  sortTexts ((baseline.classes.getD []).flatMap fun (name, ids) =>
    classDrift current name (ids.getD []))

end Fingerprint

end ObjectLowering.Report
