/-
  Layers of settings: the environment goes before the file, and the file
  before the defaults.

  Settings are named by dotted keys.  In a file a dotted key may be nested
  records, one name with dots, or anything between.  A variable of the
  environment that names a section hides the settings in it.
-/
import ObjectLowering.Config.Settings
import ObjectLowering.Data.Entries

namespace ObjectLowering.Config

open Data Text

/-- The variables of the environment. -/
abbrev Environment := List (String × String)

/-- The layers over the defaults. -/
structure Layers where
  environment : Environment := []
  /-- The content of the file, all names in lower case. -/
  file : Value := .record []

mutual

/-- A value with all names in lower case. -/
def lowerNames : Value → Value
  | .record fs => .record (lowerFields fs)
  | .list vs => .list (lowerItems vs)
  | v => v

/-- The fields of a record with all names in lower case. -/
def lowerFields : List (String × Value) → List (String × Value)
  | [] => []
  | (name, v) :: rest => (toLower name, lowerNames v) :: lowerFields rest

/-- The items of a list with all names in lower case. -/
def lowerItems : List Value → List Value
  | [] => []
  | v :: rest => lowerNames v :: lowerItems rest

end

/-- The dotted key of names. -/
def dotted (names : List String) : String := String.intercalate "." names

/-! ## Searching -/

/-- The value at the end of a way through records; a name may cover several steps of the way, and
    the longest is tried first. `null` if there is none. -/
def search : Nat → Value → List String → Value
  | 0, v, _ => v
  | _ + 1, v, [] => v
  | fuel + 1, v, way =>
    ((List.range way.length).map (way.length - ·)).foldl (fun found n =>
      if !found.isNull then found
      else if n = way.length then v.get (dotted way)
      else match v.get (dotted (way.take n)) with
        | .record fs => search fuel (.record fs) (way.drop n)
        | _ => .null) .null

/-- Sets the value at the end of a way, making the records on it. -/
def setAt : List String → Value → Value → Value
  | [], v, _ => v
  | name :: rest, v, tree => .record (putEntry name (setAt rest v (tree.get name)) tree.fields)

/-- The defaults at a key: the one with that name, or those of the section. -/
def defaultAt (key : String) : Value :=
  match defaultSettings.lookup key with
  | some v => v
  | none =>
    let below := defaultSettings.filter fun d => startsWith d.1 (key ++ ".")
    below.foldl (fun tree (name, v) =>
      setAt (splitOn '.' (dropFront name (key ++ "."))) v tree) .null

/-! ## Keys -/

mutual

/-- The keys of what a record holds directly or further down. -/
def leafKeys (way : String) : Value → List String
  | .record fs => fieldKeys way fs
  | _ => [way]

/-- The keys of fields. -/
def fieldKeys (way : String) : List (String × Value) → List String
  | [] => []
  | (name, v) :: rest =>
    leafKeys (if way = "" then name else way ++ "." ++ name) v ++ fieldKeys way rest

end

/-- The sections that a key lies in. -/
def sectionsOf (key : String) : List String :=
  let names := splitOn '.' key
  (List.range (names.length - 1)).map fun n => dotted (names.take (n + 1))

/-- The variable of the environment for a key. -/
def variableName (key : String) : String := "SIMGEN_" ++ replaceChar '.' "_" (toUpper key)

namespace Layers

/-- What the environment says of a key, if it is not empty. -/
def override (l : Layers) (key : String) : Option String :=
  (l.environment.lookup (variableName key)).filter (· != "")

/-- The keys that have a value: those of the file, and the defaults outside of them. -/
def keys (l : Layers) : List String :=
  let given := (fieldKeys "" l.file.fields).eraseDups
  given ++ (defaultSettings.map (·.1)).filter fun key =>
    !given.contains key && !(sectionsOf key).any given.contains

/-- The value of a key in the first layer that has one. -/
def find (l : Layers) (key : String) : Value :=
  match l.override key with
  | some s => .text s
  | none =>
    if (sectionsOf key).any fun s => (l.override s).isSome then .null
    else
      let way := splitOn '.' key
      match search (way.length + 1) l.file way with
      | .null => defaultAt key
      | v => v

/-- All settings as one record. -/
def value (l : Layers) : Value :=
  l.keys.foldl (fun tree key =>
    match l.find key with
    | .null => tree
    | v => setAt (splitOn '.' key) v tree) (.record [])

end Layers

end ObjectLowering.Config
