/-
  Tables that hold the initial values of simulation objects.

  A class has one table with a row per object, and a side table per keyed
  member with a row per key.  Tables are data; their text comes last.
-/
import ObjectLowering.Lowering.CodeUnit
import ObjectLowering.Schema.Dialect

namespace ObjectLowering.Schema

open Lowering Code Text

/-! ## Names -/

/-- A word starts at an upper-case letter behind `before`: it follows a lower-case letter or a
    digit, or is itself followed by a lower-case letter. -/
def startsWord (before c : Char) (after : Option Char) : Bool :=
  isUpper c && before != '_' &&
    (isLower before || isDigit before || (after.map isLower).getD false)

/-- Puts `_` in front of each word behind a character, and turns to lower case. -/
def snakeCaseFrom : Char → List Char → List Char
  | _, [] => []
  | before, c :: cs =>
    if startsWord before c cs.head? then '_' :: lowerChar c :: snakeCaseFrom c cs
    else lowerChar c :: snakeCaseFrom c cs

/-- The words of an identifier in lower case, joined by `_`. -/
def snakeCase : List Char → List Char
  | [] => []
  | c :: cs => lowerChar c :: snakeCaseFrom c cs

/-- The name that a model name has in the database. -/
def tableName (name : String) : String := String.ofList (snakeCase (ident name).toList)

/-! ## Columns and tables -/

/-- What a column demands of its values. -/
inductive Demand where
  | primaryKey
  | notNull
  | nothing
deriving DecidableEq, Repr

/-- The text of a demand behind the column type. -/
def Demand.text : Demand → String
  | .primaryKey => " PRIMARY KEY"
  | .notNull => " NOT NULL"
  | .nothing => ""

/-- A column of a table. -/
structure Column where
  name : String
  type : String
  demand : Demand
deriving DecidableEq, Repr

/-- The text of a column. -/
def Column.text (c : Column) : String := c.name ++ " " ++ c.type ++ c.demand.text

/-- A table: its columns and the texts of the constraints on the whole table. -/
structure Table where
  name : String
  columns : List Column
  constraints : List String := []
deriving DecidableEq, Repr

/-- The statement that creates a table. -/
def Table.text (t : Table) : String :=
  "CREATE TABLE IF NOT EXISTS " ++ t.name ++ " (\n    " ++
    String.intercalate ",\n    " (t.columns.map Column.text ++ t.constraints) ++ "\n);\n"

/-- The tables of one class. -/
structure ClassTables where
  className : String
  table : Table
  sides : List Table
deriving DecidableEq, Repr

/-- The text of the tables of a class, behind a comment with its name. -/
def ClassTables.text (c : ClassTables) : String :=
  "\n-- " ++ c.className ++ "\n" ++ String.join ((c.table :: c.sides).map Table.text)

/-! ## Tables of a unit -/

/-- A member with initial values: accessible and writable. -/
def isStored (m : Member) : Bool := !m.isForeign && !m.isDerived

/-- The column of a member with at most one value. -/
def memberColumn (d : Dialect) (m : Member) : Column :=
  { name := tableName m.name, type := d.column m.category
    demand := if m.storage.shape = .scalar ∧ m.category ≠ .reference then .notNull else .nothing }

/-- The side table of a keyed member. -/
def sideTable (d : Dialect) (table : String) (m : Member) : Table :=
  { name := table ++ "__" ++ tableName m.name
    columns := [
      { name := "object_id", type := d.text, demand := .notNull },
      { name := "key", type := d.key m.storage.key, demand := .notNull },
      { name := "value", type := d.column m.category, demand := .nothing }]
    constraints := [
      "PRIMARY KEY (object_id, key)",
      "FOREIGN KEY (object_id) REFERENCES " ++ table ++ "(object_id) ON DELETE CASCADE"] }

/-- The tables of a class with given members. -/
def classTables (d : Dialect) (name : String) (members : List Member) : ClassTables :=
  let stored := members.filter isStored
  let table := tableName name
  { className := name
    table := {
      name := table
      columns := { name := "object_id", type := d.text, demand := .primaryKey } ::
        (stored.filter fun m => m.storage.shape != .keyed).map (memberColumn d) }
    sides := (stored.filter fun m => m.storage.shape == .keyed).map (sideTable d table) }

/-- The tables of a unit; only simulation objects have some. -/
def unitTables (d : Dialect) (u : CodeUnit) : Option ClassTables :=
  if u.family = .simObject then u.features.map fun f => classTables d u.name f.data else none

end ObjectLowering.Schema
