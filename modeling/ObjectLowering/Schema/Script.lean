/-
  The script that creates the tables of all simulation objects.
-/
import ObjectLowering.Schema.Table

namespace ObjectLowering.Schema

open Lowering Text

/-- Why there is no script. -/
inductive SchemaError where
  | unknownDialect (name : String)
  | noDialect
  /-- Two classes with one table. -/
  | sameTable (first second table : String)
deriving DecidableEq, Repr

/-- The text of an error. -/
def SchemaError.message : SchemaError → String
  | unknownDialect name => "initdb: unknown dialect " ++ quote name
  | noDialect => "initdb: dialect required"
  | sameTable first second table =>
    "initdb: classes " ++ first ++ " and " ++ second ++ " map to table " ++ table

/-- The dialect of a name, or the error that there is none. -/
def dialectFor (name : String) : Except SchemaError Dialect :=
  match Dialect.find name with
  | some d => .ok d
  | none => .error (.unknownDialect name)

/-- Checks that no table belongs to two classes; `seen` pairs tables with classes. -/
def checkDistinct (seen : List (String × String)) : List ClassTables → Except SchemaError Unit
  | [] => .ok ()
  | c :: rest =>
    match seen.lookup c.table.name with
    | some first => .error (.sameTable first c.className c.table.name)
    | none => checkDistinct ((c.table.name, c.className) :: seen) rest

/-- The tables of all units, in unit order. -/
def schemaTables (d : Dialect) (units : List CodeUnit) : Except SchemaError (List ClassTables) := do
  let tables := units.filterMap (unitTables d)
  checkDistinct [] tables
  return tables

/-- The first line of a script. -/
def scriptHeader (d : Dialect) : String :=
  "-- Code generated by simgen (" ++ d.name ++ "). DO NOT EDIT.\n"

/-- The script of all units in a dialect. -/
def script (d : Dialect) (units : List CodeUnit) : Except SchemaError String := do
  let tables ← schemaTables d units
  return scriptHeader d ++ String.join (tables.map ClassTables.text)

end ObjectLowering.Schema
