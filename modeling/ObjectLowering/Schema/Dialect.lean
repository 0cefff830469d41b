/-
  Dialects of the database schema: names, drivers and column types.
-/
import ObjectLowering.Code.Primitive
import ObjectLowering.Lowering.Storage
import ObjectLowering.Text.Casing
import ObjectLowering.Text.Quoted

namespace ObjectLowering.Schema

open Lowering Code Text

/-- A dialect: its name, the database driver, and the spelling of column types. -/
structure Dialect where
  name : String
  driver : String
  int : String
  float : String
  text : String
  bool : String
  struct : String
deriving DecidableEq, Repr

namespace Dialect

/-- The dialect of PostgreSQL. -/
def postgres : Dialect :=
  { name := "postgres", driver := "pgx", int := "BIGINT", float := "DOUBLE PRECISION"
    text := "TEXT", bool := "BOOLEAN", struct := "JSONB" }

/-- The dialect of SQLite. -/
def sqlite : Dialect :=
  { name := "sqlite", driver := "sqlite", int := "INTEGER", float := "REAL"
    text := "TEXT", bool := "INTEGER", struct := "TEXT" }

/-- The dialect that a name stands for, in any case and with blanks around it. -/
def find (name : String) : Option Dialect :=
  let key := toLower (trim name)
  if ["postgres", "postgresql", "pgx"].contains key then some postgres
  else if ["sqlite", "sqlite3"].contains key then some sqlite
  else none

/-- The type of a column that holds values of a category. References are stored as object ids. -/
def column (d : Dialect) : Category → String
  | .int => d.int
  | .float => d.float
  | .bool => d.bool
  | .struct => d.struct
  | .string | .reference | .verbatim => d.text

/-- The type of a column that holds keys of a model-level type. -/
def key (d : Dialect) (type : String) : String :=
  match classify type with
  | .integral => d.int
  | .floating => d.float
  | .boolean => d.bool
  | .text | .none => d.text

end Dialect

end ObjectLowering.Schema
