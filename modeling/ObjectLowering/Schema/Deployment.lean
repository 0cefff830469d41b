/-
  Running a script on a database.

  A database is what can be told from outside: whether it opens and answers,
  and which statements it refuses.
-/
import ObjectLowering.Schema.Dialect
import ObjectLowering.Schema.Statements

namespace ObjectLowering.Schema

open Text

/-- How a database behaves. -/
structure Database where
  /-- Opening fails with this text. -/
  openFault : Option String := none
  /-- The first call fails with this text. -/
  pingFault : Option String := none
  /-- The text with which a statement is refused. -/
  refusal : String → Option String := fun _ => none

/-- Why a script was not run to its end. -/
inductive DeployError where
  | noSource
  | notOpened (dialect cause : String)
  | notReached (dialect cause : String)
  | refused (cause : String)
deriving DecidableEq, Repr

/-- The text of an error. -/
def DeployError.message : DeployError → String
  | noSource => "initdb: dsn required"
  | notOpened dialect cause => "open " ++ dialect ++ ": " ++ cause
  | notReached dialect cause => "ping " ++ dialect ++ ": " ++ cause
  | refused cause => "execute ddl: " ++ cause

/-- What happened on the database. -/
structure Deployment where
  /-- The driver and the source that were opened. -/
  opened : Option (String × String) := none
  /-- The statements that were executed. -/
  executed : List String := []
  failure : Option DeployError := none
deriving DecidableEq, Repr

/-- The number of executed statements. -/
def Deployment.count (d : Deployment) : Nat := d.executed.length

/-- Executes statements up to the first that is refused. -/
def Database.execute (db : Database) : List String → List String × Option DeployError
  | [] => ([], none)
  | s :: rest =>
    match db.refusal s with
    | some cause => ([], some (.refused cause))
    | none =>
      let (done, failure) := db.execute rest
      (s :: done, failure)

/-- Opens the database behind a source and runs a script on it. -/
def Database.deploy (db : Database) (d : Dialect) (source script : String) : Deployment :=
  if isBlankText source then { failure := some .noSource }
  else
    let opened := some (d.driver, source)
    match db.openFault, db.pingFault with
    | some cause, _ => { opened, failure := some (.notOpened d.name cause) }
    | none, some cause => { opened, failure := some (.notReached d.name cause) }
    | none, none =>
      let (executed, failure) := db.execute (statements script)
      { opened, executed, failure }

end ObjectLowering.Schema
