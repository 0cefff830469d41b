/-
  The log of a run.

  Entries are recorded at every level; which of them are shown is decided by
  a threshold, and does not change what is recorded.
-/
import ObjectLowering.Data.JsonPrinter
import ObjectLowering.Lowering.Batch
import ObjectLowering.Text.Casing

namespace ObjectLowering.Run

open Data Lowering

/-- How serious an entry is. -/
inductive Level where
  | debug
  | info
  | warn
  | error
  | dpanic
  | panic
  | fatal
deriving DecidableEq, Repr

namespace Level

/-- All levels in ascending order. -/
def all : List Level := [debug, info, warn, error, dpanic, panic, fatal]

/-- The name of a level. -/
def name : Level → String
  | debug => "DEBUG"
  | info => "INFO"
  | warn => "WARN"
  | error => "ERROR"
  | dpanic => "DPANIC"
  | panic => "PANIC"
  | fatal => "FATAL"

/-- The place of a level in the order. -/
def rank (l : Level) : Nat := all.idxOf l

/-- The words for a level, in lower case. -/
def words (l : Level) : List String :=
  Text.toLower l.name :: (if l = warn then ["warning"] else [])

/-- The level that a text names in any case; anything else is `info`. -/
def ofText (s : String) : Level :=
  (all.find? fun l => l.words.contains (Text.toLower s)).getD info

end Level

/-- An entry with its fields. -/
structure LogEntry where
  level : Level
  message : String
  fields : List (String × Value) := []

/-- Entries in the order in which they were made. -/
abbrev Log := List LogEntry

/-- The name of the logger. -/
def loggerName : String := "simgen"

namespace Log

/-- The entries that reach a threshold. -/
def shown (log : Log) (threshold : Level) : Log :=
  log.filter fun e => threshold.rank ≤ e.level.rank

/-- Entries with one more field in front. -/
def within (log : Log) (name : String) (v : Value) : Log :=
  log.map fun e => { e with fields := (name, v) :: e.fields }

/-- The lines of a log file. -/
def lines (log : Log) : String :=
  String.join (log.map fun e =>
    Json.print (.record ([("level", .text e.level.name), ("logger", .text loggerName),
      ("msg", .text e.message)] ++ e.fields)) ++ "\n")

end Log

/-! ## What lowering logs -/

/-- The entry of a diagnostic. -/
def diagnosticEntry (d : Model.Diagnostic) : LogEntry :=
  { level := .warn, message := "diagnostic"
    fields := [("code", .text d.code.text), ("element", .text d.element),
      ("message", .text d.message)] }

/-- The entries of a class that was lowered. -/
def unitLog (u : CodeUnit) : Log :=
  u.diagnostics.map diagnosticEntry ++
    [{ level := .debug, message := "lowered class", fields := [("ids", .int u.ids.length)] }]

/-- The entry of a class that failed. -/
def collisionEntry (e : LowerError) : LogEntry :=
  { level := .error, message := "id collision", fields := [("error", .text e.cause)] }

/-- The entries of a batch, class by class; the units are those of the classes that succeeded. -/
def batchLog : List Observation → List CodeUnit → Log
  | [], _ => []
  | o :: rest, units =>
    let start : LogEntry := { level := .debug, message := "lowering class" }
    let (log, units) := match o.outcome, units with
      | .error e, units => ([collisionEntry e], units)
      | .ok _, u :: units => (unitLog u, units)
      | .ok _, [] => ([], [])
    Log.within (start :: log) "class" (.text o.className) ++ batchLog rest units

end ObjectLowering.Run
