/-
  A generate run: the classes of a model are lowered, and sources, reports
  and schema scripts are written to the sink.

  * A class that cannot be lowered does not stop the run; its failure is
    reported after everything was written.
  * All reports are made before the first of them is written.
  * The script of the dialect to apply is run on the database right after it
    was written.
-/
import ObjectLowering.Report.Contract
import ObjectLowering.Report.Fingerprint
import ObjectLowering.Run.CounterFile
import ObjectLowering.Run.Source

namespace ObjectLowering.Run

open Config Lowering Artifact Schema Report Files

/-- The units whose names are asked for; all of them when none is. -/
def selectUnits (names : List String) (units : List CodeUnit) : List CodeUnit :=
  if names.isEmpty then units else units.filter fun u => names.contains u.name

/-! ## Reports -/

/-- An artifact that is not a source file. -/
structure Extra where
  name : String
  contentType : String
  content : String
  /-- The dialect of a schema script. -/
  dialect : Option Dialect := none

/-- The contract of units. -/
def contractExtra (s : Settings) (units : List CodeUnit) : Extra :=
  { name := "contract.md", contentType := "text/markdown"
    content := contract "" s.lowering.stateStem units }

/-- The fingerprint of units. -/
def fingerprintExtra (units : List CodeUnit) : Extra :=
  { name := "ids.json", contentType := "application/json"
    content := (Fingerprint.ofUnits units).render }

/-- The schema script of units in a dialect. -/
def scriptExtra (units : List CodeUnit) (dialectName : String) : Except SchemaError Extra := do
  let d ← dialectFor dialectName
  return {
    name := "init." ++ d.name ++ ".sql", contentType := "application/sql"
    content := ← script d units, dialect := some d }

/-- All reports on units. -/
def reports (s : Settings) (units : List CodeUnit) : Except SchemaError (List Extra) := do
  let scripts ← s.schema.dialects.mapM (scriptExtra units)
  return (if s.report.hasContract then [contractExtra s units] else []) ++
    [fingerprintExtra units] ++ scripts

/-! ## Writing -/

/-- What a run has brought about so far. -/
structure Generation where
  units : List CodeUnit
  sink : Sink
  artifacts : List Info := []
  deployments : List Deployment := []
  log : Log := []
  failure : Option Failure := none

/-- The entry of a source file that was written. -/
def writtenEntry (driver : String) (i : Info) : LogEntry :=
  { level := .debug, message := "artifact written"
    fields := [("key", .text i.key), ("size", .int i.size), ("driver", .text driver)] }

/-- The entry of a script that was run. -/
def deployedEntry (d : Dialect) (x : Deployment) : LogEntry :=
  { level := .info, message := "init ddl applied"
    fields := [("dialect", .text d.name), ("statements", .int x.count)] }

/-- The script of a dialect is to be run on the database. -/
def isApplied (s : SchemaSettings) (d : Dialect) : Bool :=
  s.applySource != "" && d.name == s.applyDialect

namespace Generation

/-- Writes the source files of the units. -/
def writeSources (s : Settings) (w : Surroundings) (g : Generation) : Generation :=
  let x := s.layout.writeFiles w.isCanceled { sink := g.sink } (assemble s.layout g.units)
  { g with
    sink := x.sink, artifacts := g.artifacts ++ x.infos
    log := g.log ++ x.infos.map (writtenEntry g.sink.driver)
    failure := x.failure.map .notWritten }

/-- Runs a schema script on the database, if it is the one to apply. -/
def deploy (s : Settings) (w : Surroundings) (g : Generation) (e : Extra) : Generation :=
  match e.dialect with
  | none => g
  | some d =>
    if isApplied s.schema d then
      let x := w.database.deploy d s.schema.applySource e.content
      { g with
        deployments := g.deployments ++ [x]
        log := g.log ++ if x.failure.isNone then [deployedEntry d x] else []
        failure := x.failure.map .notDeployed }
    else g

/-- Writes one report. -/
def writeExtra (s : Settings) (w : Surroundings) (g : Generation) (e : Extra) : Generation :=
  match s.layout.writeExtra w.isCanceled g.sink e.name e.contentType e.content with
  | (sink, .error cause) => { g with sink, failure := some (.notWritten cause) }
  | (sink, .ok info) => { g with sink, artifacts := g.artifacts ++ [info] }.deploy s w e

/-- Writes reports up to the first failure. -/
def writeExtras (s : Settings) (w : Surroundings) (g : Generation) : List Extra → Generation
  | [] => g
  | e :: rest =>
    let g := g.writeExtra s w e
    if g.failure.isSome then g else g.writeExtras s w rest

/-- Makes and writes the reports. -/
def writeReports (s : Settings) (w : Surroundings) (g : Generation) : Generation :=
  match reports s g.units with
  | .error cause => { g with failure := some (.schema cause) }
  | .ok extras => g.writeExtras s w extras

/-- Writes everything that belongs to the units. -/
def write (s : Settings) (w : Surroundings) (g : Generation) : Generation :=
  let g := g.writeSources s w
  if g.failure.isSome then g else g.writeReports s w

/-- The entry at the end of a run. -/
def finishedEntry (g : Generation) : LogEntry :=
  { level := .info, message := "generation finished"
    fields := [("classes", .int g.units.length), ("artifacts", .int g.artifacts.length),
      ("driver", .text g.sink.driver)] }

end Generation

/-! ## The run -/

/-- What a run leaves behind; without a result nothing was written. -/
structure Outcome where
  files : Workspace
  log : Log := []
  result : Option Generation := none
  failure : Option Failure := none

/-- Writes the counters of a batch, if they are kept and the settings name a file. -/
def writeCounters (s : Settings) (w : Surroundings) (b : Batch) (files : Workspace) :
    Except Failure Workspace :=
  if w.hasCounters ∧ s.metricsFile ≠ "" then
    (files.write (locationOf s.metricsFile)
      (.text (counterText (.ofObservations b.observed)))).mapError fun _ => .noCounterFile
  else .ok files

/-- What follows once everything is written. -/
def finish (s : Settings) (w : Surroundings) (b : Batch) (x : Outcome) (g : Generation) :
    Outcome :=
  let files := g.sink.workspace x.files
  let x := { x with files, log := x.log ++ g.log, result := some g, failure := g.failure }
  if g.failure.isSome then x
  else match writeCounters s w b files with
    | .error e => { x with failure := some e }
    | .ok files => { x with files, log := x.log ++ [g.finishedEntry], failure := batchFailure b }

/-- Writes the units of a batch to a sink, or to the one that the settings name. -/
def generateBatch (s : Settings) (w : Surroundings) (sink : Option Sink) (x : Outcome)
    (b : Batch) : Outcome :=
  if b.hasFailed ∧ b.units.isEmpty then { x with failure := batchFailure b }
  else
    let opened : Except OpenError Sink := match sink with
      | some sink => .ok sink
      | none => Sink.start x.files s.sink
    match opened with
    | .error e => { x with failure := some (.noOutput e) }
    | .ok sink =>
      finish s w b x
        ({ units := selectUnits s.lowering.classes b.units, sink : Generation }.write s w)

/-- Runs from the settings to the artifacts. -/
def generate (s : Settings) (w : Surroundings) (sink : Option Sink) : Outcome :=
  let l := lowerSource s w
  let x : Outcome := { files := l.files, log := l.log }
  match l.batch with
  | .error e => { x with failure := some e }
  | .ok b => generateBatch s w sink x b

/-- The fingerprint of the model that the settings name. -/
def currentFingerprint (l : Lowered) : Except Failure Fingerprint :=
  match l.batch with
  | .error e => .error e
  | .ok b =>
    match batchFailure b with
    | some e => .error e
    | none => .ok (.ofUnits b.units)

end ObjectLowering.Run
