/-
  From settings to a model: loading, preparing, lowering.

  Each step returns what it logs beside its result, and the steps that touch
  files return the files.
-/
import ObjectLowering.Config.Settings
import ObjectLowering.Files.Content
import ObjectLowering.Model.Prepare
import ObjectLowering.Run.Failure
import ObjectLowering.Run.Log

namespace ObjectLowering.Run

open Config Model Lowering Files

/-- What a run finds around it. -/
structure Surroundings where
  files : Workspace := {}
  /-- The database that schema scripts are run on. -/
  database : Schema.Database := {}
  /-- The run was cancelled before it started. -/
  isCanceled : Bool := false
  /-- Counters are kept, and written if the settings name a file. -/
  hasCounters : Bool := false

/-! ## Loading -/

/-- The files after a repository was opened: one that is missing is made, without tables. -/
def openedFiles (files : Workspace) (source : String) : Workspace :=
  match files.status (locationOf source), files.write (locationOf source) (.text "") with
  | .error .missing, .ok made => made
  | _, _ => files

/-- The tables of a repository file. -/
def repositoryTables (files : Workspace) (source : String) : Tables :=
  match files.read (locationOf source) with
  | .ok (.tables t) => t
  | _ => Tables.absent

/-- The connection that the settings of a model name. -/
def connection (m : ModelSettings) (w : Surroundings) : Connection :=
  let source := if m.source = "" then m.path else m.source
  { driver := m.driver, source
    answer := if w.isCanceled then .cancels else .opens
    tables := repositoryTables w.files source }

/-- Loads a model from a repository. -/
def loadRepository (m : ModelSettings) (w : Surroundings) :
    Workspace × Except Failure Registry :=
  let c := connection m w
  (if c.source = "" then w.files else openedFiles w.files c.source,
    c.load.mapError .repository)

/-- Loads a model from a document. -/
def loadDocument (path : String) (files : Workspace) : Except Failure Registry :=
  if path = "" then .error .noModelPath
  else match files.read (locationOf path) with
    | .error fault => .error (.unreadableModel path fault)
    | .ok content =>
      match content.text? with
      | some text => (readModel text).mapError (.refusedModel path)
      | none => .error (.refusedModel path .unreadable)

/-- Loads the model that the settings name. -/
def loadModel (s : Settings) (w : Surroundings) : Workspace × Except Failure Registry :=
  if s.modelFormat = "ea" then loadRepository s.model w
  else (w.files, loadDocument s.model.path w.files)

/-! ## Preparing -/

/-- The diagnostics that make a model invalid. -/
def errorsOf (ds : List Diagnostic) : List Diagnostic := ds.filter (·.severity == .error)

/-- The entries of the other diagnostics. -/
def preparationLog (ds : List Diagnostic) : Log :=
  (ds.filter (·.severity != .error)).map diagnosticEntry

/-- Prepares a model, which has to be free of errors. -/
def prepareModel (r : Registry) : Log × Except Failure Registry :=
  let r := r.prepare
  (preparationLog r.diagnostics,
    if hasErrors r.diagnostics then .error (.invalidModel (errorsOf r.diagnostics)) else .ok r)

/-! ## Lowering -/

/-- The failure of a batch, if it has one. -/
def batchFailure (b : Batch) : Option Failure :=
  if b.hasFailed then some (.lowering b.failures b.wasCanceled) else none

/-- Lowers all classes of a prepared model. -/
def lowerModel (s : Settings) (w : Surroundings) (r : Registry) : Batch :=
  lowerAll r (.ofTexts s.lowering.root s.lowering.stateStem) {}
    (if w.isCanceled then .fromStart else .never)

/-- What a run from the settings to lowered classes leaves behind. -/
structure Lowered where
  files : Workspace
  log : Log := []
  batch : Except Failure Batch

/-- Loads, prepares and lowers the model that the settings name. -/
def lowerSource (s : Settings) (w : Surroundings) : Lowered :=
  let (files, loaded) := loadModel s w
  match loaded with
  | .error e => { files, batch := .error e }
  | .ok r =>
    let (log, prepared) := prepareModel r
    match prepared with
    | .error e => { files, log, batch := .error e }
    | .ok r =>
      let b := lowerModel s w r
      { files, log := log ++ batchLog b.observed b.units, batch := .ok b }

end ObjectLowering.Run
