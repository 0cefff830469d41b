/-
  The commands: what each prints, writes and logs.
-/
import ObjectLowering.Command.Arguments
import ObjectLowering.Config.Load
import ObjectLowering.Model.Outline
import ObjectLowering.Model.Validate
import ObjectLowering.Run.Generate

namespace ObjectLowering.Command

open Config Text Files Model Report Run

/-! ## Failures -/

/-- Why a command fails. -/
inductive Failure where
  | arguments (cause : ArgumentError)
  | settings (cause : LoadError)
  | run (cause : Run.Failure)
  /-- The model is not valid. -/
  | contract
  | noBaseline
  | missingBaseline (path : String)
  /-- Something that is no file stands where the baseline should be. -/
  | obstructedBaseline
  | unreadableBaseline
  | oldBaseline (version : Int)
  | unwritableBaseline
  | drifted (count : Nat) (path : String)

/-- The text of an error in settings. -/
def loadErrorMessage : LoadError → String
  | .unreadable => "settings cannot be read"
  | .mistyped => "a setting has the wrong type"
  | .invalid faults => faultsText faults

/-- The text of a failure. -/
def Failure.message : Failure → String
  | arguments cause => cause.message
  | settings cause => loadErrorMessage cause
  | run cause => cause.message
  | contract => "model violates the importer contract"
  | noBaseline => "no baseline: set report.fingerprint or --baseline"
  | missingBaseline path => "fingerprint missing (" ++ path ++ "); run with --write"
  | obstructedBaseline => "fingerprint is no file"
  | unreadableBaseline => "fingerprint cannot be read"
  | oldBaseline version => Fingerprint.versionMessage version
  | unwritableBaseline => "fingerprint cannot be written"
  | drifted count path => toString count ++ " feature ids changed against " ++ path

/-- What a command leaves behind. -/
structure Reply where
  files : Workspace
  output : String := ""
  /-- The entries that are shown. -/
  log : Log := []
  deployments : List Schema.Deployment := []
  failure : Option Failure := none

/-- The exit code. -/
def Reply.code (r : Reply) : Nat := if r.failure.isSome then 1 else 0

/-- Lines as one text. -/
def lines (ls : List String) : String := String.join (ls.map (· ++ "\n"))

/-! ## The commands -/

/-- The settings of a generate command. -/
def generateSettings (s : Settings) (flags : Reading) : Settings :=
  { s with
    output := { s.output with
      overwrites := s.output.overwrites || flags.isOn "overwrite"
      driver := if flags.isOn "dry-run" then "memory" else s.output.driver } }

/-- The summary of a generate run. -/
def generationText (g : Generation) : String :=
  lines (g.artifacts.map fun i => i.key ++ "\t" ++ toString i.size) ++
    "generated " ++ toString g.units.length ++ " classes, " ++ toString g.artifacts.length ++
    " artifacts (" ++ g.sink.driver ++ ")\n"

/-- The entry of a run that failed. -/
def failedEntry (e : Run.Failure) : LogEntry :=
  { level := .error, message := "generation failed", fields := [("error", .text e.message)] }

/-- Generates the artifacts of the model. -/
def generateReply (s : Settings) (w : Surroundings) (flags : Reading) : Reply :=
  let x := Run.generate (generateSettings s flags) { w with hasCounters := true } none
  { files := x.files
    output := (x.result.map generationText).getD ""
    log := x.log ++ (x.failure.map failedEntry).toList
    deployments := (x.result.map (·.deployments)).getD []
    failure := x.failure.map .run }

/-- Loads the model for a command that only looks at it. -/
def withModel (s : Settings) (w : Surroundings) (f : Workspace → Registry → Reply) : Reply :=
  match loadModel s w with
  | (files, .error e) => { files, failure := some (.run e) }
  | (files, .ok r) => f files r

/-- Checks the model. -/
def validateReply (s : Settings) (w : Surroundings) : Reply :=
  withModel s w fun files r =>
    let r := r.prepare
    match r.validate with
    | some problems =>
      { files, output := lines (splitAtText "; " problems), failure := some .contract }
    | none =>
      { files
        output := lines (r.diagnostics.map Diagnostic.text) ++
          "model valid: " ++ toString r.classifiers.length ++ " classifiers\n" }

/-- Prints the outline of the model. -/
def dumpReply (s : Settings) (w : Surroundings) : Reply :=
  withModel s w fun files r => { files, output := r.prepare.outline }

/-- The number of classes of a fingerprint, as messages give it. -/
def classCount (f : Fingerprint) : String :=
  "(" ++ toString (f.classes.getD []).length ++ " classes)\n"

/-- Writes a baseline, with the directories on the way to it. -/
def writeBaseline (files : Workspace) (path : String) (f : Fingerprint) : Reply :=
  match files.makeDirectory (locationOf (Path.directory path)) with
  | .error _ => { files, failure := some .unwritableBaseline }
  | .ok made =>
    match made.write (locationOf path) (.text f.render) with
    | .error _ => { files := made, failure := some .unwritableBaseline }
    | .ok files => { files, output := "fingerprint written to " ++ path ++ " " ++ classCount f }

/-- Reads a baseline. -/
def readBaseline (files : Workspace) (path : String) : Except Failure Fingerprint :=
  match files.read (locationOf path) with
  | .error .missing => .error (.missingBaseline path)
  | .error .obstructed => .error .obstructedBaseline
  | .ok content =>
    match Fingerprint.read (content.text?.getD "") with
    | .ok f => .ok f
    | .error .unreadable => .error .unreadableBaseline
    | .error (.wrongVersion version) => .error (.oldBaseline version)

/-- Compares a fingerprint with the baseline. -/
def compareBaseline (files : Workspace) (path : String) (f : Fingerprint) : Reply :=
  match readBaseline files path with
  | .error e => { files, failure := some e }
  | .ok baseline =>
    match baseline.drift f with
    | [] => { files, output := "fingerprint matches " ++ path ++ " " ++ classCount f }
    | issues => { files, output := lines issues, failure := some (.drifted issues.length path) }

/-- Writes the baseline, or compares the model with it. -/
def idsReply (s : Settings) (w : Surroundings) (flags : Reading) : Reply :=
  let given := (flags.value? "baseline").getD ""
  let path := if given = "" then s.report.fingerprint else given
  if path = "" then { files := w.files, failure := some .noBaseline }
  else
    let l := lowerSource s w
    match currentFingerprint l with
    | .error e => { files := l.files, log := l.log, failure := some (.run e) }
    | .ok f =>
      let reply :=
        if flags.isOn "write" then writeBaseline l.files path f
        else compareBaseline l.files path f
      { reply with log := l.log }

/-- Runs a command. -/
def Verb.reply (v : Verb) (s : Settings) (w : Surroundings) (flags : Reading) : Reply :=
  match v with
  | .generate => generateReply s w flags
  | .validate => validateReply s w
  | .ids => idsReply s w flags
  | .dump => dumpReply s w

/-! ## From arguments to a reply -/

/-- The text of the settings file. -/
def settingsText (files : Workspace) (path : String) : Option String :=
  match files.read (locationOf path) with
  | .ok content => content.text?
  | .error _ => none

/-- Settings with those that the command line overrides. -/
def overridden (s : Settings) (flags : Reading) : Settings :=
  { s with
    model := { s.model with path := (flags.value? "model").getD s.model.path }
    log := { s.log with level := (flags.value? "log-level").getD s.log.level } }

/-- Appends entries to the log file; there is none without entries. -/
def appendLog (files : Workspace) (path : String) (log : Log) : Workspace :=
  if path = "" ∨ log.isEmpty then files
  else
    let place := locationOf path
    let old := match files.read place with
      | .ok content => content.text?.getD ""
      | .error _ => ""
    match files.makeDirectory place.dropLast with
    | .error _ => files
    | .ok made =>
      match made.write place (.text (old ++ log.lines)) with
      | .ok files => files
      | .error _ => made

/-- The reply with the entries that are shown, each with the name of the command. -/
def Reply.logged (r : Reply) (s : LogSettings) (v : Verb) : Reply :=
  let log := (r.log.shown (.ofText s.level)).within "command" (.text v.name)
  { r with log, files := appendLog r.files s.file log }

/-- Runs the program on its arguments. -/
def execute (environment : Environment) (w : Surroundings) (arguments : List String) : Reply :=
  match parse arguments with
  | .error e => { files := w.files, failure := some (.arguments e) }
  | .ok .help => { files := w.files }
  | .ok (.run v flags) =>
    let path := (flags.value? "config").getD ""
    match load environment path (settingsText w.files path) with
    | .error e => { files := w.files, failure := some (.settings e) }
    | .ok s =>
      let s := overridden s flags
      (v.reply s w flags).logged s.log v

end ObjectLowering.Command
