/-
  The settings of a run.

  The structures start out blank; what a setting is when nobody says
  anything is data of its own, in `defaultSettings`.
-/
import ObjectLowering.Artifact.Sink
import ObjectLowering.Artifact.SourceFile
import ObjectLowering.Data.Value

namespace ObjectLowering.Config

open Data Text Artifact

/-- Where the model comes from. -/
structure ModelSettings where
  path : String := ""
  /-- `json`, `yaml` or `ea`; empty goes by the path. -/
  format : String := ""
  /-- The source of a model repository, instead of a path. -/
  source : String := ""
  driver : String := ""
deriving DecidableEq, Repr

/-- How classes are lowered. -/
structure LoweringSettings where
  scope : String := ""
  root : String := ""
  stateStem : String := ""
  runtimeHeader : String := ""
  /-- The classes to write; all if empty. -/
  classes : List String := []
deriving DecidableEq, Repr

/-- Where the results go. -/
structure OutputSettings where
  driver : String := ""
  root : String := ""
  folder : String := ""
  overwrites : Bool := false
  bucket : BucketOptions := {}
deriving DecidableEq, Repr

/-- The database schema. -/
structure SchemaSettings where
  dialects : List String := []
  /-- The database that gets the script of one dialect. -/
  applySource : String := ""
  applyDialect : String := ""
deriving DecidableEq, Repr

/-- The reports. -/
structure ReportSettings where
  hasContract : Bool := false
  fingerprint : String := ""
deriving DecidableEq, Repr

/-- The log. -/
structure LogSettings where
  file : String := ""
  maxSize : Int := 0
  maxBackups : Int := 0
  maxAge : Int := 0
  compresses : Bool := false
  level : String := ""
  isDevelopment : Bool := false
deriving DecidableEq, Repr

/-- All settings. -/
structure Settings where
  model : ModelSettings := {}
  lowering : LoweringSettings := {}
  output : OutputSettings := {}
  schema : SchemaSettings := {}
  report : ReportSettings := {}
  log : LogSettings := {}
  /-- The file for the counters of a run. -/
  metricsFile : String := ""
deriving DecidableEq, Repr

/-- What a setting is unless it is given. -/
def defaultSettings : List (String × Value) := [
  ("model.path", .text ""), ("model.format", .text ""), ("model.dsn", .text ""),
  ("model.driver", .text ""), ("lowering.namespace", .text ""), ("lowering.root", .text "ATTR"),
  ("lowering.state_prefix", .text "STATE"), ("lowering.runtime_header", .text "sim/runtime.h"),
  ("lowering.classes", .list []), ("output.driver", .text "fs"), ("output.root", .text "gen"),
  ("output.prefix", .text ""), ("output.overwrite", .bool false),
  ("output.s3.bucket", .text ""), ("output.s3.region", .text ""), ("output.s3.endpoint", .text ""),
  ("output.s3.access_key_id", .text ""), ("output.s3.secret_access_key", .text ""),
  ("output.s3.session_token", .text ""), ("output.s3.path_style", .bool false),
  ("initdb.dialects", .list []), ("initdb.apply_dsn", .text ""), ("initdb.apply_dialect", .text ""),
  ("report.contract", .bool true), ("report.fingerprint", .text ""), ("log.file", .text ""),
  ("log.max_size", .int 10), ("log.max_backups", .int 3), ("log.max_age", .int 7),
  ("log.compress", .bool false), ("log.level", .text "info"), ("log.dev", .bool false),
  ("metrics.textfile", .text "")]

namespace Settings

/-! ## Validity -/

/-- What is wrong with the settings. -/
def faults (s : Settings) : List String :=
  (if ["", "json", "yaml", "ea"].contains s.model.format then []
    else ["model.format " ++ quote s.model.format ++ ": want json, yaml or ea"]) ++
  (if ["fs", "s3", "memory"].contains s.output.driver then []
    else ["output.driver " ++ quote s.output.driver ++ ": want fs, s3 or memory"]) ++
  (if s.output.driver = "s3" ∧ s.output.bucket.bucket = "" then
    ["output.s3.bucket required for the s3 driver"] else []) ++
  (if s.schema.applySource ≠ "" ∧ s.schema.applyDialect = "" then
    ["initdb.apply_dialect required with initdb.apply_dsn"] else []) ++
  if isBlankText s.lowering.root then ["lowering.root must not be empty"] else []

/-! ## What follows from settings -/

/-- The store that the settings ask for. -/
def sink (s : Settings) : SinkOptions :=
  { driver := s.output.driver, root := s.output.root, bucket := s.output.bucket }

/-- The layout of the generated files. -/
def layout (s : Settings) : Layout :=
  { scope := s.lowering.scope, runtimeHeader := s.lowering.runtimeHeader
    folder := s.output.folder, overwrites := s.output.overwrites }

/-- The format of the model: as given, or by the source and the ending of the path. -/
def modelFormat (s : Settings) : String :=
  let path := toLower s.model.path
  if s.model.format ≠ "" then s.model.format
  else if s.model.source ≠ "" then "ea"
  else if endsWith path ".json" then "json"
  else if [".qea", ".eadb", ".db"].any (endsWith path) then "ea"
  else "yaml"

end Settings

end ObjectLowering.Config
