/-
  Loading settings from a file and the environment.
-/
import ObjectLowering.Config.Layers
import ObjectLowering.Config.Weak
import ObjectLowering.Data.Dotenv
import ObjectLowering.Data.JsonReader
import ObjectLowering.Data.Toml
import ObjectLowering.Data.Yaml
import ObjectLowering.Text.Path

namespace ObjectLowering.Config

open Data Text

/-- Why settings cannot be loaded. -/
inductive LoadError where
  /-- There is no such file, or it cannot be read. -/
  | unreadable
  /-- A value has the wrong type. -/
  | mistyped
  | invalid (faults : List String)
deriving DecidableEq, Repr

/-- The text of the faults. -/
def faultsText (faults : List String) : String := String.intercalate "\n" faults

/-! ## Reading the file -/

mutual

/-- No number is too large for 64 bits. -/
def isRepresentable : Value → Bool
  | .real (.finite d) => d.toBinary?.isSome
  | .list vs => areRepresentable vs
  | .record fs => fieldsAreRepresentable fs
  | _ => true

/-- No number in a list is too large. -/
def areRepresentable : List Value → Bool
  | [] => true
  | v :: rest => isRepresentable v && areRepresentable rest

/-- No number in the fields of a record is too large. -/
def fieldsAreRepresentable : List (String × Value) → Bool
  | [] => true
  | (_, v) :: rest => isRepresentable v && fieldsAreRepresentable rest

end

/-- A document has to be a record; an empty one is the empty record. -/
def document : Value → Option Value
  | .record fs => some (.record fs)
  | .null => some (.record [])
  | _ => none

/-- The content of a file in the format that its ending tells. -/
def readFile? (environment : Environment) (path text : String) : Option Value :=
  match Path.extension path with
  | ".json" => ((Json.readFractions text).filter isRepresentable).bind document
  | ".yaml" | ".yml" => (Yaml.read .modern text).bind document
  | ".toml" => (Toml.read text).bind document
  | ".env" | ".dotenv" => Dotenv.read environment text
  | _ => none

/-! ## Typing the settings -/

/-- Reads a section: it is blank if it is missing, and otherwise has to be a record. A date counts
    as a record of other settings. -/
def readSection {α : Type} (tree : Value) (name : String) (blank : α) (read : Value → Option α) :
    Option α :=
  match tree.get name with
  | .null | .date _ => some blank
  | .record fs => read (.record fs)
  | _ => none

/-- Reads the settings of a bucket. -/
def readBucket (v : Value) : Option Artifact.BucketOptions := do
  return {
    bucket := ← Weak.text (v.get "bucket")
    region := ← Weak.text (v.get "region")
    endpoint := ← Weak.text (v.get "endpoint")
    accessKey := ← Weak.text (v.get "access_key_id")
    secretKey := ← Weak.text (v.get "secret_access_key")
    token := ← Weak.text (v.get "session_token")
    hasPathStyle := ← Weak.bool (v.get "path_style") }

/-- Trims the items of a list and drops the empty ones. -/
def compact (items : List String) : List String := (items.map trim).filter (· != "")

/-- Reads all settings. -/
def readSettings (v : Value) : Option Settings := do
  return {
    model := ← readSection v "model" {} fun v => do
      return {
        path := ← Weak.text (v.get "path")
        format := ← Weak.text (v.get "format")
        source := ← Weak.text (v.get "dsn")
        driver := ← Weak.text (v.get "driver") }
    lowering := ← readSection v "lowering" {} fun v => do
      return {
        scope := ← Weak.text (v.get "namespace")
        root := ← Weak.text (v.get "root")
        stateStem := ← Weak.text (v.get "state_prefix")
        runtimeHeader := ← Weak.text (v.get "runtime_header")
        classes := compact (← Weak.texts (v.get "classes")) }
    output := ← readSection v "output" {} fun v => do
      return {
        driver := ← Weak.text (v.get "driver")
        root := ← Weak.text (v.get "root")
        folder := ← Weak.text (v.get "prefix")
        overwrites := ← Weak.bool (v.get "overwrite")
        bucket := ← readSection v "s3" {} readBucket }
    schema := ← readSection v "initdb" {} fun v => do
      return {
        dialects := compact (← Weak.texts (v.get "dialects"))
        applySource := ← Weak.text (v.get "apply_dsn")
        applyDialect := ← Weak.text (v.get "apply_dialect") }
    report := ← readSection v "report" {} fun v => do
      return {
        hasContract := ← Weak.bool (v.get "contract")
        fingerprint := ← Weak.text (v.get "fingerprint") }
    log := ← readSection v "log" {} fun v => do
      return {
        file := ← Weak.text (v.get "file")
        maxSize := ← Weak.int (v.get "max_size")
        maxBackups := ← Weak.int (v.get "max_backups")
        maxAge := ← Weak.int (v.get "max_age")
        compresses := ← Weak.bool (v.get "compress")
        level := ← Weak.text (v.get "level")
        isDevelopment := ← Weak.bool (v.get "dev") }
    metricsFile := ← readSection v "metrics" "" fun v => Weak.text (v.get "textfile") }

/-- The settings of layers, if they are valid. -/
def Layers.settings (l : Layers) : Except LoadError Settings :=
  match readSettings l.value with
  | none => .error .mistyped
  | some s => if s.faults.isEmpty then .ok s else .error (.invalid s.faults)

/-- Loads settings; `text` is the content of the file at `path`, if there is one. An empty path
    stands for no file. -/
def load (environment : Environment) (path : String) (text : Option String) :
    Except LoadError Settings :=
  if path = "" then { environment : Layers }.settings
  else match text.bind (readFile? environment path) with
    | none => .error .unreadable
    | some v => { environment, file := lowerNames v : Layers }.settings

end ObjectLowering.Config
