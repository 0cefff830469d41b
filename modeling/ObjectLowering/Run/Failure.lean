/-
  Why a run fails.
-/
import ObjectLowering.Artifact.Writer
import ObjectLowering.Lowering.Batch
import ObjectLowering.Model.DocumentReader
import ObjectLowering.Model.Repository
import ObjectLowering.Schema.Deployment
import ObjectLowering.Schema.Script

namespace ObjectLowering.Run

open Model Lowering Artifact Schema Files

/-- Why a run fails. -/
inductive Failure where
  | noModelPath
  | unreadableModel (path : String) (fault : Fault)
  | refusedModel (path : String) (cause : TextError)
  | repository (cause : RepositoryError)
  /-- The model has diagnostics that are errors. -/
  | invalidModel (errors : List Diagnostic)
  /-- Classes failed, or lowering was cancelled. -/
  | lowering (failures : List LowerError) (wasCanceled : Bool)
  | noOutput (cause : OpenError)
  | notWritten (cause : WriteError)
  | schema (cause : SchemaError)
  | notDeployed (cause : DeployError)
  | noCounterFile

/-- The words for a fault of the files. -/
def faultText : Fault → String
  | .missing => "no such file or directory"
  | .obstructed => "not a directory"

/-- The text of why a model text is refused. -/
def textErrorMessage : TextError → String
  | .unreadable => "unreadable document"
  | .document cause => cause.message

/-- The text of a failure. -/
def Failure.message : Failure → String
  | noModelPath => "model.path required"
  | unreadableModel path fault =>
    "read model " ++ path ++ ": open " ++ path ++ ": " ++ faultText fault
  | refusedModel path cause => "decode model " ++ path ++ ": " ++ textErrorMessage cause
  | repository cause => cause.message
  | invalidModel errors =>
    "model has errors: " ++ String.intercalate "; " (errors.map Diagnostic.text)
  | lowering failures wasCanceled => failuresMessage failures wasCanceled
  | noOutput cause => "open output: " ++ cause.message
  | notWritten cause => cause.message
  | schema cause => cause.message
  | notDeployed cause => "apply init ddl: " ++ cause.message
  | noCounterFile => "write metrics: storage failure"

end ObjectLowering.Run
