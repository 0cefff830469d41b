/-
  What the files of a workspace hold.
-/
import ObjectLowering.Artifact.Sidecar
import ObjectLowering.Files.Tree
import ObjectLowering.Model.Repository

namespace ObjectLowering.Files

open Artifact

/-- The content of a file: a text, the description of an artifact, or the tables of a model
    repository. -/
inductive Content where
  | text (s : String)
  | sidecar (s : Sidecar)
  | tables (t : Model.Tables)

/-- The text of a content; tables have none. -/
def Content.text? : Content → Option String
  | text s => some s
  | sidecar s => some s.render
  | tables _ => none

/-- The sidecar that a content holds. -/
def Content.sidecar? : Content → Option Sidecar
  | text s => Sidecar.read s
  | sidecar s => some s
  | tables _ => none

/-- A tree of such files. -/
abbrev Workspace := Tree Content

end ObjectLowering.Files
