/-
  Writing files into a sink.
-/
import ObjectLowering.Artifact.Sink
import ObjectLowering.Artifact.SourceFile

namespace ObjectLowering.Artifact

/-- Why writing stops. -/
inductive WriteError where
  | canceled
  | refused (key : String) (cause : StoreError)
deriving DecidableEq, Repr

/-- The text of an error. -/
def WriteError.message : WriteError → String
  | canceled => "context canceled"
  | refused key cause => "write " ++ key ++ ": " ++ cause.message

/-- What became of writing files: the artifacts in order, and what stopped it. -/
structure Written where
  sink : Sink
  infos : List Info := []
  failure : Option WriteError := none

/-- Stores a content under the key of a name. -/
def Layout.store (l : Layout) (sink : Sink) (isCanceled : Bool) (name content : String)
    (p : Properties) : Sink × Except WriteError Info :=
  let key := l.key name
  let (sink, r) := sink.put {
    key, body := .ok content, properties := p, overwrites := l.overwrites, isCanceled }
  (sink, r.mapError (.refused key))

/-- The properties of a generated file. -/
def SourceFile.properties (f : SourceFile) : Properties :=
  { contentType := f.contentType
    metadata := [("class", f.className), ("generator", "simgen")] }

/-- Stores files in order up to the first that is refused. -/
def Layout.writeFiles (l : Layout) (isCanceled : Bool) (w : Written) : List SourceFile → Written
  | [] => w
  | f :: rest =>
    if isCanceled then { w with failure := some .canceled }
    else match l.store w.sink isCanceled f.name f.content f.properties with
      | (sink, .ok info) => l.writeFiles isCanceled { w with sink, infos := w.infos ++ [info] } rest
      | (sink, .error e) => { w with sink, failure := some e }

/-- Stores one more content, such as a report. -/
def Layout.writeExtra (l : Layout) (isCanceled : Bool) (sink : Sink)
    (name contentType content : String) : Sink × Except WriteError Info :=
  l.store sink isCanceled name content
    { contentType, metadata := [("generator", "simgen")] }

end ObjectLowering.Artifact
