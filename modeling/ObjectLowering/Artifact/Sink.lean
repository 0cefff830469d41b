/-
  The sink of a run: one of the stores, chosen by name.
-/
import ObjectLowering.Artifact.BucketStore
import ObjectLowering.Artifact.DirectoryStore

namespace ObjectLowering.Artifact

open Files

/-- A store. -/
inductive Sink where
  | memory (s : MemoryStore)
  | directory (s : DirectoryStore)
  | bucket (s : BucketStore)

/-- Which store to open. -/
structure SinkOptions where
  /-- `fs`, `s3` or `memory`; empty selects `fs`. -/
  driver : String := ""
  root : String := ""
  bucket : BucketOptions := {}
deriving DecidableEq, Repr

/-- Why a store cannot be opened. -/
inductive OpenError where
  | unknownDriver (name : String)
  | noBucket
  /-- The root directory cannot be made: a file stands in the way. -/
  | noRoot (obstacle : String)
deriving DecidableEq, Repr

/-- The text of an error. -/
def OpenError.message : OpenError → String
  | unknownDriver name => "unknown blob driver " ++ name
  | noBucket => "s3 bucket required"
  | noRoot obstacle => "mkdir " ++ obstacle ++ ": not a directory"

/-- The shortest front of a path that leads to a file. -/
def obstacle (files : Workspace) (path : String) : String :=
  let segments := Text.Path.segments path
  let fronts := (List.range segments.length).map fun n => segments.take (n + 1)
  Text.Path.ofSegments (Text.Path.isRooted path) ((fronts.find? files.isFile).getD segments)

namespace Sink

/-- Opens a store; the files are those of the workspace. -/
def start (files : Workspace) (o : SinkOptions) : Except OpenError Sink :=
  match o.driver with
  | "" | "fs" =>
    match DirectoryStore.start files o.root with
    | .ok s => .ok (.directory s)
    | .error _ => .error (.noRoot (obstacle files o.root))
  | "s3" =>
    if o.bucket.bucket = "" then .error .noBucket
    else .ok (.bucket { base := o.bucket.base, isReachable := false })
  | "memory" => .ok (.memory {})
  | name => .error (.unknownDriver name)

/-- The name of the store. -/
def driver : Sink → String
  | memory _ => "memory"
  | directory _ => "fs"
  | bucket _ => "s3"

/-- Stores an artifact. -/
def put (s : Sink) (u : Upload) : Sink × Except StoreError Info :=
  match s with
  | memory m =>
    match m.put u with
    | .ok (m, info) => (memory m, .ok info)
    | .error e => (s, .error e)
  | directory d =>
    let (d, r) := d.put u
    (directory d, r)
  | bucket b =>
    match b.put u with
    | .ok (b, info) => (bucket b, .ok info)
    | .error e => (s, .error e)

/-- The artifact of a key. -/
def get (s : Sink) (key : String) : Except StoreError (Info × String) :=
  match s with
  | memory m => (m.get key).map fun o => (o.info, o.content)
  | directory d => d.get key
  | bucket b => (b.get key).map fun o => (o.info, o.content)

/-- The description of the artifact of a key. -/
def head (s : Sink) (key : String) : Except StoreError Info :=
  match s with
  | memory m => m.head key
  | directory d => d.head key
  | bucket b => b.head key

/-- Removes the artifact of a key, and tells whether there was one. -/
def delete (s : Sink) (key : String) : Sink × Except StoreError Bool :=
  match s with
  | memory m =>
    let (m, found) := m.delete key
    (memory m, .ok found)
  | directory d =>
    let (d, r) := d.delete key
    (directory d, r)
  | bucket b =>
    let (b, r) := b.delete key
    (bucket b, r)

/-- The artifacts whose keys start with a text, in ascending order of keys. -/
def list (s : Sink) (front : String) : Except StoreError (List Info) :=
  match s with
  | memory m => .ok (m.list front)
  | directory d => d.list front
  | bucket b => b.list front

/-- A link to a key. -/
def link (s : Sink) (r : LinkRequest) : Except StoreError Link :=
  match s with
  | memory m => m.link r
  | directory d => d.link r
  | bucket b => b.link r

/-- The workspace after the work on the store. -/
def workspace (s : Sink) (files : Workspace) : Workspace :=
  match s with
  | directory d => d.files
  | memory _ | bucket _ => files

end Sink

end ObjectLowering.Artifact
