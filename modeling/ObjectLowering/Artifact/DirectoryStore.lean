/-
  A store in a directory: every artifact is a file, with its description in a
  sidecar beside it.

  An artifact exists when its sidecar can be read.  Storing makes the
  directories on the way first, then replaces the file, then the sidecar; a
  step that fails leaves the earlier ones done.
-/
import ObjectLowering.Files.Content
import ObjectLowering.Text.Escape
import ObjectLowering.Text.Order

namespace ObjectLowering.Artifact

open Text Files

/-- The files, and the directory below which artifacts are kept. -/
structure DirectoryStore where
  files : Workspace
  root : String

/-- The root that an empty one stands for. -/
def defaultRoot : String := "./generated"

/-- The cleaned form of a key that stays below the root and names no sidecar. -/
def storageKey (key : String) : Except StoreError String :=
  if isBlankText key then .error .emptyKey
  else if holds key ".." then .error .climbingKey
  else if startsWith key "/" then .error .absoluteKey
  else if endsWith (Path.clean key) sidecarEnding then .error .sidecarKey
  else .ok (Path.clean key)

/-- Where an artifact and its sidecar are kept. -/
structure Places where
  data : Location
  sidecar : Location
deriving DecidableEq, Repr

/-- The places of a cleaned key below a root. -/
def placesOf (root key : String) : Places :=
  let path := Path.join root key
  { data := locationOf path, sidecar := locationOf (path ++ sidecarEnding) }

namespace DirectoryStore

/-- A store below a root, which is made if needed. -/
def start (files : Workspace) (root : String) : Except StoreError DirectoryStore :=
  let root := if root = "" then defaultRoot else root
  match files.makeDirectory (locationOf root) with
  | .ok files => .ok { files, root }
  | .error _ => .error .backend

/-- The places of a key. -/
def places (s : DirectoryStore) (key : String) : Except StoreError Places :=
  (storageKey key).map (placesOf s.root)

/-- The address of a key. -/
def url (s : DirectoryStore) (key : String) : String :=
  "file://" ++ escapePath (Path.join s.root key)

/-- The sidecar at a location. -/
def sidecarAt (s : DirectoryStore) (p : Location) : Except Fault Sidecar :=
  match s.files.read p with
  | .ok c =>
    match c.sidecar? with
    | some x => .ok x
    | none => .error .obstructed
  | .error f => .error f

/-- How a fault of the files shows to someone who asks for a key. -/
def faultError (key : String) : Fault → StoreError
  | .missing => .notFound key
  | .obstructed => .backend

/-- The description of the artifact of a key. -/
def head (s : DirectoryStore) (key : String) : Except StoreError Info := do
  let p ← s.places key
  let x ← (s.sidecarAt p.sidecar).mapError (faultError key)
  return x.info key (s.url key)

/-- The artifact of a key. -/
def get (s : DirectoryStore) (key : String) : Except StoreError (Info × String) := do
  let info ← s.head key
  let p ← s.places key
  let c ← (s.files.read p.data).mapError (faultError key)
  match c.text? with
  | some content => return (info, content)
  | none => throw .backend

/-- Replaces the file and the sidecar of an artifact. -/
def replace (s : DirectoryStore) (p : Places) (u : Upload) (content : String) :
    DirectoryStore × Except StoreError Info :=
  let cleared := if u.overwrites then
      match s.files.remove p.data with
      | .ok files => files
      | .error _ => s.files
    else s.files
  match cleared.write p.data (.text content) with
  | .error _ => ({ s with files := cleared }, .error .backend)
  | .ok files =>
    let info := { describe u content with url := s.url u.key }
    match files.write p.sidecar (.sidecar (.ofInfo info)) with
    | .error _ => ({ s with files }, .error .backend)
    | .ok files => ({ s with files }, .ok info)

/-- Stores an artifact. -/
def put (s : DirectoryStore) (u : Upload) : DirectoryStore × Except StoreError Info :=
  match s.places u.key with
  | .error e => (s, .error e)
  | .ok p =>
    if (s.sidecarAt p.sidecar).isOk ∧ !u.overwrites then (s, .error (.taken u.key))
    else match s.files.makeDirectory p.data.dropLast with
      | .error _ => (s, .error .backend)
      | .ok files =>
        match u.body with
        | .error cause => ({ s with files }, .error (.unreadable cause))
        | .ok content =>
          if u.isCanceled then ({ s with files }, .error .canceled)
          else { s with files }.replace p u content

/-- Removes the artifact of a key, and tells whether there was one. -/
def delete (s : DirectoryStore) (key : String) : DirectoryStore × Except StoreError Bool :=
  match s.places key with
  | .error e => (s, .error e)
  | .ok p =>
    match s.files.status p.data, s.files.remove p.data with
    | .error .missing, _ => (s, .ok false)
    | _, .error _ => (s, .error .backend)
    | _, .ok files =>
      match files.remove p.sidecar with
      | .ok files => ({ s with files }, .ok true)
      | .error _ => ({ s with files }, .ok true)

/-- The key that a sidecar below the root describes. -/
def keyOfSidecar? (p : Location) : Option String :=
  let name := String.intercalate "/" p
  if endsWith name sidecarEnding then
    some (String.ofList (name.toList.take (name.length - sidecarEnding.length)))
  else none

/-- The artifacts whose keys start with a text, in ascending order of keys. -/
def list (s : DirectoryStore) (front : String) : Except StoreError (List Info) :=
  match s.files.status (locationOf s.root) with
  | .error .missing => .ok []
  | .error .obstructed | .ok (.file _) => .error .backend
  | .ok .directory => do
    let found := (s.files.filesBelow (locationOf s.root)).filterMap fun (p, c) =>
      ((keyOfSidecar? p).filter fun key => startsWith key front).map fun key => (key, c)
    let infos ← found.mapM fun (key, c) =>
      match c.sidecar? with
      | some x => .ok (x.info key (s.url key))
      | none => .error .backend
    return sortByKey (·.key) infos

/-- A link to a key, whether or not there is an artifact. -/
def link (s : DirectoryStore) (r : LinkRequest) : Except StoreError Link :=
  if !r.isReading then .error .unsupported
  else (s.places r.key).map fun _ => { url := s.url r.key }

end DirectoryStore

end ObjectLowering.Artifact
