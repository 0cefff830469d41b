/-
  What the stores of artifacts have in common: what is put into them, what
  they tell about it, and why they refuse.
-/
import ObjectLowering.Digest.Sha
import ObjectLowering.Text.Blank
import ObjectLowering.Text.Casing

namespace ObjectLowering.Artifact

open Text

/-- The properties of a stored artifact that its writer chooses. -/
structure Properties where
  contentType : String := ""
  /-- Entries by name, in ascending order. -/
  metadata : List (String × String) := []
deriving DecidableEq, Repr

/-- A description of a stored artifact. -/
structure Info extends Properties where
  key : String
  /-- The size in bytes. -/
  size : Nat
  /-- A digest of the content. -/
  etag : String := ""
  url : String := ""
deriving DecidableEq, Repr

/-- An artifact on its way into a store. -/
structure Upload where
  key : String
  /-- The content, or the fault that reading it meets. -/
  body : Except String String
  properties : Properties := {}
  /-- An artifact that exists is replaced. -/
  overwrites : Bool := false
  /-- The work was cancelled before. -/
  isCanceled : Bool := false

/-- Why a store refuses. -/
inductive StoreError where
  | emptyKey
  /-- The key could leave the store. -/
  | climbingKey
  | absoluteKey
  /-- The key names the description of an artifact. -/
  | sidecarKey
  | taken (key : String)
  | notFound (key : String)
  | unsupported
  /-- The content could not be read. -/
  | unreadable (cause : String)
  | canceled
  /-- The medium failed. -/
  | backend
deriving DecidableEq, Repr

/-- The ending of descriptions that are kept beside the artifacts. -/
def sidecarEnding : String := ".meta"

/-- The text of an error. -/
def StoreError.message : StoreError → String
  | emptyKey => "empty key"
  | climbingKey => "invalid key contains '..'"
  | absoluteKey => "invalid absolute key"
  | sidecarKey => "invalid key suffix " ++ sidecarEnding
  | taken key => "blob " ++ key ++ ": blobstore: already exists"
  | notFound key => "blob " ++ key ++ ": blobstore: not found"
  | unsupported => "blobstore: unsupported operation"
  | unreadable cause => cause
  | canceled => "context canceled"
  | backend => "storage failure"

/-- A request for a link to an artifact. -/
structure LinkRequest where
  key : String
  method : String := ""
  /-- The lifetime in seconds; the default unless it is positive. -/
  lifetime : Int := 0
deriving DecidableEq, Repr

/-- The request asks for reading, which is all that links offer. -/
def LinkRequest.isReading (r : LinkRequest) : Bool := r.method == "" || toUpper r.method == "GET"

/-- A link to an artifact. -/
structure Link where
  url : String
  /-- The lifetime in seconds of a link that expires. -/
  lifetime : Option Int := none
deriving DecidableEq, Repr

/-- The digest of a content. -/
def contentDigest (content : String) : String := Digest.sha256Hex content

/-- The description of a content. -/
def describe (u : Upload) (content : String) : Info :=
  { u.properties with
    key := u.key, size := content.utf8ByteSize, etag := contentDigest content }

end ObjectLowering.Artifact
