/-
  Sidecars: descriptions of artifacts in files of their own.
-/
import ObjectLowering.Artifact.Store
import ObjectLowering.Data.JsonPrinter
import ObjectLowering.Data.JsonReader
import ObjectLowering.Data.Strict

namespace ObjectLowering.Artifact

open Data

/-- What is kept about an artifact in a file beside it. -/
structure Sidecar extends Properties where
  etag : String := ""
  size : Int := 0
deriving DecidableEq, Repr

namespace Sidecar

/-- The sidecar of a description. -/
def ofInfo (i : Info) : Sidecar := { i.toProperties with etag := i.etag, size := i.size }

/-- The description of the artifact with a key and an address. -/
def info (s : Sidecar) (key url : String) : Info :=
  { s.toProperties with key, size := s.size.toNat, etag := s.etag, url }

/-- A sidecar as data; what is empty is left out. -/
def toValue (s : Sidecar) : Value :=
  .record ((if s.contentType = "" then [] else [("content_type", .text s.contentType)]) ++
    (if s.metadata.isEmpty then []
      else [("metadata", .record (s.metadata.map fun (k, v) => (k, .text v)))]) ++
    [("etag", .text s.etag), ("size", .int s.size)])

/-- The text of a sidecar. -/
def render (s : Sidecar) : String := Json.printIndented "" s.toValue

/-- Reads the fields of a sidecar. -/
def reader : Strict.Reader Sidecar :=
  Strict.record [
    ("content_type", fun s v =>
      (Strict.text s.contentType v).map fun contentType => { s with contentType }),
    ("metadata", fun s v =>
      (Strict.entries Strict.text "" (some s.metadata) v).map fun m =>
        { s with metadata := m.getD [] }),
    ("etag", fun s v => (Strict.text s.etag v).map fun etag => { s with etag }),
    ("size", fun s v => (Strict.int s.size v).map fun size => { s with size }),
    ("created_at", fun s v => (Strict.text "" v).map fun _ => s),
    ("updated_at", fun s v => (Strict.text "" v).map fun _ => s)]

/-- Reads the text of a sidecar. -/
def read (text : String) : Option Sidecar := (Json.read text).bind (reader {})

end Sidecar

end ObjectLowering.Artifact
