/-
  A store in a bucket that is reached over the network.

  The bucket lower-cases the names of metadata, knows no digests, and lists
  keys and sizes only.  Bodies travel as one chunk with a check behind it; a
  body that holds a line end of the chunk format is kept as it travelled.
-/
import ObjectLowering.Artifact.MemoryStore
import ObjectLowering.Digest.Crc
import ObjectLowering.Text.Base64
import ObjectLowering.Text.Markup
import ObjectLowering.Text.Order

namespace ObjectLowering.Artifact

open Text Data

/-- How a bucket is reached. -/
structure BucketOptions where
  bucket : String := ""
  region : String := ""
  endpoint : String := ""
  accessKey : String := ""
  secretKey : String := ""
  token : String := ""
  /-- The bucket is part of the path, not of the host. -/
  hasPathStyle : Bool := false
deriving DecidableEq, Repr

/-- A bucket: the address below which its keys lie, and what it holds. -/
structure BucketStore where
  base : String
  /-- Nothing but addresses can be had of a bucket out of reach. -/
  isReachable : Bool := true
  objects : List (String × Stored) := []
deriving DecidableEq, Repr

/-! ## Addresses -/

/-- A lower-case letter, a digit or a hyphen. -/
def isLabelChar (c : Char) : Bool := c.isLower || c.isDigit || c == '-'

/-- The name of a bucket can be a label of a host. -/
def isHostLabel (name : String) : Bool :=
  let cs := name.toList
  3 ≤ cs.length && cs.length ≤ 63 && cs.all isLabelChar

/-- The region that an empty one stands for. -/
def defaultRegion : String := "us-east-1"

/-- The address below which the keys of a bucket lie. -/
def BucketOptions.base (o : BucketOptions) : String :=
  let host := "s3." ++ (if o.region = "" then defaultRegion else o.region) ++ ".amazonaws.com"
  if o.endpoint ≠ "" then trimEnd (· == '/') o.endpoint ++ "/" ++ o.bucket ++ "/"
  else if !o.hasPathStyle && isHostLabel o.bucket then "https://" ++ o.bucket ++ "." ++ host ++ "/"
  else "https://" ++ host ++ "/" ++ escape isKeyChar o.bucket ++ "/"

/-! ## Transfer -/

/-- The lower-case hexadecimal digits of a number without leading zeros. -/
def hexText (n : Nat) : String := String.ofList (Nat.toDigits 16 n)

/-- A body as the one chunk of a transfer. -/
def chunk (body : String) : String :=
  hexText body.utf8ByteSize ++ "\r\n" ++ body ++ "\r\n0\r\nx-amz-checksum-crc32:" ++
    base64 (Digest.bytesOfWord32 (Digest.crc32 body.toUTF8)) ++ "\r\n\r\n"

/-- What arrives of a body: a chunk is taken for its body unless a line end stands in it. -/
def received (body : String) : String := if holds body "\r\n" then chunk body else body

/-- The properties that a bucket keeps: values come back without blanks around them. -/
def keptProperties (p : Properties) : Properties :=
  { contentType := if p.contentType = "" then "application/octet-stream" else trim p.contentType
    metadata := entriesOf ((p.metadata.filter fun m => m.2 != "").map fun (k, v) =>
      (toLower (trim k), trim v)) }

/-- The lifetime of links in seconds unless another is asked for. -/
def defaultLifetime : Int := 900

namespace BucketStore

/-- The artifact of a key. Nothing can be asked of the empty key. -/
def get (s : BucketStore) (key : String) : Except StoreError Stored :=
  if key = "" ∨ !s.isReachable then .error .backend
  else match s.objects.lookup key with
    | some o => .ok o
    | none => .error (.notFound key)

/-- The description of the artifact of a key. -/
def head (s : BucketStore) (key : String) : Except StoreError Info := (s.get key).map (·.info)

/-- Stores an artifact. -/
def put (s : BucketStore) (u : Upload) : Except StoreError (BucketStore × Info) :=
  if isBlankText u.key then .error .emptyKey
  else if !s.isReachable then .error .backend
  else if (s.objects.lookup u.key).isSome ∧ !u.overwrites then .error (.taken u.key)
  else match u.body with
    | .error _ => .error .backend
    | .ok body =>
      let content := received body
      let info : Info := { keptProperties u.properties with
        key := u.key, size := content.utf8ByteSize }
      .ok ({ s with objects := putEntry u.key { info, content } s.objects }, info)

/-- Removes the artifact of a key, and tells whether there was one. -/
def delete (s : BucketStore) (key : String) : BucketStore × Except StoreError Bool :=
  match s.get key with
  | .ok _ => ({ s with objects := s.objects.filter fun o => o.1 != key }, .ok true)
  | .error (.notFound _) => (s, .ok false)
  | .error e => (s, .error e)

/-- The artifacts whose keys start with a text, in ascending order of keys. A listing is a markup
    document in which the keys stand as they are, so they come back as markup reads them. -/
def list (s : BucketStore) (front : String) : Except StoreError (List Info) :=
  let found := s.objects.filter fun o => startsWith o.1 front
  let shown := found.mapM fun (key, o) =>
    (Markup.text? key).map fun key => ({ key, size := o.info.size } : Info)
  match shown with
  | some infos => if s.isReachable then .ok (sortByKey (·.key) infos) else .error .backend
  | none => .error .backend

/-- A link to a key, whether or not there is an artifact. -/
def link (s : BucketStore) (r : LinkRequest) : Except StoreError Link :=
  if !r.isReading then .error .unsupported
  else if r.key = "" then .error .backend
  else .ok {
    url := s.base ++ escape isKeyChar r.key
    lifetime := some (if r.lifetime ≤ 0 then defaultLifetime else r.lifetime) }

end BucketStore

end ObjectLowering.Artifact
