/-
  Layering rules: which import paths a layer must not name.
-/
import ObjectLowering.Text.Parts

namespace ObjectLowering.Layering

open Text

/-- The path lies at a root or below it. -/
def isWithin (root path : String) : Bool := path == root || startsWith path (root ++ "/")

/-- The path ends in one of the packages, or goes on below one. -/
def namesPackage (packages : List String) (path : String) : Bool :=
  packages.any fun p => endsWith path ("/" ++ p) || holds path ("/" ++ p ++ "/")

/-- The path names a storage backend. -/
def namesBackend (path : String) : Bool := holds path "/internal/infra/"

/-- The roots of database drivers and of storage clients. -/
def driverRoots : List String :=
  ["github.com/jackc/pgx", "modernc.org/sqlite", "github.com/aws/aws-sdk-go-v2"]

/-- The path names a database driver or a storage client. -/
def namesDriver (path : String) : Bool := driverRoots.any fun root => isWithin root path

end ObjectLowering.Layering
