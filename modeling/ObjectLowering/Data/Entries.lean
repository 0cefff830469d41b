/-
  Named entries in ascending order of their names, each name once.
-/

namespace ObjectLowering.Data

/-- Enters a value under a name, in place of the one it had. -/
def putEntry {α : Type} (name : String) (value : α) : List (String × α) → List (String × α)
  | [] => [(name, value)]
  | (n, v) :: rest =>
    if name = n then (name, value) :: rest
    else if name < n then (name, value) :: (n, v) :: rest
    else (n, v) :: putEntry name value rest

/-- The entries of a list of pairs; of two pairs with one name the later counts. -/
def entriesOf {α : Type} (pairs : List (String × α)) : List (String × α) :=
  pairs.foldl (fun es (n, v) => putEntry n v es) []

end ObjectLowering.Data
