/-
  File trees: directories and files by location.

  A location is the list of names on the way from the root.  A tree answers
  like a file system: an operation fails when a place is missing, or when a
  file stands where a directory is needed or the other way round.
-/
import ObjectLowering.Text.Path

namespace ObjectLowering.Files

/-- The names on the way from the root. -/
abbrev Location := List String

/-- The location of a path; climbing above the root stays there. -/
def locationOf (path : String) : Location :=
  (Text.Path.segments path).filter (· != "..")

/-- What stands at a location. -/
inductive Node (α : Type) where
  | directory
  | file (content : α)
deriving DecidableEq, Repr

/-- Why an operation on a tree fails. -/
inductive Fault where
  | missing
  /-- Something of the wrong kind stands in the way. -/
  | obstructed
deriving DecidableEq, Repr

/-- The nodes of a tree by location; the root itself is not listed. -/
structure Tree (α : Type) where
  nodes : List (Location × Node α) := []
deriving DecidableEq, Repr

/-- The locations above a location, from the root on. -/
def ancestors (p : Location) : List Location := (List.range p.length).map fun n => p.take n

/-- A location lies below another. -/
def isBelow (p ancestor : Location) : Bool := ancestor.length < p.length && ancestor.isPrefixOf p

namespace Tree

variable {α : Type}

/-- The node at a location. -/
def node? (t : Tree α) (p : Location) : Option (Node α) :=
  if p = [] then some .directory else t.nodes.lookup p

/-- A file stands at a location. -/
def isFile (t : Tree α) (p : Location) : Bool :=
  match t.node? p with
  | some (.file _) => true
  | _ => false

/-- What stands at a location; a file on the way is an obstruction. -/
def status (t : Tree α) (p : Location) : Except Fault (Node α) :=
  if (ancestors p).any t.isFile then .error .obstructed
  else match t.node? p with
    | some n => .ok n
    | none => .error .missing

/-- The content of a file. -/
def read (t : Tree α) (p : Location) : Except Fault α :=
  match t.status p with
  | .ok (.file c) => .ok c
  | .ok .directory => .error .obstructed
  | .error f => .error f

/-- Puts a node at a location, in place of the one there. -/
def set (t : Tree α) (p : Location) (n : Node α) : Tree α :=
  { nodes := (p, n) :: t.nodes.filter fun x => x.1 != p }

/-- Makes a directory, with all directories above it. -/
def makeDirectory (t : Tree α) (p : Location) : Except Fault (Tree α) :=
  if (ancestors p ++ [p]).any t.isFile then .error .obstructed
  else .ok ((ancestors p ++ [p]).foldl
    (fun t q => if (t.node? q).isSome then t else t.set q .directory) t)

/-- Writes a file into a directory that exists, over a file that is there. -/
def write (t : Tree α) (p : Location) (c : α) : Except Fault (Tree α) :=
  match t.status p with
  | .ok (.file _) => .ok (t.set p (.file c))
  | .ok .directory | .error .obstructed => .error .obstructed
  | .error .missing =>
    match t.status p.dropLast with
    | .ok .directory => .ok (t.set p (.file c))
    | .ok (.file _) => .error .obstructed
    | .error f => .error f

/-- Removes a file or an empty directory. -/
def remove (t : Tree α) (p : Location) : Except Fault (Tree α) :=
  match t.status p with
  | .error f => .error f
  | .ok _ =>
    if p = [] ∨ t.nodes.any fun x => isBelow x.1 p then .error .obstructed
    else .ok { nodes := t.nodes.filter fun x => x.1 != p }

/-- The files below a location: their way from there and their contents. -/
def filesBelow (t : Tree α) (p : Location) : List (Location × α) :=
  t.nodes.filterMap fun (q, n) =>
    match n with
    | .file c => if isBelow q p then some (q.drop p.length, c) else none
    | .directory => none

end Tree

end ObjectLowering.Files
