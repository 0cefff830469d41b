/-
  Which names a TOML document has used, and for what.

  A name can be given a value once, and a table can be opened by a header
  once.  Tables that come about on the way to a name are open to more names
  until they get a header of their own; those on the way of a dotted key are
  closed by the next header.
-/

namespace ObjectLowering.Data.Toml

/-- What a name stands for. -/
inductive Use where
  | value
  | table
  /-- A table that is one of several under its name. -/
  | tables
deriving DecidableEq, Repr

/-- A name that was used, with the names below it. -/
inductive Outline where
  | mk (use : Use) (isClosed isDotted : Bool) (names : List (String × Outline))

namespace Outline

/-- What the name stands for. -/
def use : Outline → Use
  | mk u _ _ _ => u

/-- No dotted key may add to the table, and no header may open it. -/
def isClosed : Outline → Bool
  | mk _ closed _ _ => closed

/-- The names below. -/
def names : Outline → List (String × Outline)
  | mk _ _ _ names => names

/-- The outline with other names below. -/
def withNames : Outline → List (String × Outline) → Outline
  | mk u closed dotted _, names => mk u closed dotted names

/-- The outline of a document without names. -/
def empty : Outline := mk .table false false []

/-- Changes the entry of a name, which may be missing. -/
def changeName (name : String) (f : Option Outline → Option Outline) :
    List (String × Outline) → Option (List (String × Outline))
  | [] => (f none).map fun o => [(name, o)]
  | (n, o) :: rest =>
    if n = name then (f (some o)).map fun o => (name, o) :: rest
    else (changeName name f rest).map ((n, o) :: ·)

/-- Changes the entry at the end of a way; `step` gives the entry on the way that goes on. -/
def changeAt (step : Option Outline → Option Outline) (last : Option Outline → Option Outline) :
    List String → Option Outline → Option Outline
  | [], o => last o
  | name :: rest, o =>
    (step o).bind fun o =>
      (changeName name (changeAt step last rest) o.names).map o.withNames

mutual

/-- Closes the tables of dotted keys. -/
def closeDotted : Outline → Outline
  | mk u closed dotted names => mk u (closed || dotted) false (closeDottedIn names)

/-- Closes the tables of dotted keys below names. -/
def closeDottedIn : List (String × Outline) → List (String × Outline)
  | [] => []
  | (name, o) :: rest => (name, o.closeDotted) :: closeDottedIn rest

end

/-- A table on the way of a header: any that is there, or a new one. -/
def headerStep : Option Outline → Option Outline
  | none => some (mk .table false false [])
  | some o => if o.use = .value then none else some o

/-- Ends the part of the document that belongs to the table at a way. -/
def endTable (way : List String) (o : Outline) : Option Outline :=
  changeAt headerStep (fun o => o.map fun o => o.withNames (closeDottedIn o.names)) way (some o)

/-- Opens the table of a header. -/
def openTable (way : List String) (o : Outline) : Option Outline :=
  changeAt headerStep (fun
    | none => some (mk .table true false [])
    | some (mk u closed dotted names) =>
      if u = .table ∧ !closed then some (mk u true dotted names) else none) way (some o)

/-- Opens one more table under the name of a header. -/
def addTable (way : List String) (o : Outline) : Option Outline :=
  changeAt headerStep (fun
    | none => some (mk .tables true false [])
    | some (mk u closed dotted _) =>
      if u = .tables then some (mk u closed dotted []) else none) way (some o)

/-- A table on the way of a dotted key: one that is not closed, or a new one. -/
def dottedStep : Option Outline → Option Outline
  | none => some (mk .table false true [])
  | some o => if o.use = .table ∧ !o.isClosed then some o else none

/-- Gives the name at the end of a key a value, below the table at a way. -/
def assign (table key : List String) (o : Outline) : Option Outline :=
  let value : Option Outline → Option Outline := fun
    | none => some (mk .value false true [])
    | some _ => none
  let inTable : Option Outline → Option Outline := fun
    | none => none
    | some o =>
      match key with
      | [] => none
      | name :: rest =>
        (changeName name (changeAt dottedStep value rest) o.names).map o.withNames
  changeAt headerStep inTable table (some o)

end Outline

end ObjectLowering.Data.Toml
