/-
  The contract of the generated classes: a document with one table of ids
  per class and the metadata block at its end.
-/
import ObjectLowering.Lowering.Lower
import ObjectLowering.Report.Metadata

namespace ObjectLowering.Report

open Model Lowering Text

/-- What an id stands for. -/
inductive RowKind where
  | attribute
  | associationEnd
  | state
  | nested
deriving DecidableEq, Repr

/-- The name of a kind. -/
def RowKind.name : RowKind → String
  | .attribute => "attribute"
  | .associationEnd => "end"
  | .state => "state"
  | .nested => "nested"

/-- One addressable feature of a class. -/
structure ContractRow where
  key : String
  id : UInt64
  kind : RowKind
  shape : String := "-"
  category : String := "-"
  type : String := "-"
deriving DecidableEq, Repr

/-- The row of a member. -/
def memberRow (e : IdEntry) (m : Member) : ContractRow :=
  { key := e.key, id := e.id
    kind := if m.feature.isEnd then .associationEnd else .attribute
    shape := m.storage.shape.name, category := m.category.name, type := m.storage.type }

/-- The row of a state variable. -/
def stateRow (e : IdEntry) : ContractRow :=
  { key := e.key, id := e.id, kind := .state
    shape := Shape.scalar.name, category := Category.int.name, type := "uint64_t" }

/-- The row of an id. A key of no member is that of a state variable if it has its prefix. -/
def rowOf (members : List Member) (stateStem : String) (e : IdEntry) : ContractRow :=
  match members.reverse.find? fun m => m.key == e.key with
  | some m => memberRow e m
  | none =>
    if startsWith e.key (stateStem ++ "_") then stateRow e
    else { key := e.key, id := e.id, kind := .nested }

/-- The ids of a unit in the order of allocation; an empty state prefix selects the default. -/
def rows (u : CodeUnit) (stateText : String) : List ContractRow :=
  u.ids.map (rowOf u.data (if stateText = "" then defaultStateStem else stateText))

/-! ## The document -/

/-- A text as inline code. -/
def inlineCode (s : String) : String := "`" ++ s ++ "`"

/-- A row of the table. -/
def ContractRow.line (r : ContractRow) : String :=
  "| " ++ String.intercalate " | " [inlineCode r.key, inlineCode (formatId r.id), r.kind.name,
    r.shape, r.category, inlineCode (replaceChar '|' "\\|" r.type)] ++ " |\n"

/-- The table of a class. -/
def rowsText (rs : List ContractRow) : String :=
  if rs.isEmpty then "_No addressable features._\n\n"
  else "| Key | Id | Kind | Shape | Category | Type |\n" ++
    "| --- | --- | --- | --- | --- | --- |\n" ++ String.join (rs.map ContractRow.line) ++ "\n"

/-- The events of a class. -/
def eventsText (events : List String) : String :=
  if events.isEmpty then ""
  else "**Events:** " ++ String.intercalate ", " (events.map inlineCode) ++ "\n\n"

/-- The diagnostics of a class. -/
def diagnosticsText (ds : List Diagnostic) : String :=
  if ds.isEmpty then ""
  else "**Diagnostics:**\n\n" ++ String.join (ds.map fun d => "- " ++ d.text ++ "\n") ++ "\n"

/-- The part of the document on one class. -/
def unitText (stateText : String) (u : CodeUnit) : String :=
  "## " ++ u.name ++ "\n\n**Family:** " ++ u.family.name ++ "\n\n" ++
    rowsText (rows u stateText) ++ eventsText u.events ++ diagnosticsText u.diagnostics

/-- The title, or the default for a blank one. -/
def contractTitle (title : String) : String :=
  if isBlankText title then "Feature Contract" else trim title

/-- The contract of units. -/
def contract (title stateText : String) (units : List CodeUnit) : String :=
  "<!-- Code generated by simgen. DO NOT EDIT. -->\n# " ++ contractTitle title ++ "\n\n" ++
    (if units.isEmpty then "_No classes generated._\n\n" else "") ++
    String.join (units.map (unitText stateText)) ++ (Metadata.ofUnits units).block

end ObjectLowering.Report
