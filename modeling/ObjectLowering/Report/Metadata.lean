/-
  The metadata block of a contract: a summary of every class that tools can
  read, in a comment at the end of the document.
-/
import ObjectLowering.Data.JsonPrinter
import ObjectLowering.Data.JsonReader
import ObjectLowering.Data.Strict
import ObjectLowering.Lowering.CodeUnit
import ObjectLowering.Text.Parts

namespace ObjectLowering.Report

open Data Lowering Text

/-- The summary of one class. -/
structure ClassSummary where
  family : String := ""
  ids : Int := 0
  references : List String := []
  events : List String := []
  diagnostics : Int := 0
deriving DecidableEq, Repr

/-- The content of a metadata block. -/
structure Metadata where
  generator : String := ""
  version : Int := 0
  classes : Option (List (String × ClassSummary)) := none
deriving DecidableEq, Repr

/-- The version that is written. -/
def metadataVersion : Int := 1

/-- The summary of a unit. -/
def ClassSummary.ofUnit (u : CodeUnit) : ClassSummary :=
  { family := u.family.name, ids := u.ids.length, references := u.references.map (·.key)
    events := u.events, diagnostics := u.diagnostics.length }

namespace Metadata

/-- The metadata of units; of two units with one name the later counts. -/
def ofUnits (units : List CodeUnit) : Metadata :=
  { generator := "simgen", version := metadataVersion
    classes := some (entriesOf (units.map fun u => (u.name, .ofUnit u))) }

/-- The names of the classes in ascending order. -/
def names (m : Metadata) : List String := (m.classes.getD []).map (·.1)

/-! ## Writing -/

/-- A field with a list of texts; an empty list is left out. -/
def listField (name : String) (ts : List String) : List (String × Value) :=
  if ts.isEmpty then [] else [(name, .texts ts)]

/-- A summary as data. -/
def summaryValue (c : ClassSummary) : Value :=
  .record ([("family", .text c.family), ("ids", .int c.ids)] ++
    listField "references" c.references ++ listField "events" c.events ++
    [("diagnostics", .int c.diagnostics)])

/-- Metadata as data. -/
def toValue (m : Metadata) : Value :=
  .record [("generator", .text m.generator), ("version", .int m.version),
    ("classes", match m.classes with
      | none => .null
      | some cs => .record (cs.map fun (name, c) => (name, summaryValue c)))]

/-- What a block starts with. -/
def blockStart : String := "<!--\nCONTRACT-METADATA\n"

/-- What a block ends with. -/
def blockEnd : String := "\n-->\n"

/-- The block. Written texts never hold `>`, so nothing inside ends it. -/
def block (m : Metadata) : String :=
  blockStart ++ Json.printIndented "" m.toValue ++ blockEnd

/-! ## Reading -/

/-- Reads a summary. -/
def summaryReader : Strict.Reader ClassSummary :=
  Strict.record [
    ("family", fun c v => (Strict.text c.family v).map fun family => { c with family }),
    ("ids", fun c v => (Strict.int c.ids v).map fun ids => { c with ids }),
    ("references", fun c v =>
      (Strict.texts c.references v).map fun references => { c with references }),
    ("events", fun c v => (Strict.texts c.events v).map fun events => { c with events }),
    ("diagnostics", fun c v =>
      (Strict.int c.diagnostics v).map fun diagnostics => { c with diagnostics })]

/-- Reads metadata. -/
def reader : Strict.Reader Metadata :=
  Strict.record [
    ("generator", fun m v =>
      (Strict.text m.generator v).map fun generator => { m with generator }),
    ("version", fun m v => (Strict.int m.version v).map fun version => { m with version }),
    ("classes", fun m v =>
      (Strict.entries summaryReader {} m.classes v).map fun classes => { m with classes })]

/-- Why a document has no metadata. -/
inductive ReadError where
  | notFound
  | notTerminated
  | unreadable
deriving DecidableEq, Repr

/-- The text of an error about the block itself. -/
def ReadError.message : ReadError → String
  | notFound => "contract metadata block not found"
  | notTerminated => "contract metadata block not terminated"
  | unreadable => "parse contract metadata"

/-- The metadata of a document: the last block counts. -/
def read (document : String) : Except ReadError Metadata :=
  match cutLast? blockStart.toList document.toList with
  | none => .error .notFound
  | some (_, rest) =>
    match cutFirst? blockEnd.toList rest with
    | none => .error .notTerminated
    | some (body, _) =>
      match (Json.read (String.ofList body)).bind (reader {}) with
      | none => .error .unreadable
      | some m => .ok m

end Metadata

end ObjectLowering.Report
