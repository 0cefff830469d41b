/-
  Model documents as data values.

  A document is a record with the nodes under `elements`.  Field names match
  in any case; a name that no field has, or a value of the wrong shape, makes
  the document unreadable.  Numbers and booleans stand for their text where a
  text is wanted.

  A field may be given more than once, under names that differ in case.  What
  is given later is read into what was given before: texts are replaced,
  records and lists keep what is not given again, and `null` leaves all but
  lists and records of texts as they are.
-/
import ObjectLowering.Data.Slots
import ObjectLowering.Data.Yaml
import ObjectLowering.Model.Document

namespace ObjectLowering.Model

open Data (Value Slots)
open Data.Strict (Reader)

/-! ## Fields -/

/-- The text that a scalar stands for. -/
def scalarText : Reader String := fun old v =>
  match v with
  | .null => some old
  | .text s | .date s => some s
  | .bool b => some (if b then "true" else "false")
  | .int n => some (toString n)
  | .real x => some x.general
  | .list _ | .record _ => none

/-- A truth value. -/
def flag : Reader Bool := fun old v =>
  match v with
  | .null => some old
  | .bool b => some b
  | _ => none

/-- A record of texts, entered into the entries read before. -/
def textRecord : Reader (List (String × String)) := fun old v =>
  match v with
  | .null => some []
  | .record fs => fs.foldlM (fun es (name, x) =>
      (scalarText "" x).map fun s => Data.putEntry name s es) old
  | _ => none

/-- A parameter of an operation. -/
def parameter : Reader Parameter := fun old v =>
  match v with
  | .null => some old
  | .record fs => fs.foldlM (fun p (name, x) =>
      if Text.foldEq name "name" then (scalarText p.name x).map fun s => { p with name := s }
      else if Text.foldEq name "type" then (scalarText p.type x).map fun s => { p with type := s }
      else none) old
  | _ => none

/-! ## Nodes -/

/-- The fields of a node that is being read, and what lies behind the ends of its lists. -/
structure NodeDraft where
  fields : NodeFields := {}
  /-- What lies behind the ends of lists of texts, by the names of their fields. -/
  behind : List (String × List String) := []
  behindParameters : List Parameter := []

/-- How a field of a node is read. -/
abbrev FieldReader := String × Reader NodeDraft

/-- A field that holds a text. -/
def textField (name : String) (get : NodeFields → String)
    (set : NodeFields → String → NodeFields) : FieldReader :=
  (name, fun n v => (scalarText (get n.fields) v).map fun s => { n with fields := set n.fields s })

/-- A field that holds a truth value. -/
def flagField (name : String) (get : NodeFields → Bool)
    (set : NodeFields → Bool → NodeFields) : FieldReader :=
  (name, fun n v => (flag (get n.fields) v).map fun b => { n with fields := set n.fields b })

/-- A field that holds a list of texts. -/
def textsField (name : String) (get : NodeFields → List String)
    (set : NodeFields → List String → NodeFields) : FieldReader :=
  (name, fun n v =>
    let old : Slots String := ⟨get n.fields, (n.behind.lookup name).getD []⟩
    (Slots.reader scalarText "" old v).map fun s =>
      { n with fields := set n.fields s.items, behind := (name, s.behind) :: n.behind })

/-- The fields of a node. -/
def fieldReaders : List FieldReader := [
  textField "id" (·.id) fun n s => { n with id := s },
  textField "kind" (·.kind) fun n s => { n with kind := s },
  textField "name" (·.name) fun n s => { n with name := s },
  textField "stereotype" (·.stereotype) fun n s => { n with stereotype := s },
  ("tags", fun n v => (textRecord n.fields.tags v).map fun tags =>
    { n with fields := { n.fields with tags } }),
  flagField "abstract" (·.isAbstract) fun n b => { n with isAbstract := b },
  textField "base" (·.base) fun n s => { n with base := s },
  textsField "literals" (·.literals) fun n ss => { n with literals := ss },
  textsField "extends" (·.extend) fun n ss => { n with extend := ss },
  textsField "imports" (·.imports) fun n ss => { n with imports := ss },
  textField "visibility" (·.visibility) fun n s => { n with visibility := s },
  textField "type" (·.type) fun n s => { n with type := s },
  textField "typeName" (·.typeName) fun n s => { n with typeName := s },
  textField "multiplicity" (·.multiplicity) fun n s => { n with multiplicity := s },
  textField "aggregation" (·.aggregation) fun n s => { n with aggregation := s },
  flagField "derived" (·.isDerived) fun n b => { n with isDerived := b },
  textField "default" (·.default) fun n s => { n with default := s },
  textField "qualifier" (·.qualifier) fun n s => { n with qualifier := s },
  flagField "navigable" (·.isNavigable) fun n b => { n with isNavigable := b },
  textField "returns" (·.returns) fun n s => { n with returns := s },
  ("parameters", fun n v =>
    (Slots.reader parameter {} ⟨n.fields.parameters, n.behindParameters⟩ v).map fun s =>
      { n with fields := { n.fields with parameters := s.items }, behindParameters := s.behind }),
  flagField "query" (·.isQuery) fun n b => { n with isQuery := b },
  textField "general" (·.general) fun n s => { n with general := s },
  flagField "realization" (·.isRealization) fun n b => { n with isRealization := b },
  textField "supplier" (·.supplier) fun n s => { n with supplier := s },
  textField "pseudo" (·.pseudo) fun n s => { n with pseudo := s },
  flagField "final" (·.isFinal) fun n b => { n with isFinal := b },
  textsField "do" (·.activities) fun n ss => { n with activities := ss },
  textField "source" (·.source) fun n s => { n with source := s },
  textField "target" (·.target) fun n s => { n with target := s },
  textField "guard" (·.guard) fun n s => { n with guard := s },
  textsField "triggers" (·.triggers) fun n ss => { n with triggers := ss },
  textsField "actions" (·.actions) fun n ss => { n with actions := ss },
  textField "body" (·.body) fun n s => { n with body := s }]

/-- The reader of a field. -/
def fieldReader? (name : String) : Option (Reader NodeDraft) :=
  match fieldReaders.lookup name with
  | some f => some f
  | none => (fieldReaders.find? fun e => Text.foldEq e.1 name).map (·.2)

/-- A node that is being read: its fields, its children and what lies behind their end. -/
inductive Draft where
  | mk (fields : NodeDraft) (children behind : List Draft)

namespace Draft

mutual

/-- The node of a draft. -/
def node : Draft → Node
  | mk n children _ => .mk n.fields (nodes children)

/-- The nodes of drafts. -/
def nodes : List Draft → List Node
  | [] => []
  | n :: rest => n.node :: nodes rest

end

mutual

/-- Reads a node. -/
def read (old : Draft) : Value → Option Draft
  | .null => some old
  | .record fs => readFields old fs
  | _ => none

/-- Reads the fields of a node, in order. -/
def readFields : Draft → List (String × Value) → Option Draft
  | old, [] => some old
  | mk n children behind, (name, v) :: rest =>
    if Text.foldEq name "children" then
      match readList (children ++ behind) v with
      | some (children, behind) => readFields (mk n children behind) rest
      | none => none
    else
      match (fieldReader? name).bind fun f => f n v with
      | some n => readFields (mk n children behind) rest
      | none => none

/-- Reads a list of nodes into the places it had: its nodes, and what lies behind its end. -/
def readList (places : List Draft) : Value → Option (List Draft × List Draft)
  | .null | .list [] => some ([], [])
  | .list vs => readItems places vs
  | _ => none

/-- Reads nodes into places. -/
def readItems : List Draft → List Value → Option (List Draft × List Draft)
  | places, [] => some ([], places)
  | places, v :: rest =>
    match read (places.headD (mk {} [] [])) v, readItems places.tail rest with
    | some n, some (ns, behind) => some (n :: ns, behind)
    | _, _ => none

end

end Draft

/-- The node of a data value. -/
def Node.ofValue? (v : Value) : Option Node := ((Draft.mk {} [] []).read v).map Draft.node

/-- The document of a data value; `null` is the empty document. -/
def Document.ofValue? : Value → Option Document
  | .null => some {}
  | .record fs =>
    let nodes := fs.foldlM (fun (ns, behind) (name, v) =>
      if Text.foldEq name "model" then (scalarText "" v).map fun _ => (ns, behind)
      else if Text.foldEq name "elements" then Draft.readList (ns ++ behind) v
      else none) (([], []) : List Draft × List Draft)
    nodes.map fun (ns, _) => { nodes := Draft.nodes ns }
  | _ => none

/-- The document of a JSON or YAML text. -/
def Document.read? (text : String) : Option Document :=
  (Data.Yaml.read .classic text).bind Document.ofValue?

/-- Why a model text yields no registry: it cannot be read, or an element is refused. -/
inductive TextError where
  | unreadable
  | document (cause : DocumentError)

/-- The registry of a JSON or YAML text, not prepared. -/
def readModel (text : String) : Except TextError Registry :=
  match Document.read? text with
  | none => .error .unreadable
  | some d => match d.registry with
    | .ok r => .ok r
    | .error e => .error (.document e)

end ObjectLowering.Model
