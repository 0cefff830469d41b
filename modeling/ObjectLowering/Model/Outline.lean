/-
  A readable outline of every classifier of a model.
-/
import ObjectLowering.Model.Registry

namespace ObjectLowering.Model.Registry

/-- The name of a referenced element, or the reference behind a question mark. -/
def nameOr (found : Option Identity) (id : String) : String :=
  match found with
  | some x => x.name
  | none => "?" ++ id

/-- A heading and its lines, or nothing when there are no lines. -/
def titled (heading : String) (lines : List String) : List String :=
  if lines.isEmpty then [] else heading :: lines

/-- The outline of an attribute or association end. -/
def outlineFeature (r : Registry) (f : Feature) : String :=
  let t := f.typed
  let type := if t.type = "" then t.typeName
    else nameOr ((r.classifier? t.type).map (·.toIdentity)) t.type
  let aggregation := match t.aggregation with
    | .unset | .none => ""
    | a => " " ++ a.text
  let q := f.qualifier
  let key := if q.isZero then "" else " \x7b" ++ q.name ++ ":" ++ q.keyType ++ "\x7d"
  "  - " ++ f.name ++ ": " ++ type ++ " [" ++ t.multiplicity.text ++ "]" ++ aggregation ++ key ++
    (if t.isDerived then " derived" else "")

/-- The outline of a transition. -/
def outlineTransition (r : Registry) (indent : String) (t : Transition) : String :=
  let triggers := t.triggers.map fun e => nameOr ((r.event? e).map (·.toIdentity)) e
  indent ++ "  -> " ++ nameOr ((r.vertex? t.target).map (·.identity)) t.target ++
    (if triggers.isEmpty then "" else " on " ++ String.intercalate "," triggers) ++
    (if t.guard = "" then "" else " [" ++ t.guard ++ "]")

mutual

/-- The outline of a vertex, its transitions and what is nested in it. -/
def outlineVertex (r : Registry) (indent : String) : VertexTree → List String
  | .state s children =>
    (indent ++ "- state " ++ s.name ++ (if s.isFinal then " final" else "") ++
      (if s.hasHistory then " history" else "")) ::
    (r.owned s.id).outgoing.map (r.outlineTransition indent) ++
    outlineVertices r (indent ++ "  ") children
  | .pseudo p =>
    (indent ++ "- " ++ p.pseudoKind.text ++ " " ++ p.name) ::
    (r.owned p.id).outgoing.map (r.outlineTransition indent)

/-- The outline of a list of vertices. -/
def outlineVertices (r : Registry) (indent : String) : List VertexTree → List String
  | [] => []
  | v :: rest => outlineVertex r indent v ++ outlineVertices r indent rest

end

/-- The outline of an operation. -/
def outlineOperation (o : Operation) : String :=
  "  - " ++ o.name ++ "(" ++
    String.intercalate ", " (o.parameters.map fun p => p.name ++ " " ++ p.type) ++ ") " ++ o.returns

/-- The outline of a classifier. -/
def outlineClassifier (r : Registry) (c : Classifier) : List String :=
  let owned := r.owned c.id
  [(Kind.classifier c.kind).name ++ " " ++ c.name ++ " (" ++ c.id ++ ")"] ++
  (if c.stereotype = "" then [] else ["  stereotype: " ++ c.stereotype]) ++
  (match c.kind with
    | .primitiveType => ["  alias: " ++ c.aliasBase]
    | .enumeration => ["  literals: " ++ String.intercalate ", " c.literals]
    | _ => []) ++
  titled "  generalizations:" (owned.generalizations.map fun g =>
    "  - " ++ nameOr ((r.classifier? g.general).map (·.toIdentity)) g.general) ++
  titled "  dependencies:" (owned.dependencies.map fun d =>
    "  - " ++ nameOr ((r.classifier? d.supplier).map (·.toIdentity)) d.supplier ++
      " <<" ++ d.stereotype ++ ">>") ++
  titled "  attributes:" (owned.attributes.map fun a => r.outlineFeature (.attribute a)) ++
  titled "  association ends:" (owned.ends.map fun e => r.outlineFeature (.associationEnd e)) ++
  titled "  operations:" (owned.operations.map outlineOperation) ++
  owned.machines.flatMap fun m =>
    ("  state machine " ++ m.name ++ ":") :: outlineVertices r "  " (r.machineTrees m.id)

/-- The outline of all classifiers, every line ended by a line feed. -/
def outline (r : Registry) : String :=
  String.join ((r.classifiers.flatMap r.outlineClassifier).map (· ++ "\n"))

end ObjectLowering.Model.Registry
