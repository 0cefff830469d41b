/-
  Validating a model: everything preparation reports as an error, and the
  structural rules that lowering relies on.

  * `isCyclic` searches the bases of a classifier for one that is already on
    the path from the classifier down to it.
  * `levelProblems` checks the vertices of one machine or state, then those
    nested inside.
  * `problems` lists all violations, sorted; `validate` joins them into one
    message.
-/
import ObjectLowering.Model.Prepare
import ObjectLowering.Text.Order

namespace ObjectLowering.Model

open Text (quote)

namespace Registry

/-- Following bases from a classifier, at most `depth` steps, leads back to a classifier on the
    path. -/
def isCyclicFrom (r : Registry) : Nat → List String → String → Bool
  | 0, path, id => path.contains id
  | depth + 1, path, id =>
    path.contains id || (r.bases id).any fun b => r.isCyclicFrom depth (id :: path) b.id

/-- Following bases from a classifier leads into a cycle. A path without repetition is no longer
    than the number of classifiers. -/
def isCyclic (r : Registry) (id : String) : Bool :=
  r.isCyclicFrom (r.classifiers.length + 1) [] id

/-- The names in a list that stand there a second time or later. -/
def repeated : List String → List String → List String
  | _, [] => []
  | seen, n :: rest =>
    if seen.contains n then n :: repeated seen rest else repeated (n :: seen) rest

/-- A pseudostate of a given kind. -/
def isPseudo (k : PseudoKind) : VertexTree → Bool
  | .pseudo p => p.pseudoKind == k
  | .state _ _ => false

/-- The line that says how many pseudostates of one kind a level has, if it has several. -/
def countProblems (path noun : String) (count : Nat) : List String :=
  if 1 < count then [quote path ++ " has " ++ toString count ++ " " ++ noun ++ " pseudostates"]
  else []

mutual

/-- The violations of one vertex of the level `path`, and of what is nested in it. -/
def vertexProblems (r : Registry) (path : String) : VertexTree → List String
  | .pseudo p =>
    if p.pseudoKind == .initial && (r.owned p.id).outgoing.isEmpty then
      ["initial pseudostate of " ++ quote path ++ " has no outgoing transition"]
    else []
  | .state s children =>
    let full := path ++ "." ++ s.name
    (if s.isFinal && !(r.owned s.id).outgoing.isEmpty then
      ["final state " ++ quote full ++ " has outgoing transitions"] else []) ++
    (if s.isFinal && !children.isEmpty then
      ["final state " ++ quote full ++ " has nested states"] else []) ++
    (vertexListProblems r full children ++
      countProblems full "initial" (children.countP (isPseudo .initial)) ++
      countProblems full "history" (children.countP (isPseudo .shallowHistory)))

/-- The violations of the vertices of the level `path`. -/
def vertexListProblems (r : Registry) (path : String) : List VertexTree → List String
  | [] => []
  | v :: rest => vertexProblems r path v ++ vertexListProblems r path rest

end

/-- The violations of a level and of the levels nested in it. -/
def levelProblems (r : Registry) (path : String) (vs : List VertexTree) : List String :=
  vertexListProblems r path vs ++
    countProblems path "initial" (vs.countP (isPseudo .initial)) ++
    countProblems path "history" (vs.countP (isPseudo .shallowHistory))

/-- The violations of one classifier. -/
def classifierProblems (r : Registry) (c : Classifier) : List String :=
  let owned := r.owned c.id
  (if c.kind = .enumeration ∧ c.literals = [] then
    ["enumeration " ++ quote c.name ++ " must declare at least one literal"] else []) ++
  (if c.kind = .primitiveType ∧ Text.isBlankText c.aliasBase then
    ["primitive type " ++ quote c.name ++ " must declare an alias base"] else []) ++
  ((repeated [] (owned.attributes.map (·.name))).map fun n =>
    "classifier " ++ quote c.name ++ " declares attribute " ++ quote n ++ " twice") ++
  (if r.isCyclic c.id then
    ["classifier " ++ quote c.name ++ " generalizes itself"] else []) ++
  owned.machines.flatMap fun m => r.levelProblems m.name (r.machineTrees m.id)

/-- All violations of a prepared model, sorted. -/
def problems (r : Registry) : List String :=
  Text.sortTexts <|
    ((r.diagnostics.filter (·.severity == .error)).map fun d =>
      d.code.text ++ " " ++ d.element ++ ": " ++ d.message) ++
    r.classifiers.flatMap r.classifierProblems

/-- The violations in one message, or nothing for a valid model. The registry is prepared first. -/
def validate (r : Registry) : Option String :=
  match r.prepare.problems with
  | [] => none
  | ps => some (String.intercalate "; " ps)

end Registry

end ObjectLowering.Model
