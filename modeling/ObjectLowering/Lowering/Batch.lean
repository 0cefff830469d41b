/-
  Lowering all classifiers of a registry.

  A class that fails does not stop the batch, cancellation does.  A batch
  records an observation per lowered class; cancellation is a predicate on
  the observations made so far.
-/
import ObjectLowering.Lowering.Lower

namespace ObjectLowering.Lowering

open Model Text

/-- What is observed of one class: its counters, or its failure. -/
structure Observation where
  className : String
  outcome : Except LowerError Stats

namespace Observation

/-- The class failed. -/
def hasFailed (o : Observation) : Bool :=
  match o.outcome with
  | .ok _ => false
  | .error _ => true

/-- The counters; zero when the class failed. -/
def stats (o : Observation) : Stats :=
  match o.outcome with
  | .ok s => s
  | .error _ => {}

end Observation

/-- When a batch is cancelled, by what was observed so far. -/
abbrev Cancellation := List Observation → Bool

namespace Cancellation

/-- The batch runs to its end. -/
def never : Cancellation := fun _ => false

/-- Cancelled from the start. -/
def fromStart : Cancellation := fun _ => true

/-- Cancelled by the first class that fails. -/
def onFailure : Cancellation := fun os => os.any (·.hasFailed)

end Cancellation

/-- The state of a batch. -/
structure Batch where
  ids : IdTable := {}
  units : List CodeUnit := []
  failures : List LowerError := []
  observed : List Observation := []
  wasCanceled : Bool := false

/-- The text of failures, one a line, and of a cancellation after them. -/
def failuresMessage (failures : List LowerError) (wasCanceled : Bool) : String :=
  String.intercalate "\n"
    (failures.map LowerError.message ++ if wasCanceled then ["context canceled"] else [])

/-- Classifiers with code of their own: not primitive, and with a name. -/
def isEligible (c : Classifier) : Bool := c.kind != .primitiveType && !isBlankText c.name

namespace Batch

/-- Lowers one more class. -/
def step (r : Registry) (stems : Stems) (b : Batch) (c : Classifier) : Batch :=
  match lowerClass r stems b.ids c with
  | (ids, .ok u) => { b with
      ids, units := b.units ++ [u]
      observed := b.observed ++ [{ className := c.name, outcome := .ok u.stats }] }
  | (ids, .error e) => { b with
      ids, failures := b.failures ++ [e]
      observed := b.observed ++ [{ className := c.name, outcome := .error e }] }

/-- Lowers classifiers in order until the batch is cancelled. -/
def run (r : Registry) (stems : Stems) (cancel : Cancellation) (b : Batch) :
    List Classifier → Batch
  | [] => b
  | c :: rest =>
    if cancel b.observed then { b with wasCanceled := true }
    else if isEligible c then (b.step r stems c).run r stems cancel rest
    else b.run r stems cancel rest

/-- The batch has an error to report. -/
def hasFailed (b : Batch) : Bool := b.wasCanceled || !b.failures.isEmpty

/-- The text of all failures. -/
def message (b : Batch) : String := failuresMessage b.failures b.wasCanceled

end Batch

/-- Lowers all classifiers of a prepared registry with a given id table. -/
def lowerAll (r : Registry) (stems : Stems) (ids : IdTable) (cancel : Cancellation) : Batch :=
  Batch.run r stems cancel { ids } r.classifiers

end ObjectLowering.Lowering
