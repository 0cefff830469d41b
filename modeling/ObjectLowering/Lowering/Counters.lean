/-
  Counters over the classes of a batch.

  A labelled series exists once it was touched; the number of collisions and
  the number of classes always exist.
-/
import ObjectLowering.Lowering.Batch

namespace ObjectLowering.Lowering

/-- The counters of a run. -/
structure Counters where
  succeeded : Nat := 0
  failed : Nat := 0
  collisions : Nat := 0
  items : Stats := {}
deriving DecidableEq, Repr

namespace Counters

/-- Counters plus those of one class. -/
def addStats (a b : Stats) : Stats :=
  { features := a.features + b.features, references := a.references + b.references
    machines := a.machines + b.machines, ids := a.ids + b.ids
    diagnostics := a.diagnostics + b.diagnostics }

/-- Counts one class. Every failure of a class is a collision. -/
def observe (c : Counters) (o : Observation) : Counters :=
  match o.outcome with
  | .ok s => { c with succeeded := c.succeeded + 1, items := addStats c.items s }
  | .error _ => { c with failed := c.failed + 1, collisions := c.collisions + 1 }

/-- The counters of a list of observations. -/
def ofObservations (os : List Observation) : Counters := os.foldl observe {}

/-- The number of classes. -/
def classes (c : Counters) : Nat := c.succeeded + c.failed

/-- The counters of items by kind. -/
def itemSeries (c : Counters) : List (String × Nat) :=
  if c.succeeded = 0 then []
  else [("diagnostic", c.items.diagnostics), ("feature", c.items.features), ("id", c.items.ids),
    ("reference", c.items.references), ("state_machine", c.items.machines)]

/-- The counters of classes by result. -/
def classSeries (c : Counters) : List (String × Nat) :=
  (if c.failed = 0 then [] else [("error", c.failed)]) ++
  if c.succeeded = 0 then [] else [("success", c.succeeded)]

/-- The name of a labelled series. -/
def seriesName (name label value : String) : String :=
  name ++ "\x7b" ++ label ++ "=" ++ value ++ "\x7d"

/-- All series with their values. -/
def snapshot (c : Counters) : List (String × Nat) :=
  c.classSeries.map (fun (v, n) => (seriesName "simgen_classes_lowered_total" "result" v, n)) ++
  [("simgen_id_collisions_total", c.collisions)] ++
  c.itemSeries.map (fun (v, n) => (seriesName "simgen_lowered_items_total" "kind" v, n)) ++
  [("simgen_lowering_duration_seconds", c.classes)]

end Counters

end ObjectLowering.Lowering
