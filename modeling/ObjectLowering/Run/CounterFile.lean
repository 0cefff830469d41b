/-
  The counters of a run as a text: a family of series at a time, each with a
  help line and a type line.  A family without series is left out.
-/
import ObjectLowering.Lowering.Counters
import ObjectLowering.Text.Quoted

namespace ObjectLowering.Run

open Lowering

/-- A family of series: the text behind the name of each series, and its value. -/
structure SeriesFamily where
  name : String
  help : String
  type : String
  series : List (String × Nat)

/-- The lines of a family. -/
def SeriesFamily.text (f : SeriesFamily) : String :=
  if f.series.isEmpty then ""
  else "# HELP " ++ f.name ++ " " ++ f.help ++ "\n# TYPE " ++ f.name ++ " " ++ f.type ++ "\n" ++
    String.join (f.series.map fun (tail, n) => f.name ++ tail ++ " " ++ toString n ++ "\n")

/-- Series that carry a label. -/
def labelled (label : String) (series : List (String × Nat)) : List (String × Nat) :=
  series.map fun (value, n) => ("\x7b" ++ label ++ "=" ++ Text.quote value ++ "\x7d", n)

/-- The families of counters in ascending order of names. Times are not measured, so the last has
    the number of classes only. -/
def families (c : Counters) : List SeriesFamily := [
  { name := "simgen_classes_lowered_total", type := "counter"
    help := "Classes lowered, partitioned by result."
    series := labelled "result" c.classSeries },
  { name := "simgen_id_collisions_total", type := "counter"
    help := "Classes aborted because two feature keys hashed to the same id."
    series := [("", c.collisions)] },
  { name := "simgen_lowered_items_total", type := "counter"
    help := "Items produced by lowering, partitioned by kind."
    series := labelled "kind" c.itemSeries },
  { name := "simgen_lowering_duration_seconds", type := "histogram"
    help := "Time spent lowering a single class."
    series := [("_count", c.classes)] }]

/-- The text of counters. -/
def counterText (c : Counters) : String := String.join ((families c).map SeriesFamily.text)

end ObjectLowering.Run
