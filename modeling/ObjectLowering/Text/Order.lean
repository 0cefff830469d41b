/-
  Sorted lists of texts.  Texts are ordered by code point, which is also the
  order of their UTF-8 encodings.
-/

namespace ObjectLowering.Text

/-- The texts in ascending order, repetitions kept. -/
def sortTexts (ts : List String) : List String :=
  ts.mergeSort fun a b => decide (a ≤ b)

/-- The distinct texts in ascending order. -/
def sortedSet (ts : List String) : List String := sortTexts ts.eraseDups

/-- Items in ascending order of a text key; items with equal keys keep their order. -/
def sortByKey {α : Type} (key : α → String) (items : List α) : List α :=
  items.mergeSort fun a b => decide (key a ≤ key b)

end ObjectLowering.Text
