/-
  The order of the rows of a repository.

  Every table is read in the order of its sort columns.  Where numbers tell
  its rows apart, nothing depends on the order in which they are stored.

  * `cells_sortRows`: sorted tables with the same rows agree in their sort
    columns, row by row.
  * `Loader.sorted_bind`: so they differ at most in rows without a number,
    which no reader looks into.
  * `load_rearranged`: hence the import of a repository gives the same
    registry, or fails in the same way, for any order of its rows.
-/
import Mathlib.Data.List.Forall2
import Mathlib.Data.List.Pairwise
import ObjectLowering.Model.Repository

namespace ObjectLowering.Model

/-! ## The order of cells -/

theorem Cell.le_total (a b : Cell) : (a.le b || b.le a) = true := by
  cases a <;> cases b <;> simp [Cell.le, Std.le_total]

theorem Cell.le_trans {a b c : Cell} (h : a.le b = true) (h' : b.le c = true) :
    a.le c = true := by
  cases a <;> cases b <;> cases c <;> simp_all [Cell.le]
  · omega
  · exact Std.le_trans h h'

theorem Cell.le_antisymm {a b : Cell} (h : a.le b = true) (h' : b.le a = true) : a = b := by
  cases a <;> cases b <;> simp_all [Cell.le]
  · omega
  · exact Std.le_antisymm h h'

/-- Cells are compared one after the other; the first that differ decide. -/
def cellsLe : List Cell → List Cell → Bool
  | [], _ => true
  | _ :: _, [] => false
  | a :: as, b :: bs => if a = b then cellsLe as bs else a.le b

theorem cellsLe_total (as bs : List Cell) : (cellsLe as bs || cellsLe bs as) = true := by
  induction as generalizing bs with
  | nil => rfl
  | cons a as ih =>
    cases bs with
    | nil => rfl
    | cons b bs =>
      by_cases h : a = b
      · simpa [cellsLe, h] using ih bs
      · simpa [cellsLe, h, Ne.symm h] using a.le_total b

theorem cellsLe_antisymm {as bs : List Cell} (h : cellsLe as bs = true)
    (h' : cellsLe bs as = true) : as = bs := by
  induction as generalizing bs with
  | nil =>
    cases bs with
    | nil => rfl
    | cons b bs => cases h'
  | cons a as ih =>
    cases bs with
    | nil => cases h
    | cons b bs =>
      by_cases he : a = b
      · subst he
        rw [cellsLe, if_pos rfl] at h h'
        rw [ih h h']
      · rw [cellsLe, if_neg he] at h
        rw [cellsLe, if_neg (Ne.symm he)] at h'
        exact absurd (Cell.le_antisymm h h') he

theorem cellsLe_trans {as bs cs : List Cell} (h : cellsLe as bs = true)
    (h' : cellsLe bs cs = true) : cellsLe as cs = true := by
  induction as generalizing bs cs with
  | nil => rfl
  | cons a as ih =>
    cases bs with
    | nil => cases h
    | cons b bs =>
      cases cs with
      | nil => cases h'
      | cons c cs =>
        by_cases hab : a = b
        · subst hab
          by_cases hac : a = c
          · rw [cellsLe, if_pos hac] at h' ⊢
            rw [cellsLe, if_pos rfl] at h
            exact ih h h'
          · rw [cellsLe, if_neg hac] at h' ⊢
            exact h'
        · rw [cellsLe, if_neg hab] at h
          by_cases hbc : b = c
          · subst hbc
            rw [cellsLe, if_neg hab]
            exact h
          · rw [cellsLe, if_neg hbc] at h'
            have hac : a ≠ c := fun he => hab (Cell.le_antisymm h (he ▸ h'))
            rw [cellsLe, if_neg hac]
            exact Cell.le_trans h h'

/-! ## Sorted rows -/

namespace Row

/-- The cells of some columns. -/
def cells (r : Row) (columns : List Nat) : List Cell := columns.map (cell r)

theorem cells_eq_iff {r s : Row} {columns : List Nat} :
    cells r columns = cells s columns ↔ ∀ c ∈ columns, cell r c = cell s c :=
  List.map_inj_left

theorem le_eq (r s : Row) (columns : List Nat) :
    le r s columns = cellsLe (cells r columns) (cells s columns) := by
  induction columns with
  | nil => rfl
  | cons c columns ih =>
    rw [le, ih]
    rfl

/-- Two rows are one, or neither of them has a number. -/
def Alike (r s : Row) : Prop := r = s ∨ (cell r 0 = .null ∧ cell s 0 = .null)

end Row

/-- The rows of a table by some columns. -/
def sortRows (columns : List Nat) (rows : List Row) : List Row :=
  rows.mergeSort fun a b => Row.le a b columns

theorem pairwise_sortRows (columns : List Nat) (rows : List Row) :
    ((sortRows columns rows).map (Row.cells · columns)).Pairwise (cellsLe · ·) := by
  rw [List.pairwise_map]
  have hsorted : (sortRows columns rows).Pairwise fun a b => Row.le a b columns := by
    refine List.pairwise_mergeSort (fun a b c h h' => ?_) (fun a b => ?_) rows
    · rw [Row.le_eq] at h h' ⊢
      exact cellsLe_trans h h'
    · rw [Row.le_eq, Row.le_eq]
      exact cellsLe_total _ _
  exact hsorted.imp fun h => by rwa [Row.le_eq] at h

/-- **Sorted rows agree in the sort columns**, whatever their order was before. -/
theorem cells_sortRows {rows rows' : List Row} (h : rows.Perm rows') (columns : List Nat) :
    (sortRows columns rows).map (Row.cells · columns) =
      (sortRows columns rows').map (Row.cells · columns) := by
  have hperm : (sortRows columns rows).Perm (sortRows columns rows') :=
    (List.mergeSort_perm ..).trans (h.trans (List.mergeSort_perm ..).symm)
  exact (hperm.map _).eq_of_pairwise (fun _ _ _ _ => cellsLe_antisymm)
    (pairwise_sortRows columns rows) (pairwise_sortRows columns rows')

/-! ## Tables with the same rows -/

/-- Some columns tell the rows of a table apart, save those without a number. -/
def IsKey (keys : List Nat) (rows : List Row) : Prop :=
  rows.Pairwise fun a b => Row.cells a keys = Row.cells b keys → Row.cell a 0 = .null

/-- Two tables hold the same rows in any order, and some columns tell these apart; or neither
    table exists. -/
structure SameRows (keys : List Nat) (s t : Option (List Row)) : Prop where
  rows : Option.Rel List.Perm s t
  key : ∀ rows ∈ s, IsKey keys rows

instance (keys : List Nat) (rows : List Row) : Decidable (IsKey keys rows) :=
  inferInstanceAs (Decidable (List.Pairwise _ rows))

theorem SameRows.reverse {keys : List Nat} {rows : List Row} (h : IsKey keys rows) :
    SameRows keys (some rows) (some rows.reverse) :=
  ⟨.some (List.reverse_perm rows).symm, fun _ hrows => Option.some.inj hrows ▸ h⟩

section
variable {keys columns : List Nat} {rows rows' : List Row}

theorem IsKey.alike (h : IsKey keys rows) (hzero : 0 ∈ keys) {a b : Row} (ha : a ∈ rows)
    (hb : b ∈ rows) (hcells : Row.cells a keys = Row.cells b keys) : Row.Alike a b := by
  have hsymm : Std.Symm fun a b : Row =>
      Row.cells a keys = Row.cells b keys → Row.cell a 0 = .null :=
    ⟨fun x y hxy he => by
      rw [Row.cells_eq_iff.1 he 0 hzero]
      exact hxy he.symm⟩
  by_cases hne : a = b
  · exact Or.inl hne
  · have hnull := List.Pairwise.forall h ha hb hne hcells
    refine Or.inr ⟨hnull, ?_⟩
    rw [← Row.cells_eq_iff.1 hcells 0 hzero, hnull]

/-- **Sorted rows are alike** if the sort columns tell them apart. -/
theorem IsKey.alike_sortRows (h : IsKey keys rows) (hzero : 0 ∈ keys) (hsub : keys ⊆ columns)
    (hperm : rows.Perm rows') :
    List.Forall₂ Row.Alike (sortRows columns rows) (sortRows columns rows') := by
  have hcells : List.Forall₂ (fun a b => Row.cells a columns = Row.cells b columns)
      (sortRows columns rows) (sortRows columns rows') := by
    have hsame := cells_sortRows hperm columns
    rw [← List.forall₂_eq_eq_eq, List.forall₂_map_left_iff, List.forall₂_map_right_iff] at hsame
    exact hsame
  refine List.forall₂_iff_get.2 ⟨hcells.length_eq, fun i hi hi' => ?_⟩
  have ha : (sortRows columns rows).get ⟨i, hi⟩ ∈ rows :=
    (List.mergeSort_perm ..).mem_iff.1 (List.get_mem ..)
  have hb : (sortRows columns rows').get ⟨i, hi'⟩ ∈ rows :=
    hperm.mem_iff.2 ((List.mergeSort_perm ..).mem_iff.1 (List.get_mem ..))
  have hi := Row.cells_eq_iff.1 (hcells.get hi hi')
  exact h.alike hzero ha hb (Row.cells_eq_iff.2 fun c hc => hi c (hsub hc))

end

/-! ## Readers of rows -/

namespace Loader

section
variable {α : Type} {rows rows' : List Row}

theorem mapM_alike {f : Row → Except RepositoryError α}
    (hf : ∀ r, Row.cell r 0 = .null → f r = .error .unreadableCell)
    (h : List.Forall₂ Row.Alike rows rows') : rows.mapM f = rows'.mapM f := by
  induction h with
  | nil => rfl
  | @cons a b rows rows' hab h ih =>
    rcases hab with rfl | ⟨ha, hb⟩
    · rw [List.mapM_cons, List.mapM_cons, ih]
    · rw [List.mapM_cons, List.mapM_cons, hf a ha, hf b hb]
      rfl

theorem foldlM_alike {f : α → Row → Except RepositoryError α}
    (hf : ∀ x r, Row.cell r 0 = .null → f x r = .error .unreadableCell)
    (h : List.Forall₂ Row.Alike rows rows') (x : α) : rows.foldlM f x = rows'.foldlM f x := by
  induction h generalizing x with
  | nil => rfl
  | @cons a b rows rows' hab h ih =>
    rcases hab with rfl | ⟨ha, hb⟩
    · rw [List.foldlM_cons, List.foldlM_cons]
      exact congrArg _ (funext ih)
    · rw [List.foldlM_cons, List.foldlM_cons, hf x a ha, hf x b hb]
      rfl

end

/-- What is read from sorted rows does not depend on how they are stored, if it does not depend on
    rows without a number. -/
theorem sorted_bind {α : Type} {keys columns : List Nat} {s t : Option (List Row)}
    {f : List Row → Except RepositoryError α} (h : SameRows keys s t) (hzero : 0 ∈ keys)
    (hsub : keys ⊆ columns)
    (hf : ∀ rows rows', List.Forall₂ Row.Alike rows rows' → f rows = f rows') :
    (sorted s columns >>= f) = (sorted t columns >>= f) := by
  obtain ⟨hrows, hkey⟩ := h
  cases hrows with
  | none => rfl
  | some hperm => exact hf _ _ ((hkey _ rfl).alike_sortRows hzero hsub hperm)

section
variable {r : Row} (h : Row.cell r 0 = .null)
include h

theorem required?_null : Row.required? r 0 = none := by
  rw [Row.required?, h]

theorem packageRow_null : packageRow r = .error .unreadableCell := by
  rw [packageRow, required?_null h]
  rfl

theorem objectRow_null : objectRow r = .error .unreadableCell := by
  rw [objectRow, required?_null h]
  rfl

theorem loadAttribute_null (l : Loader) : l.loadAttribute r = .error .unreadableCell := by
  rw [loadAttribute, required?_null h]
  rfl

theorem parameterRow_null : parameterRow r = .error .unreadableCell := by
  rw [parameterRow, required?_null h]
  rfl

theorem loadOperation_null (parameters : List (Int × Parameter)) (l : Loader) :
    loadOperation parameters l r = .error .unreadableCell := by
  rw [loadOperation, required?_null h]
  rfl

theorem loadConnector_null (l : Loader) : l.loadConnector r = .error .unreadableCell := by
  rw [loadConnector, required?_null h]
  rfl

end

/-! ## Steps of the import -/

section
variable {s t : Option (List Row)} (l : Loader)

theorem loadPackages_sameRows (h : SameRows [0] s t) : l.loadPackages s = l.loadPackages t :=
  sorted_bind h (by simp) (by simp) fun _ _ hrows => by
    rw [mapM_alike (fun _ => packageRow_null) hrows]

theorem loadObjects_sameRows (h : SameRows [0] s t) : l.loadObjects s = l.loadObjects t :=
  sorted_bind h (by simp) (by simp) fun _ _ hrows => by
    rw [mapM_alike (fun _ => objectRow_null) hrows]

theorem loadAttributes_sameRows (h : SameRows [0] s t) :
    l.loadAttributes s = l.loadAttributes t :=
  sorted_bind h (by simp) (by simp) fun _ _ hrows =>
    foldlM_alike (fun l _ hr => loadAttribute_null hr l) hrows l

theorem loadOperations_sameRows {s' t' : Option (List Row)} (h : SameRows [0, 3] s t)
    (h' : SameRows [0] s' t') : l.loadOperations s s' = l.loadOperations t t' := by
  refine (sorted_bind h (by simp) (by simp) fun _ _ hrows => ?_).trans
    (bind_congr fun rows => ?_)
  · rw [mapM_alike (fun _ => parameterRow_null) hrows]
  · refine bind_congr fun parameters => ?_
    exact sorted_bind h' (by simp) (by simp) fun _ _ hrows =>
      foldlM_alike (fun l _ hr => loadOperation_null hr parameters l) hrows l

theorem loadConnectors_sameRows (h : SameRows [0] s t) :
    l.loadConnectors s = l.loadConnectors t :=
  sorted_bind h (by simp) (by simp) fun _ _ hrows =>
    foldlM_alike (fun l _ hr => loadConnector_null hr l) hrows l

end

end Loader

/-! ## Repositories -/

namespace Tables

/-- Two repositories hold the same rows in any order.  The numbers of packages, objects,
    attributes, operations and connectors are unique, and so are the positions of the parameters
    of an operation. -/
structure Rearranged (s t : Tables) : Prop where
  packages : SameRows [0] s.packages t.packages
  objects : SameRows [0] s.objects t.objects
  attributes : SameRows [0] s.attributes t.attributes
  operations : SameRows [0] s.operations t.operations
  parameters : SameRows [0, 3] s.parameters t.parameters
  connectors : SameRows [0] s.connectors t.connectors

/-- **The order of rows does not matter**: the import gives the same registry, or fails with the
    same error. -/
theorem load_rearranged {s t : Tables} (h : s.Rearranged t) : s.load = t.load := by
  simp only [load, Loader.loadPackages_sameRows _ h.packages,
    Loader.loadObjects_sameRows _ h.objects, Loader.loadAttributes_sameRows _ h.attributes,
    Loader.loadOperations_sameRows _ h.parameters h.operations,
    Loader.loadConnectors_sameRows _ h.connectors]

/-- A gate with an operation of two parameters, its positions and the states it moves between. -/
def gate : Tables where
  packages := some [
    [.int 2, .text "Gates", .int 1, .text "gates"],
    [.int 1, .text "Harbour", .int 0, .null]]
  objects := some [
    [.int 1, .text "Class", .text "Gate", .int 2],
    [.int 2, .text "Enumeration", .text "Position", .int 2],
    [.int 5, .text "State", .text "Open", .int 2, .int 3],
    [.int 4, .text "State", .text "Shut", .int 2, .int 3],
    [.int 3, .text "StateMachine", .text "Moves", .int 2, .int 1]]
  attributes := some [
    [.int 8, .int 2, .text "Low"],
    [.int 7, .int 2, .text "High"],
    [.int 6, .int 1, .text "position", .text "Position", .text "2", .text "1", .text "1"]]
  operations := some [[.int 9, .int 1, .text "move", .text "bool"]]
  parameters := some [
    [.int 9, .text "to", .text "Position", .int 1],
    [.int 9, .text "from", .text "Position", .int 0]]
  connectors := some [
    [.int 11, .text "StateFlow", .null, .null, .int 5, .int 4, .null, .null, .null, .null, .null,
      .null, .null, .null, .null, .null, .text "close, storm"],
    [.int 10, .text "StateFlow", .null, .null, .int 4, .int 5, .null, .null, .null, .null, .null,
      .null, .null, .null, .null, .null, .text "open"]]

/-- The same rows, stored from the last to the first. -/
def backwards (t : Tables) : Tables where
  packages := t.packages.map List.reverse
  objects := t.objects.map List.reverse
  attributes := t.attributes.map List.reverse
  operations := t.operations.map List.reverse
  parameters := t.parameters.map List.reverse
  connectors := t.connectors.map List.reverse

theorem load_backwards_gate :
    gate.Rearranged gate.backwards ∧ gate.load = gate.backwards.load := by
  have hrearranged : gate.Rearranged gate.backwards := {
    packages := .reverse (by decide)
    objects := .reverse (by decide)
    attributes := .reverse (by decide)
    operations := .reverse (by decide)
    parameters := .reverse (by decide)
    connectors := .reverse (by decide) }
  exact ⟨hrearranged, load_rearranged hrearranged⟩

end Tables

end ObjectLowering.Model
