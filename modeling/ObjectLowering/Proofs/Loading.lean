/-
  From the model that is loaded to the units that a run writes.

  * `loadModel_isPlain`: documents and repositories add their elements one by
    one, so a model that is loaded has elements with ids of their own.
  * `generate_units`: the units that a run writes are among those of the
    model, and writing does not change them.
-/
import ObjectLowering.Proofs.DryRuns
import ObjectLowering.Proofs.Ownership

namespace ObjectLowering

/-- What one step keeps is kept by all of them. -/
theorem foldlM_keeps {ε α β : Type} {P : β → Prop} {f : β → α → Except ε β}
    (hstep : ∀ x a y, P x → f x a = .ok y → P y) {as : List α} {x y : β} (hx : P x)
    (h : as.foldlM f x = .ok y) : P y := by
  induction as generalizing x with
  | nil => exact Except.ok.inj h ▸ hx
  | cons a as ih =>
    rw [List.foldlM_cons, bind_eq_ok] at h
    obtain ⟨z, hz, h⟩ := h
    exact ih (hstep x a z hx hz) h

namespace Model

/-- The registry has elements with ids of their own, and nothing else yet. -/
def Registry.IsPlain (r : Registry) : Prop :=
  ∃ elements : List Element, r = { elements } ∧ (elements.map Element.id).Nodup

section
variable {r r' : Registry} {e : Element}

theorem Registry.isPlain_empty : Registry.IsPlain {} := ⟨[], rfl, List.nodup_nil⟩

theorem Registry.IsPlain.built (h : r.IsPlain) : r.Built := by
  obtain ⟨elements, rfl, hids⟩ := h
  exact .loaded hids

theorem Registry.IsPlain.add (h : r.IsPlain) (ha : r.add e = .ok r') : r'.IsPlain := by
  have hids := (h.built.add ha).ids_nodup
  obtain ⟨elements, rfl, -⟩ := h
  obtain ⟨-, rfl⟩ := Registry.add_eq_ok ha
  exact ⟨_, rfl, hids⟩

/-- Putting an element in the place of the one with its id keeps the ids. -/
theorem Registry.IsPlain.replace (h : r.IsPlain) (e : Element) : Registry.IsPlain { r with
    elements := r.elements.map fun x => if x.id = e.id then e else x } := by
  obtain ⟨elements, rfl, hids⟩ := h
  refine ⟨_, rfl, ?_⟩
  have hsame : (elements.map fun x => if x.id = e.id then e else x).map Element.id =
      elements.map Element.id := by
    rw [List.map_map]
    refine List.map_congr_left fun x _ => ?_
    rw [Function.comp_apply]
    split_ifs with hx
    · exact hx.symm
    · rfl
  exact hsame ▸ hids

end

/-! ## Documents -/

theorem Entry.addTo_isPlain (r : Registry) (e : Entry) (r' : Registry) (h : r.IsPlain)
    (ha : e.addTo r = .ok r') : r'.IsPlain := by
  unfold Entry.addTo at ha
  split at ha
  · cases ha
  · split at ha
    · next r₁ hadd =>
      rw [← Except.ok.inj ha]
      exact h.add hadd
    · cases ha

theorem readModel_isPlain {text : String} {r : Registry} (h : readModel text = .ok r) :
    r.IsPlain := by
  unfold readModel at h
  split at h
  · cases h
  · next d _ =>
    split at h
    · next r₁ hd =>
      rw [← Except.ok.inj h]
      exact foldlM_keeps Entry.addTo_isPlain Registry.isPlain_empty hd
    · cases h

/-! ## Repositories -/

namespace Loader

variable {l l' : Loader} {table : Option (List Row)}

/-- Rows that are stored in order are read as they are stored. -/
theorem sorted_of_pairwise {rows : List Row} {columns : List Nat}
    (h : rows.Pairwise fun a b => Row.le a b columns) : sorted (some rows) columns = .ok rows := by
  rw [sorted, List.mergeSort_of_pairwise h]

theorem add_isPlain {step : ImportStep} {e : Element} (h : l.registry.IsPlain)
    (ha : l.add step e = .ok l') : l'.registry.IsPlain := by
  unfold add at ha
  split at ha
  · next r hadd =>
    rw [← Except.ok.inj ha]
    exact h.add hadd
  · cases ha

theorem loadPackages_isPlain (h : l.registry.IsPlain) (hl : l.loadPackages table = .ok l') :
    l'.registry.IsPlain := by
  simp only [loadPackages, bind_eq_ok] at hl
  obtain ⟨rows, -, packages, -, hl⟩ := hl
  exact foldlM_keeps (P := fun l => l.registry.IsPlain) (fun _ _ _ => add_isPlain) (by exact h) hl

theorem loadObject_isPlain (l : Loader) (r : ObjectRow) (l' : Loader) (h : l.registry.IsPlain)
    (hl : l.loadObject r = .ok l') : l'.registry.IsPlain := by
  unfold loadObject at hl
  split at hl
  · exact Except.ok.inj hl ▸ h
  · dsimp only at hl
    split at hl
    · exact Except.ok.inj hl ▸ h
    · refine add_isPlain ?_ hl
      split <;> exact h

theorem loadObjects_isPlain (h : l.registry.IsPlain) (hl : l.loadObjects table = .ok l') :
    l'.registry.IsPlain := by
  simp only [loadObjects, bind_eq_ok] at hl
  obtain ⟨rows, -, objects, -, hl⟩ := hl
  exact foldlM_keeps (P := fun l => l.registry.IsPlain) loadObject_isPlain (by exact h) hl

theorem loadAttribute_isPlain (l : Loader) (r : Row) (l' : Loader) (h : l.registry.IsPlain)
    (hl : l.loadAttribute r = .ok l') : l'.registry.IsPlain := by
  simp only [loadAttribute, bind_eq_ok] at hl
  obtain ⟨id, -, owner, -, derived, -, hl⟩ := hl
  split at hl
  · exact Except.ok.inj hl ▸ h
  · split at hl
    · exact Except.ok.inj hl ▸ h
    · split_ifs at hl
      · rw [← Except.ok.inj hl]
        exact h.replace _
      · exact add_isPlain h hl
    · exact add_isPlain h hl

theorem loadAttributes_isPlain (h : l.registry.IsPlain) (hl : l.loadAttributes table = .ok l') :
    l'.registry.IsPlain := by
  simp only [loadAttributes, bind_eq_ok] at hl
  obtain ⟨rows, -, hl⟩ := hl
  exact foldlM_keeps loadAttribute_isPlain h hl

theorem loadOperation_isPlain (parameters : List (Int × Parameter)) (l : Loader) (r : Row)
    (l' : Loader) (h : l.registry.IsPlain) (hl : loadOperation parameters l r = .ok l') :
    l'.registry.IsPlain := by
  simp only [loadOperation, bind_eq_ok] at hl
  obtain ⟨id, -, owner, -, query, -, hl⟩ := hl
  split at hl
  · exact Except.ok.inj hl ▸ h
  · split at hl
    · split_ifs at hl
      · exact Except.ok.inj hl ▸ h
      · exact add_isPlain h hl
      · exact add_isPlain h hl
    · exact add_isPlain h hl

theorem loadOperations_isPlain {operations : Option (List Row)} (h : l.registry.IsPlain)
    (hl : l.loadOperations table operations = .ok l') : l'.registry.IsPlain := by
  simp only [loadOperations, bind_eq_ok] at hl
  obtain ⟨parameterRows, -, parameters, -, rows, -, hl⟩ := hl
  exact foldlM_keeps (loadOperation_isPlain parameters) h hl

theorem loadAssociation_isPlain {c : ConnectorRow} {source target : LoadedObject}
    {sourceName targetName : String} (h : l.registry.IsPlain)
    (hl : l.loadAssociation c source target sourceName targetName = .ok l') :
    l'.registry.IsPlain := by
  simp only [loadAssociation, bind_eq_ok] at hl
  obtain ⟨l₁, h₁, l₂, h₂, hl⟩ := hl
  exact add_isPlain (add_isPlain (add_isPlain h h₁) h₂) hl

theorem eventId_isPlain {name id : String} (h : l.registry.IsPlain)
    (hl : l.eventId name = .ok (l', id)) : l'.registry.IsPlain := by
  unfold eventId at hl
  split at hl
  · obtain ⟨rfl, -⟩ := Prod.mk.inj (Except.ok.inj hl)
    exact h
  · simp only [bind_eq_ok] at hl
    obtain ⟨l₁, h₁, hl⟩ := hl
    obtain ⟨rfl, -⟩ := Prod.mk.inj (Except.ok.inj hl)
    have hadded : l₁.registry.IsPlain := add_isPlain h h₁
    exact hadded

theorem loadTransition_isPlain {c : ConnectorRow} {source target : LoadedObject}
    (h : l.registry.IsPlain) (hl : l.loadTransition c source target = .ok l') :
    l'.registry.IsPlain := by
  simp only [loadTransition, bind_eq_ok] at hl
  obtain ⟨⟨l₁, ids⟩, h₁, l₂, h₂, hl⟩ := hl
  have hevents : l₁.registry.IsPlain := by
    refine foldlM_keeps (P := fun x : Loader × List String => x.1.registry.IsPlain) ?_ h h₁
    rintro ⟨l, ids⟩ name ⟨l', ids'⟩ h hl
    simp only [bind_eq_ok] at hl
    obtain ⟨⟨l₂, id⟩, h₂, hl⟩ := hl
    obtain ⟨rfl, -⟩ := Prod.mk.inj (Except.ok.inj hl)
    exact eventId_isPlain h h₂
  exact foldlM_keeps (P := fun l : Loader => l.registry.IsPlain) (fun _ _ _ => add_isPlain)
    (add_isPlain hevents h₂) hl

theorem loadConnector_isPlain (l : Loader) (r : Row) (l' : Loader) (h : l.registry.IsPlain)
    (hl : l.loadConnector r = .ok l') : l'.registry.IsPlain := by
  simp only [loadConnector, bind_eq_ok] at hl
  obtain ⟨id, -, start, -, stop, -, n₁, -, n₂, -, a₁, -, a₂, -, hl⟩ := hl
  split at hl
  · split at hl
    · split_ifs at hl
      · exact add_isPlain h hl
      · exact add_isPlain h hl
      · exact loadAssociation_isPlain h hl
      · exact loadTransition_isPlain h hl
      · exact Except.ok.inj hl ▸ h
    · exact Except.ok.inj hl ▸ h
  · exact Except.ok.inj hl ▸ h

theorem loadConnectors_isPlain (h : l.registry.IsPlain) (hl : l.loadConnectors table = .ok l') :
    l'.registry.IsPlain := by
  simp only [loadConnectors, bind_eq_ok] at hl
  obtain ⟨rows, -, hl⟩ := hl
  exact foldlM_keeps loadConnector_isPlain h hl

end Loader

theorem Tables.load_isPlain {t : Tables} {r : Registry} (h : t.load = .ok r) : r.IsPlain := by
  simp only [Tables.load, bind_eq_ok] at h
  obtain ⟨l₁, h₁, l₂, h₂, l₃, h₃, l₄, h₄, l₅, h₅, h⟩ := h
  rw [← Except.ok.inj h]
  refine Loader.loadConnectors_isPlain ?_ h₅
  refine Loader.loadOperations_isPlain ?_ h₄
  refine Loader.loadAttributes_isPlain ?_ h₃
  refine Loader.loadObjects_isPlain ?_ h₂
  exact Loader.loadPackages_isPlain Registry.isPlain_empty h₁

theorem Connection.load_isPlain {c : Connection} {r : Registry} (h : c.load = .ok r) :
    r.IsPlain := by
  unfold Connection.load at h
  dsimp only at h
  split_ifs at h
  split at h
  · cases h
  · cases h
  · cases h
  · exact Tables.load_isPlain h

end Model

namespace Run

open Artifact Config Lowering Model Report

variable {s : Settings} {w : Surroundings} {r : Registry} {b : Batch} {g : Generation}

/-! ## Runs -/

/-- **A model that is loaded** has elements with ids of their own, and nothing else yet. -/
theorem loadModel_isPlain (h : (loadModel s w).2 = .ok r) : r.IsPlain := by
  unfold loadModel at h
  split_ifs at h
  · exact Connection.load_isPlain (mapError_eq_ok.1 h)
  · dsimp only [loadDocument] at h
    split_ifs at h
    split at h
    · cases h
    · split at h
      · exact readModel_isPlain (mapError_eq_ok.1 h)
      · cases h

theorem loadModel_built (h : (loadModel s w).2 = .ok r) : r.Built := (loadModel_isPlain h).built

theorem lowerSource_batch (h : (lowerSource s w).batch = .ok b) :
    ∃ r, (loadModel s w).2 = .ok r ∧ b = lowerModel s w r.prepare := by
  unfold lowerSource at h
  cases hload : (loadModel s w).2 with
  | error e =>
    simp only [hload] at h
    cases h
  | ok r =>
    simp only [hload, prepareModel] at h
    split at h
    · cases h
    · next hprepared =>
      split_ifs at hprepared
      obtain rfl := Except.ok.inj hprepared
      exact ⟨r, rfl, (Except.ok.inj h).symm⟩

theorem lowerSource_of_load (h : (loadModel s w).2 = .ok r)
    (hclean : hasErrors r.prepare.diagnostics = false) :
    (lowerSource s w).batch = .ok (lowerModel s w r.prepare) := by
  unfold lowerSource prepareModel
  simp [h, hclean]

namespace Generation

theorem deploy_units (s : Settings) (w : Surroundings) (g : Generation) (e : Extra) :
    (g.deploy s w e).units = g.units := by
  unfold deploy
  split
  · rfl
  · split_ifs <;> rfl

theorem writeExtra_units (s : Settings) (w : Surroundings) (g : Generation) (e : Extra) :
    (g.writeExtra s w e).units = g.units := by
  unfold writeExtra
  split
  · rfl
  · rw [deploy_units]

theorem writeExtras_units (s : Settings) (w : Surroundings) (g : Generation)
    (extras : List Extra) : (g.writeExtras s w extras).units = g.units := by
  induction extras generalizing g with
  | nil => rfl
  | cons e extras ih =>
    unfold writeExtras
    dsimp only
    split_ifs
    · rw [writeExtra_units]
    · rw [ih, writeExtra_units]

/-- Writing does not change the units. -/
theorem write_units (s : Settings) (w : Surroundings) (g : Generation) :
    (g.write s w).units = g.units := by
  have hsources : (g.writeSources s w).units = g.units := rfl
  unfold write
  dsimp only
  split_ifs
  · exact hsources
  · unfold writeReports
    split
    · exact hsources
    · rw [writeExtras_units, hsources]

end Generation

/-- What a run leaves in its sink is what the units that are asked for are written to. -/
theorem generate_eq_write {sink : Option Sink} (h : (generate s w sink).result = some g) :
    ∃ r start, (loadModel s w).2 = .ok r ∧
      g = ({ units := selectUnits s.lowering.classes (lowerModel s w r.prepare).units,
             sink := start } : Generation).write s w := by
  unfold generate at h
  cases hbatch : (lowerSource s w).batch with
  | error e =>
    simp only [hbatch] at h
    cases h
  | ok b =>
    obtain ⟨r, hload, rfl⟩ := lowerSource_batch hbatch
    simp only [hbatch, generateBatch] at h
    split_ifs at h
    split at h
    · cases h
    · next start _ =>
      rw [finish_result] at h
      exact ⟨r, start, hload, (Option.some.inj h).symm⟩

/-- **The units of a run** are those of the model that is loaded, as far as they are asked for. -/
theorem generate_units {sink : Option Sink} (h : (generate s w sink).result = some g) :
    ∃ r, (loadModel s w).2 = .ok r ∧
      g.units = selectUnits s.lowering.classes (lowerModel s w r.prepare).units := by
  obtain ⟨r, start, hload, rfl⟩ := generate_eq_write h
  exact ⟨r, hload, Generation.write_units ..⟩

/-- A model without errors that can be lowered is written to a sink, even if not all of it can be
    written. -/
theorem exists_generate (h : (loadModel s w).2 = .ok r)
    (hclean : hasErrors r.prepare.diagnostics = false)
    (hlowered : (lowerModel s w r.prepare).hasFailed = false) (sink : Sink) :
    ∃ g, (generate s w (some sink)).result = some g ∧
      g.units = selectUnits s.lowering.classes (lowerModel s w r.prepare).units := by
  let g : Generation :=
    { units := selectUnits s.lowering.classes (lowerModel s w r.prepare).units, sink }
  refine ⟨g.write s w, ?_, g.write_units s w⟩
  simp only [generate, lowerSource_of_load h hclean, generateBatch, hlowered, Bool.false_eq_true,
    false_and, if_false]
  exact finish_result ..

end Run

end ObjectLowering
