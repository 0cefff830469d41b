/-
  What a fingerprint tells of the ids of a batch.

  A fingerprint has its entries by the names of units.  Where units share a
  name it has the ids of the last one alone.

  * `drift_eq_nil_iff`: there is no drift iff every entry of the baseline is
    found again.
  * `Complete`: the ids of every unit are on record.  `complete_iff` says
    when: units of one name have no ids that the last of them lacks.
  * `lowerAll_fingerprint`: this is so, too, iff an id that is lost never
    goes unnoticed.
-/
import Mathlib.Algebra.Group.Nat.Defs
import ObjectLowering.Proofs.Batches
import ObjectLowering.Report.Fingerprint

namespace ObjectLowering

/-! ## Texts of ids -/

namespace Text

theorem hexDigitUpper_inj : ∀ a < 16, ∀ b < 16, hexDigitUpper a = hexDigitUpper b → a = b := by
  decide

/-- Digits determine as much of the number as they show. -/
theorem hexDigits_mod {digit : Nat → Char}
    (hdigit : ∀ a < 16, ∀ b < 16, digit a = digit b → a = b) {width a b : Nat}
    (h : hexDigits digit width a = hexDigits digit width b) : a % 16 ^ width = b % 16 ^ width := by
  induction width generalizing a b with
  | zero => simp [Nat.mod_one]
  | succ width ih =>
    rw [hexDigits, hexDigits] at h
    obtain ⟨hfront, hlast⟩ := List.append_inj' h rfl
    have hlast := hdigit _ (Nat.mod_lt a (by decide)) _ (Nat.mod_lt b (by decide))
      (List.cons.inj hlast).1
    rw [Nat.pow_succ, Nat.mul_comm, Nat.mod_mul, Nat.mod_mul, ih hfront, hlast]

end Text

namespace Lowering

theorem formatId_inj {a b : UInt64} : formatId a = formatId b ↔ a = b := by
  refine ⟨fun h => ?_, fun h => h ▸ rfl⟩
  have hdigits : Text.hexDigits Text.hexDigitUpper 16 a.toNat =
      Text.hexDigits Text.hexDigitUpper 16 b.toNat := by
    rw [← String.toList_inj] at h
    simpa [formatId, Text.hexUpper] using h
  have hmod := Text.hexDigits_mod Text.hexDigitUpper_inj hdigits
  have ha : a.toNat % 16 ^ 16 = a.toNat := Nat.mod_eq_of_lt a.toNat_lt
  have hb : b.toNat % 16 ^ 16 = b.toNat := Nat.mod_eq_of_lt b.toNat_lt
  rw [ha, hb] at hmod
  exact UInt64.toNat_inj.1 hmod

end Lowering

namespace Report

open Data Lowering Model

namespace Fingerprint

/-! ## Drift -/

/-- The text of an id that a fingerprint has for a key of a class. -/
def recorded (f : Fingerprint) (name key : String) : Option String :=
  (f.ids? name).bind (·.lookup key)

/-- The fingerprint has a class with given ids, and maybe more. -/
def Keeps (f : Fingerprint) (name : String) (ids : IdTexts) : Prop :=
  ∃ now, f.ids? name = some now ∧ ∀ p ∈ ids, now.lookup p.1 = some p.2

theorem idDrift_eq_none {name key id : String} {now : IdTexts} :
    idDrift name now key id = none ↔ now.lookup key = some id := by
  unfold idDrift
  split
  · next h => simp [h]
  · next current h => simp [h]

theorem classDrift_eq_nil {f : Fingerprint} {name : String} {ids : IdTexts} :
    classDrift f name ids = [] ↔ f.Keeps name ids := by
  unfold classDrift Keeps
  split
  · next h => simp [h]
  · next now h => simp [h, List.filterMap_eq_nil_iff, idDrift_eq_none]

theorem sortTexts_eq_nil {ts : List String} : Text.sortTexts ts = [] ↔ ts = [] := by
  rw [Text.sortTexts, ← List.length_eq_zero_iff, List.length_mergeSort, List.length_eq_zero_iff]

/-- **No drift** is found iff the ids of every class of the baseline are kept. -/
theorem drift_eq_nil_iff {baseline current : Fingerprint} :
    drift baseline current = [] ↔
      ∀ p ∈ baseline.classes.getD [], current.Keeps p.1 (p.2.getD []) := by
  rw [drift, sortTexts_eq_nil, List.flatMap_eq_nil_iff]
  exact forall₂_congr fun p _ => classDrift_eq_nil

/-! ## Units -/

variable {units new : List CodeUnit} {name : String} {u v : CodeUnit}

/-- The last of the units of a name that have ids. -/
def lastOf (units : List CodeUnit) (name : String) : Option CodeUnit :=
  units.reverse.find? fun u => !u.ids.isEmpty && u.name == name

/-- The unit lists no key twice. -/
def KeysOnce (u : CodeUnit) : Prop := (u.ids.map (·.key)).Nodup

theorem lastOf_eq_some (h : lastOf units name = some u) :
    u ∈ units ∧ u.ids ≠ [] ∧ u.name = name := by
  have hp := List.find?_some h
  have hmem := List.mem_of_find?_eq_some h
  simp only [Bool.and_eq_true, Bool.not_eq_true', List.isEmpty_eq_false_iff, beq_iff_eq] at hp
  exact ⟨List.mem_reverse.1 hmem, hp⟩

theorem exists_lastOf (hu : u ∈ units) (hids : u.ids ≠ []) : ∃ v, lastOf units u.name = some v := by
  rw [← Option.isSome_iff_exists, lastOf, List.find?_isSome]
  exact ⟨u, List.mem_reverse.2 hu, by simpa using hids⟩

theorem lookup_idTexts (h : KeysOnce u) {key text : String} :
    (idTexts u).lookup key = some text ↔
      ∃ id, (⟨key, id⟩ : IdEntry) ∈ u.ids ∧ text = formatId id := by
  have hnodup : ((u.ids.map fun e => (e.key, formatId e.id)).map (·.1)).Nodup := by
    rw [List.map_map]
    exact h
  rw [idTexts, lookup_entriesOf_iff hnodup, List.mem_map]
  constructor
  · rintro ⟨⟨k, id⟩, he, hp⟩
    obtain ⟨rfl, rfl⟩ := Prod.mk.inj hp
    exact ⟨id, he, rfl⟩
  · rintro ⟨id, he, rfl⟩
    exact ⟨_, he, rfl⟩

theorem lookup_idTexts_formatId (h : KeysOnce u) {e : IdEntry} :
    (idTexts u).lookup e.key = some (formatId e.id) ↔ e ∈ u.ids := by
  rw [lookup_idTexts h]
  constructor
  · rintro ⟨id, he, hid⟩
    rw [formatId_inj] at hid
    subst hid
    exact he
  · exact fun he => ⟨e.id, he, rfl⟩

theorem lookup_classes (units : List CodeUnit) (name : String) :
    ((ofUnits units).classes.getD []).lookup name = (lastOf units name).map (some ∘ idTexts) := by
  rw [ofUnits, Option.getD_some, lookup_entriesOf, ← List.map_reverse, ← List.filter_reverse,
    lookup_map, List.find?_filter, lastOf]
  simp only [Bool.decide_and, Bool.decide_eq_true]
  rfl

/-- Units of one name have one record, that of the last one. -/
theorem ids?_ofUnits (units : List CodeUnit) (name : String) :
    (ofUnits units).ids? name = (lastOf units name).map idTexts := by
  rw [ids?, lookup_classes, Option.map_map]
  rfl

theorem mem_classes {ids : Option IdTexts} :
    (name, ids) ∈ (ofUnits units).classes.getD [] ↔
      ∃ u, lastOf units name = some u ∧ ids = some (idTexts u) := by
  have hlookup := lookup_classes units name
  rw [ofUnits, Option.getD_some] at hlookup ⊢
  rw [mem_entriesOf, hlookup, Option.map_eq_some_iff]
  exact exists_congr fun u => and_congr_right fun _ => eq_comm

theorem keeps_ofUnits_iff (hu : KeysOnce u) (hnew : ∀ v ∈ new, KeysOnce v) :
    (ofUnits new).Keeps name (idTexts u) ↔ ∃ v, lastOf new name = some v ∧ u.ids ⊆ v.ids := by
  rw [Keeps, ids?_ofUnits]
  constructor
  · rintro ⟨now, hnow, hkept⟩
    obtain ⟨v, hv, rfl⟩ := Option.map_eq_some_iff.1 hnow
    refine ⟨v, hv, fun e he => ?_⟩
    have hmem : (e.key, formatId e.id) ∈ idTexts u :=
      mem_entriesOf.2 ((lookup_idTexts_formatId hu).2 he)
    exact (lookup_idTexts_formatId (hnew v (lastOf_eq_some hv).1)).1 (hkept _ hmem)
  · rintro ⟨v, hv, hsub⟩
    refine ⟨idTexts v, by rw [hv]; rfl, fun p hp => ?_⟩
    obtain ⟨id, he, htext⟩ := (lookup_idTexts hu).1 (mem_entriesOf.1 hp)
    rw [htext]
    exact (lookup_idTexts_formatId (hnew v (lastOf_eq_some hv).1)).2 (hsub he)

/-- **Drift between units**: none is found iff the last unit of each name has kept its ids. -/
theorem drift_ofUnits_iff (hunits : ∀ u ∈ units, KeysOnce u) (hnew : ∀ v ∈ new, KeysOnce v) :
    drift (ofUnits units) (ofUnits new) = [] ↔
      ∀ name u, lastOf units name = some u → ∃ v, lastOf new name = some v ∧ u.ids ⊆ v.ids := by
  rw [drift_eq_nil_iff]
  constructor
  · intro h name u hu
    have hkept := h (name, some (idTexts u)) (mem_classes.2 ⟨u, hu, rfl⟩)
    exact (keeps_ofUnits_iff (hunits u (lastOf_eq_some hu).1) hnew).1 hkept
  · rintro h ⟨name, ids⟩ hp
    obtain ⟨u, hu, rfl⟩ := mem_classes.1 hp
    exact (keeps_ofUnits_iff (hunits u (lastOf_eq_some hu).1) hnew).2 (h name u hu)

/-! ## Completeness -/

/-- The id of every entry of every unit is on record. -/
def Complete (units : List CodeUnit) : Prop :=
  ∀ u ∈ units, ∀ e ∈ u.ids, (ofUnits units).recorded u.name e.key = some (formatId e.id)

/-- Every entry of a unit is found again, with its id, in a new unit of the name. -/
def Kept (units new : List CodeUnit) : Prop :=
  ∀ u ∈ units, ∀ e ∈ u.ids, ∃ v ∈ new, v.name = u.name ∧ e ∈ v.ids

theorem recorded_ofUnits_iff (hunits : ∀ u ∈ units, KeysOnce u) {key text : String} :
    (ofUnits units).recorded name key = some text ↔
      ∃ u, lastOf units name = some u ∧
        ∃ id, (⟨key, id⟩ : IdEntry) ∈ u.ids ∧ text = formatId id := by
  rw [recorded, ids?_ofUnits, Option.bind_eq_some_iff]
  constructor
  · rintro ⟨ids, hids, htext⟩
    obtain ⟨u, hu, rfl⟩ := Option.map_eq_some_iff.1 hids
    exact ⟨u, hu, (lookup_idTexts (hunits u (lastOf_eq_some hu).1)).1 htext⟩
  · rintro ⟨u, hu, htext⟩
    exact ⟨idTexts u, by rw [hu]; rfl, (lookup_idTexts (hunits u (lastOf_eq_some hu).1)).2 htext⟩

/-- **What is on record**: a fingerprint is complete iff the last unit of a name has all the ids of
    the others. -/
theorem complete_iff (hunits : ∀ u ∈ units, KeysOnce u) :
    Complete units ↔ ∀ u ∈ units, ∀ v, lastOf units u.name = some v → u.ids ⊆ v.ids := by
  constructor
  · intro h u hu v hv e he
    obtain ⟨w, hw, id, hid, htext⟩ := (recorded_ofUnits_iff hunits).1 (h u hu e he)
    rw [hv] at hw
    obtain rfl := Option.some.inj hw
    rw [formatId_inj] at htext
    subst htext
    exact hid
  · intro h u hu e he
    obtain ⟨v, hv⟩ := exists_lastOf hu (List.ne_nil_of_mem he)
    exact (recorded_ofUnits_iff hunits).2 ⟨v, hv, e.id, h u hu v hv he, rfl⟩

/-- Units with names of their own have a complete fingerprint. -/
theorem complete_of_names (hunits : ∀ u ∈ units, KeysOnce u)
    (h : ((units.filter fun u => !u.ids.isEmpty).map (·.name)).Nodup) : Complete units := by
  rw [complete_iff hunits]
  intro u hu v hv e he
  obtain ⟨hmem, hids, hname⟩ := lastOf_eq_some hv
  have hu' : u ∈ units.filter fun u => !u.ids.isEmpty :=
    List.mem_filter.2 ⟨hu, by simpa using List.ne_nil_of_mem he⟩
  have hv' : v ∈ units.filter fun u => !u.ids.isEmpty :=
    List.mem_filter.2 ⟨hmem, by simpa using hids⟩
  rw [List.inj_on_of_nodup_map h hv' hu' hname]
  exact he

/-- The units whose ids are on record. -/
def survivors (units : List CodeUnit) : List CodeUnit :=
  units.filterMap fun u => lastOf units u.name

theorem lastOf_survivors (h : v ∈ survivors units) : lastOf units v.name = some v := by
  obtain ⟨u, -, hu⟩ := List.mem_filterMap.1 h
  rw [(lastOf_eq_some hu).2.2, hu]

theorem lastOf_of_survivors (h : lastOf units name = some u) :
    lastOf (survivors units) name = some u := by
  obtain ⟨hmem, hids, rfl⟩ := lastOf_eq_some h
  have hu : u ∈ survivors units := List.mem_filterMap.2 ⟨u, hmem, h⟩
  obtain ⟨v, hv⟩ := exists_lastOf hu hids
  obtain ⟨hv', -, hname⟩ := lastOf_eq_some hv
  have hlast := lastOf_survivors hv'
  rw [hname, h] at hlast
  rw [hv, hlast]

/-- **Noticing what is lost**: that no drift is found means that nothing is lost iff the fingerprint
    of the baseline is complete.  Else the units whose ids are on record go for all units. -/
theorem kept_of_no_drift_iff (hunits : ∀ u ∈ units, KeysOnce u) :
    (∀ new, (∀ v ∈ new, KeysOnce v) → drift (ofUnits units) (ofUnits new) = [] → Kept units new) ↔
      Complete units := by
  rw [complete_iff hunits]
  constructor
  · -- the survivors drift in nothing, so they show what the record lacks
    intro h u hu v hv e he
    have hsub : ∀ w ∈ survivors units, KeysOnce w := fun w hw =>
      hunits w (lastOf_eq_some (lastOf_survivors hw)).1
    have hnone : drift (ofUnits units) (ofUnits (survivors units)) = [] :=
      (drift_ofUnits_iff hunits hsub).2 fun name w hw =>
        ⟨w, lastOf_of_survivors hw, List.Subset.refl _⟩
    obtain ⟨w, hw, hname, hew⟩ := h _ hsub hnone u hu e he
    have hlast := lastOf_survivors hw
    rw [hname, hv] at hlast
    rw [Option.some.inj hlast]
    exact hew
  · intro h new hnew hnone u hu e he
    obtain ⟨v, hv⟩ := exists_lastOf hu (List.ne_nil_of_mem he)
    obtain ⟨w, hw, hsub⟩ := (drift_ofUnits_iff hunits hnew).1 hnone _ v hv
    obtain ⟨hmem, -, hname⟩ := lastOf_eq_some hw
    exact ⟨w, hmem, hname, hsub (h u hu v hv he)⟩

/-! ## Batches -/

section
variable {r : Registry} {stems : Stems} {t t' : IdTable} {c : Classifier}

theorem keysOnce_of_lowerClass (ht : t.Valid) (hl : lowerClass r stems t c = (t', .ok u)) :
    KeysOnce u := by
  rcases lowerClass_sorts hl with ⟨-, rfl⟩ | ⟨-, rfl⟩ | ⟨-, rfl⟩ | ⟨hf, -⟩
  · exact List.nodup_nil
  · exact List.nodup_nil
  · exact List.nodup_nil
  · obtain ⟨rfl, -⟩ := lowerClass_ok hf ht hl
    obtain ⟨ops, hops⟩ := lowerClass_run r stems t c
    have hrun : t' = t.run ops := by rw [← hops, hl]
    have ht' : t'.Valid := hrun ▸ ht.run ops
    rw [KeysOnce, Plan.unit, t'.entries_eq]
    exact ht'.keys c.id

theorem keysOnce_of_mem_units {ids : IdTable} {cancel : Cancellation} (hids : ids.Valid)
    (hu : u ∈ (lowerAll r stems ids cancel).units) : KeysOnce u := by
  obtain ⟨-, -, ops, t, hl⟩ := mem_units hu
  exact keysOnce_of_lowerClass (hids.run ops) hl

end

/-- What the fingerprint of units tells. -/
structure Account (units : List CodeUnit) : Prop where
  /-- The ids on record under a name are those of the last unit of the name. -/
  recorded : ∀ name key text, (ofUnits units).recorded name key = some text ↔
    ∃ u, lastOf units name = some u ∧ ∃ id, (⟨key, id⟩ : IdEntry) ∈ u.ids ∧ text = formatId id
  /-- So all ids are on record iff this unit has the ids of all others of the name. -/
  complete : Complete units ↔ ∀ u ∈ units, ∀ v, lastOf units u.name = some v → u.ids ⊆ v.ids
  /-- Names of their own are enough for it. -/
  names : ((units.filter fun u => !u.ids.isEmpty).map (·.name)).Nodup → Complete units
  /-- That no drift is found means that nothing is lost iff all ids are on record. -/
  noticed : (∀ new, (∀ v ∈ new, KeysOnce v) → drift (ofUnits units) (ofUnits new) = [] →
    Kept units new) ↔ Complete units

/-- **The fingerprint of a batch**, and what it tells of a batch for another model: no drift is
    found iff the last unit of each name has kept its ids, and if all ids are on record, then
    nothing is lost. -/
theorem lowerAll_fingerprint (r : Registry) (stems : Stems) (hash : String → UInt64)
    (ops : List IdOperation) (cancel : Cancellation) :
    Account (lowerAll r stems (.run { hash } ops) cancel).units ∧
    ∀ (r' : Registry) (stems' : Stems) (hash' : String → UInt64) (ops' : List IdOperation)
      (cancel' : Cancellation),
      (drift (ofUnits (lowerAll r stems (.run { hash } ops) cancel).units)
          (ofUnits (lowerAll r' stems' (.run { hash := hash' } ops') cancel').units) = [] ↔
        ∀ name u, lastOf (lowerAll r stems (.run { hash } ops) cancel).units name = some u →
          ∃ v, lastOf (lowerAll r' stems' (.run { hash := hash' } ops') cancel').units name =
            some v ∧ u.ids ⊆ v.ids) ∧
      (Complete (lowerAll r stems (.run { hash } ops) cancel).units →
        drift (ofUnits (lowerAll r stems (.run { hash } ops) cancel).units)
          (ofUnits (lowerAll r' stems' (.run { hash := hash' } ops') cancel').units) = [] →
        Kept (lowerAll r stems (.run { hash } ops) cancel).units
          (lowerAll r' stems' (.run { hash := hash' } ops') cancel').units) := by
  have hunits : ∀ u ∈ (lowerAll r stems (.run { hash } ops) cancel).units, KeysOnce u :=
    fun u hu => keysOnce_of_mem_units ((IdTable.valid_empty hash).run ops) hu
  refine ⟨{
    recorded := fun name key text => recorded_ofUnits_iff hunits
    complete := complete_iff hunits
    names := complete_of_names hunits
    noticed := kept_of_no_drift_iff hunits }, fun r' stems' hash' ops' cancel' => ?_⟩
  have hnew : ∀ v ∈ (lowerAll r' stems' (.run { hash := hash' } ops') cancel').units,
      KeysOnce v := fun v hv => keysOnce_of_mem_units ((IdTable.valid_empty hash').run ops') hv
  exact ⟨drift_ofUnits_iff hunits hnew, fun hcomplete =>
    (kept_of_no_drift_iff hunits).2 hcomplete _ hnew⟩

/-! Two silos have names with one identifier.  Later the first of them has lost its level. -/

def siloElements : List Element := [
  .classifier { id := "first", name := "Grain Silo", stereotype := "SimObject" },
  .classifier { id := "second", name := "Grain_Silo", stereotype := "SimObject" },
  .attribute { id := "w", name := "width", parent := "second", typed := { typeName := "double" } }]

def siloYard : Registry := Registry.prepare { elements := siloElements ++ [
  .attribute { id := "l", name := "level", parent := "first", typed := { typeName := "double" } }] }

def laterSiloYard : Registry := Registry.prepare { elements := siloElements }

/-- The level of the first silo had an id that was never on record, and its loss is no drift. -/
theorem silo_loss_unnoticed :
    ((lowerAll siloYard (.ofTexts "" "") { hash := Digest.XxHash.hash } .never).units.map fun u =>
      (u.name, u.ids.map (·.key))) =
        [("Grain_Silo", ["ATTR_LEVEL"]), ("Grain_Silo", ["ATTR_WIDTH"])] ∧
    ¬ Complete (lowerAll siloYard (.ofTexts "" "") { hash := Digest.XxHash.hash } .never).units ∧
    drift (ofUnits (lowerAll siloYard (.ofTexts "" "") { hash := Digest.XxHash.hash } .never).units)
      (ofUnits (lowerAll laterSiloYard (.ofTexts "" "")
        { hash := Digest.XxHash.hash } .never).units) = [] ∧
    ¬ Kept (lowerAll siloYard (.ofTexts "" "") { hash := Digest.XxHash.hash } .never).units
      (lowerAll laterSiloYard (.ofTexts "" "") { hash := Digest.XxHash.hash } .never).units := by
  refine ⟨by decide +kernel, ?_, ?_, ?_⟩
  · unfold Complete
    decide +kernel
  · rw [drift, sortTexts_eq_nil]
    decide +kernel
  · unfold Kept
    decide +kernel

end Fingerprint

end Report

end ObjectLowering
