/-
  What the drift between two fingerprints tells.

  * `mem_issues`, `nodup_issues`: there is one issue for every class that was
    removed, and for every id that was removed or changed.
  * `drift_eq_nil`: no issue is found iff every class and every id is found
    again.
  * `drift_congr`: the order in which classes and ids are listed does not
    matter.
-/
import Mathlib.Data.List.Perm.Basic
import Mathlib.Data.List.Pairwise
import ObjectLowering.Proofs.Fingerprints

namespace ObjectLowering

/-! ## Sorted texts -/

namespace Text

theorem pairwise_sortTexts (ts : List String) : (sortTexts ts).Pairwise (· ≤ ·) := by
  have hsorted : (sortTexts ts).Pairwise fun a b => decide (a ≤ b) := by
    refine List.pairwise_mergeSort (fun a b c h h' => ?_) (fun a b => ?_) ts
    · exact decide_eq_true (Std.le_trans (of_decide_eq_true h) (of_decide_eq_true h'))
    · simpa using Std.le_total
  exact hsorted.imp of_decide_eq_true

/-- Texts in another order are sorted in the same way. -/
theorem sortTexts_eq_of_perm {ts ts' : List String} (h : ts.Perm ts') :
    sortTexts ts = sortTexts ts' := by
  have hperm : (sortTexts ts).Perm (sortTexts ts') :=
    (List.mergeSort_perm ..).trans (h.trans (List.mergeSort_perm ..).symm)
  exact hperm.eq_of_pairwise (fun _ _ _ _ => Std.le_antisymm) (pairwise_sortTexts ts)
    (pairwise_sortTexts ts')

end Text

namespace Report

open Data Text

namespace Fingerprint

/-! ## Listings -/

/-- No class is listed twice, and no key of a class. -/
structure Distinct (f : Fingerprint) : Prop where
  classes : ((f.classes.getD []).map (·.1)).Nodup
  ids : ∀ e ∈ f.classes.getD [], ((e.2.getD []).map (·.1)).Nodup

/-- Two fingerprints list the same classes, and the same ids under the same keys. -/
def Agrees (f g : Fingerprint) : Prop :=
  ∀ name, ((f.ids? name).isSome ↔ (g.ids? name).isSome) ∧
    ∀ key, f.recorded name key = g.recorded name key

/-- Every class and every id of a fingerprint is found in another one. -/
def Within (f g : Fingerprint) : Prop :=
  ∀ name, (f.ids? name).isSome → (g.ids? name).isSome ∧
    ∀ key id, f.recorded name key = some id → g.recorded name key = some id

/-! ## Issues -/

/-- What can become of the classes and ids of a fingerprint. -/
inductive Issue where
  | classRemoved (name : String)
  | idRemoved (name key : String)
  | idChanged (name key old new : String)
deriving DecidableEq

namespace Issue

/-- The text of an issue. -/
def text : Issue → String
  | classRemoved name => "class removed: " ++ name
  | idRemoved name key => "class " ++ name ++ " id removed: " ++ key
  | idChanged name key old new =>
    "class " ++ name ++ " id changed: " ++ key ++ " " ++ old ++ " -> " ++ new

/-- The class that an issue is about. -/
def name : Issue → String
  | classRemoved name | idRemoved name _ | idChanged name _ _ _ => name

/-- The key that an issue is about. -/
def key? : Issue → Option String
  | classRemoved _ => none
  | idRemoved _ key | idChanged _ key _ _ => some key

end Issue

/-- An issue that there is between two fingerprints. -/
def Happened (b c : Fingerprint) : Issue → Prop
  | .classRemoved name => (b.ids? name).isSome ∧ c.ids? name = none
  | .idRemoved name key =>
    (b.recorded name key).isSome ∧ (c.ids? name).isSome ∧ c.recorded name key = none
  | .idChanged name key old new =>
    b.recorded name key = some old ∧ c.recorded name key = some new ∧ old ≠ new

/-- The issue of one id. -/
def idIssue (name : String) (now : IdTexts) (key id : String) : Option Issue :=
  match now.lookup key with
  | none => some (.idRemoved name key)
  | some current => if current = id then none else some (.idChanged name key id current)

/-- The issues of one class. -/
def classIssues (current : Fingerprint) (name : String) (ids : IdTexts) : List Issue :=
  match current.ids? name with
  | none => [.classRemoved name]
  | some now => ids.filterMap fun e => idIssue name now e.1 e.2

/-- The issues of all classes, in the order in which these are listed. -/
def issues (b c : Fingerprint) : List Issue :=
  (b.classes.getD []).flatMap fun e => classIssues c e.1 (e.2.getD [])

section
variable {f g b c b' c' : Fingerprint} {name key id : String} {ids now : IdTexts}

theorem Within.refl (f : Fingerprint) : f.Within f := fun _ h => ⟨h, fun _ _ hid => hid⟩

theorem Within.trans (h : b.Within f) (h' : f.Within g) : b.Within g := fun name hname =>
  ⟨(h' name (h name hname).1).1, fun key id hid =>
    (h' name (h name hname).1).2 key id ((h name hname).2 key id hid)⟩

/-- A class that is listed once is found with its ids. -/
theorem Distinct.ids?_eq_some (h : f.Distinct) :
    f.ids? name = some ids ↔ ∃ e ∈ f.classes.getD [], e.1 = name ∧ e.2.getD [] = ids := by
  rw [ids?, Option.map_eq_some_iff]
  constructor
  · rintro ⟨x, hx, rfl⟩
    exact ⟨(name, x), (lookup_eq_some_iff_mem h.classes).1 hx, rfl, rfl⟩
  · rintro ⟨⟨n, x⟩, hmem, rfl, rfl⟩
    exact ⟨x, (lookup_eq_some_iff_mem h.classes).2 hmem, rfl⟩

theorem Distinct.nodup (h : f.Distinct) (hids : f.ids? name = some ids) :
    (ids.map (·.1)).Nodup := by
  obtain ⟨e, he, -, rfl⟩ := h.ids?_eq_some.1 hids
  exact h.ids e he

theorem recorded_eq (hids : f.ids? name = some ids) (key : String) :
    f.recorded name key = ids.lookup key := by
  rw [recorded, hids]
  rfl

theorem isSome_of_recorded (h : f.recorded name key = some id) : (f.ids? name).isSome := by
  obtain ⟨ids, hids, -⟩ := Option.bind_eq_some_iff.1 h
  rw [hids]
  rfl

/-! ## Drift by issues -/

/-- The drift is the sorted texts of the issues. -/
theorem drift_eq (b c : Fingerprint) : drift b c = sortTexts ((issues b c).map Issue.text) := by
  have hid : ∀ name now key id,
      idDrift name now key id = (idIssue name now key id).map Issue.text := by
    intro name now key id
    unfold idDrift idIssue
    cases now.lookup key with
    | none => rfl
    | some current => dsimp only; split_ifs <;> rfl
  have hclass : ∀ name ids, classDrift c name ids = (classIssues c name ids).map Issue.text := by
    intro name ids
    unfold classDrift classIssues
    cases c.ids? name with
    | none => rfl
    | some now =>
      dsimp only
      rw [List.map_filterMap]
      exact congrArg (List.filterMap · ids) (funext fun e => hid name now e.1 e.2)
  rw [drift, issues, List.map_flatMap]
  refine congrArg sortTexts (congrArg (List.flatMap · _) (funext fun e => ?_))
  exact hclass e.1 _

theorem idIssue_eq_some {i : Issue} : idIssue name now key id = some i ↔
    (now.lookup key = none ∧ i = .idRemoved name key) ∨
      ∃ new, now.lookup key = some new ∧ id ≠ new ∧ i = .idChanged name key id new := by
  unfold idIssue
  cases now.lookup key with
  | none => simp [eq_comm]
  | some current =>
    dsimp only
    split_ifs with h
    · simp [h]
    · simp [Ne.symm h, eq_comm]

theorem idIssue_about {i : Issue} (h : idIssue name now key id = some i) :
    i.name = name ∧ i.key? = some key := by
  rcases idIssue_eq_some.1 h with ⟨-, rfl⟩ | ⟨new, -, -, rfl⟩ <;> exact ⟨rfl, rfl⟩

theorem mem_classIssues {i : Issue} : i ∈ classIssues c name ids ↔
    (c.ids? name = none ∧ i = .classRemoved name) ∨
      ∃ now, c.ids? name = some now ∧ ∃ e ∈ ids, idIssue name now e.1 e.2 = some i := by
  unfold classIssues
  cases c.ids? name <;> simp

theorem name_of_mem_classIssues {i : Issue} (h : i ∈ classIssues c name ids) : i.name = name := by
  rcases mem_classIssues.1 h with ⟨-, rfl⟩ | ⟨now, -, e, -, hi⟩
  · rfl
  · exact (idIssue_about hi).1

/-- The issues of a class are what happened to it. -/
theorem mem_classIssues_iff (hb : b.Distinct) (hids : b.ids? name = some ids) {i : Issue} :
    i ∈ classIssues c name ids ↔ i.name = name ∧ Happened b c i := by
  have hid : ∀ {key id}, (key, id) ∈ ids ↔ b.recorded name key = some id := by
    intro key id
    rw [recorded_eq hids, lookup_eq_some_iff_mem (hb.nodup hids)]
  rw [mem_classIssues]
  constructor
  · rintro (⟨hnone, rfl⟩ | ⟨now, hnow, ⟨key, id⟩, he, hi⟩)
    · exact ⟨rfl, by rw [hids]; rfl, hnone⟩
    · have hold := hid.1 he
      rcases idIssue_eq_some.1 hi with ⟨hnone, rfl⟩ | ⟨new, hnew, hne, rfl⟩
      · exact ⟨rfl, by rw [hold]; rfl, by rw [hnow]; rfl, by rw [recorded_eq hnow, hnone]⟩
      · exact ⟨rfl, hold, by rw [recorded_eq hnow, hnew], hne⟩
  · rintro ⟨rfl, hi⟩
    cases i with
    | classRemoved name => exact Or.inl ⟨hi.2, rfl⟩
    | idRemoved name key =>
      obtain ⟨hold, hclass, hnone⟩ := hi
      obtain ⟨id, hold⟩ := Option.isSome_iff_exists.1 hold
      obtain ⟨now, hnow⟩ := Option.isSome_iff_exists.1 hclass
      rw [recorded_eq hnow] at hnone
      exact Or.inr ⟨now, hnow, (key, id), hid.2 hold, idIssue_eq_some.2 (Or.inl ⟨hnone, rfl⟩)⟩
    | idChanged name key old new =>
      obtain ⟨hold, hnew, hne⟩ := hi
      obtain ⟨now, hnow⟩ := Option.isSome_iff_exists.1 (isSome_of_recorded hnew)
      rw [recorded_eq hnow] at hnew
      exact Or.inr ⟨now, hnow, (key, old), hid.2 hold,
        idIssue_eq_some.2 (Or.inr ⟨new, hnew, hne, rfl⟩)⟩

theorem Happened.isSome {i : Issue} (h : Happened b c i) : (b.ids? i.name).isSome := by
  cases i with
  | classRemoved name => exact h.1
  | idRemoved name key =>
    obtain ⟨id, hid⟩ := Option.isSome_iff_exists.1 h.1
    exact isSome_of_recorded hid
  | idChanged name key old new => exact isSome_of_recorded h.1

/-- **There is an issue for everything that happened.** -/
theorem mem_issues (hb : b.Distinct) {i : Issue} : i ∈ issues b c ↔ Happened b c i := by
  rw [issues, List.mem_flatMap]
  constructor
  · rintro ⟨e, he, hi⟩
    have hids : b.ids? e.1 = some (e.2.getD []) := hb.ids?_eq_some.2 ⟨e, he, rfl, rfl⟩
    exact ((mem_classIssues_iff hb hids).1 hi).2
  · intro hi
    obtain ⟨ids, hids⟩ := Option.isSome_iff_exists.1 hi.isSome
    obtain ⟨e, he, hname, rfl⟩ := hb.ids?_eq_some.1 hids
    exact ⟨e, he, (mem_classIssues_iff hb (hname ▸ hids)).2 ⟨hname.symm, hi⟩⟩

/-- **There is no issue twice.** -/
theorem nodup_issues (hb : b.Distinct) (c : Fingerprint) : (issues b c).Nodup := by
  rw [issues, List.Nodup, List.pairwise_flatMap]
  constructor
  · intro e he
    unfold classIssues
    split
    · exact List.pairwise_singleton ..
    · -- issues of one class are about different keys
      rw [List.pairwise_filterMap]
      have hkeys := hb.ids e he
      rw [List.Nodup, List.pairwise_map] at hkeys
      refine hkeys.imp fun hne i hi j hj hij => hne ?_
      rw [← Option.some_inj, ← (idIssue_about hi).2, ← (idIssue_about hj).2, hij]
  · have hnames := hb.classes
    rw [List.Nodup, List.pairwise_map] at hnames
    refine hnames.imp fun hne i hi j hj hij => hne ?_
    rw [← name_of_mem_classIssues hi, ← name_of_mem_classIssues hj, hij]

/-! ## Comparisons -/

/-- **No drift** is found iff every class and every id is found again. -/
theorem drift_eq_nil (hb : b.Distinct) : drift b c = [] ↔ b.Within c := by
  have hnone : drift b c = [] ↔ ∀ i, ¬ Happened b c i := by
    rw [drift_eq, sortTexts_eq_nil, List.map_eq_nil_iff, List.eq_nil_iff_forall_not_mem]
    exact forall_congr' fun i => not_congr (mem_issues hb)
  rw [hnone]
  constructor
  · intro h name hname
    have hclass : (c.ids? name).isSome := by
      by_contra hgone
      exact h (.classRemoved name) ⟨hname, Option.not_isSome_iff_eq_none.1 hgone⟩
    refine ⟨hclass, fun key id hid => ?_⟩
    cases hnow : c.recorded name key with
    | none => exact absurd ⟨by rw [hid]; rfl, hclass, hnow⟩ (h (.idRemoved name key))
    | some new =>
      by_contra hne
      exact h (.idChanged name key id new) ⟨hid, hnow, fun he => hne (congrArg some he.symm)⟩
  · intro h i hi
    cases i with
    | classRemoved name =>
      have hclass := (h name hi.1).1
      rw [hi.2] at hclass
      cases hclass
    | idRemoved name key =>
      obtain ⟨id, hid⟩ := Option.isSome_iff_exists.1 hi.1
      have hkept := (h name (isSome_of_recorded hid)).2 key id hid
      rw [hi.2.2] at hkept
      cases hkept
    | idChanged name key old new =>
      have hkept := (h name (isSome_of_recorded hi.1)).2 key old hi.1
      rw [hi.2.1] at hkept
      exact hi.2.2 (Option.some.inj hkept).symm

theorem happened_congr (hb : b.Agrees b') (hc : c.Agrees c') (i : Issue) :
    Happened b c i ↔ Happened b' c' i := by
  cases i with
  | classRemoved name =>
    rw [Happened, Happened, (hb name).1, ← Option.not_isSome_iff_eq_none,
      ← Option.not_isSome_iff_eq_none, (hc name).1]
  | idRemoved name key =>
    rw [Happened, Happened, (hb name).2 key, (hc name).1, (hc name).2 key]
  | idChanged name key old new =>
    rw [Happened, Happened, (hb name).2 key, (hc name).2 key]

/-- **The order of listings does not matter.** -/
theorem drift_congr (hdistinct : b.Distinct) (hdistinct' : b'.Distinct) (hb : b.Agrees b')
    (hc : c.Agrees c') : drift b c = drift b' c' := by
  rw [drift_eq, drift_eq]
  refine sortTexts_eq_of_perm (List.Perm.map _ ?_)
  refine (List.perm_ext_iff_of_nodup (nodup_issues hdistinct c) (nodup_issues hdistinct' c')).2 ?_
  intro i
  rw [mem_issues hdistinct, mem_issues hdistinct', happened_congr hb hc]

/-- What a comparison with a baseline tells. -/
structure Comparison (baseline current : Fingerprint) : Prop where
  /-- There is one issue for every class that was removed, and for every id that was removed or
      changed. -/
  issues : ∃ is : List Issue, is.Nodup ∧ (∀ i, i ∈ is ↔ Happened baseline current i) ∧
    (drift baseline current).Perm (is.map Issue.text)
  /-- The issues are in ascending order of their texts. -/
  sorted : (drift baseline current).Pairwise (· ≤ ·)
  /-- None is found iff every class and every id is found again. -/
  nil_iff : drift baseline current = [] ↔ baseline.Within current
  /-- The order in which classes and ids are listed does not matter. -/
  order : ∀ baseline' current', Distinct baseline' → baseline.Agrees baseline' →
    current.Agrees current' → drift baseline current = drift baseline' current'

theorem comparison (hb : b.Distinct) (c : Fingerprint) : Comparison b c where
  issues := by
    refine ⟨_, nodup_issues hb c, fun i => mem_issues hb, ?_⟩
    rw [drift_eq]
    exact List.mergeSort_perm ..
  sorted := pairwise_sortTexts _
  nil_iff := drift_eq_nil hb
  order _ _ hb' hagrees hagrees' := drift_congr hb hb' hagrees hagrees'

end

end Fingerprint

end Report

end ObjectLowering
