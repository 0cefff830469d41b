/-
  The transition that an event takes.

  * `Machine.candidates` are the transitions that an event triggers, with
    their sources (`mem_candidates`), and `Machine.Chosen` says which of them
    is to be taken: of those whose source is active and whose guard is true
    the one with the deepest source, and of several the first.
  * `eventSwitch_taken_iff`: that is the branch which the switch of the event
    executes.  Inside a case this is stability of the sorting by depth
    (`find?_mergeSort`); a candidate that is ready stands in the case of the
    value of the top level (`ready_iff`).
-/
import Mathlib.Data.List.Induction
import ObjectLowering.Proofs.Execution

namespace ObjectLowering.Lowering

open Model Code

/-! ## Groups -/

/-- The groups: every label once, in order, with its branches in order. -/
theorem foldl_addToGroup (xs : List (String × Branch)) :
    xs.foldl (fun gs x => Machine.addToGroup gs x.1 x.2) [] =
      (xs.map (·.1)).eraseDups.map fun label =>
        (label, (xs.filter fun x => x.1 == label).map (·.2)) := by
  induction xs using List.reverseRecOn with
  | nil => rfl
  | append_singleton xs x ih =>
    have hany : ((xs.map (·.1)).eraseDups.map fun label =>
        (label, (xs.filter fun x => x.1 == label).map (·.2))).any (·.1 == x.1) = true ↔
        x.1 ∈ xs.map (·.1) := by
      simp [List.mem_eraseDups]
    rw [List.foldl_append, ih, List.foldl_cons, List.foldl_nil, Machine.addToGroup,
      List.map_append, List.eraseDups_append]
    split_ifs with h
    · have hx : x.1 ∈ xs.map (·.1) := hany.1 h
      have hnone : ([x].map (·.1)).removeAll (xs.map (·.1)) = [] := by
        simpa [List.removeAll] using hx
      rw [hnone, List.eraseDups_nil, List.append_nil, List.map_map]
      refine List.map_congr_left fun label _ => ?_
      by_cases hl : label = x.1
      · simp [hl]
      · simp [hl, Ne.symm hl]
    · have hx : x.1 ∉ xs.map (·.1) := fun hx => h (hany.2 hx)
      have hone : ([x].map (·.1)).removeAll (xs.map (·.1)) = [x.1] := by
        simpa [List.removeAll] using hx
      rw [hone, List.map_append]
      congr 1
      · refine List.map_congr_left fun label hlabel => ?_
        have hne : x.1 ≠ label := fun he => hx (he ▸ List.mem_eraseDups.1 hlabel)
        simp [hne]
      · have hempty : xs.filter (fun y => y.1 == x.1) = [] := by
          rw [List.filter_eq_nil_iff]
          exact fun y hy he => hx (List.mem_map.2 ⟨y, hy, beq_iff_eq.1 he⟩)
        simp [List.eraseDups_cons, hempty]

section
variable {α : Type} (depth : α → Nat) {xs : List α}

theorem pairwise_mergeSort_depth (xs : List α) :
    (xs.mergeSort fun x y => decide (depth y ≤ depth x)).Pairwise
      fun x y => depth y ≤ depth x := by
  have hsorted : (xs.mergeSort fun x y => decide (depth y ≤ depth x)).Pairwise
      fun x y => decide (depth y ≤ depth x) = true :=
    List.pairwise_mergeSort (by simp only [decide_eq_true_eq]; omega)
      (by simp only [Bool.or_eq_true, decide_eq_true_eq]; omega) xs
  exact hsorted.imp fun h => of_decide_eq_true h

/-- A list that is sorted by depth ends with what has none. -/
theorem filter_append_of_pairwise
    (h : xs.Pairwise fun x y => depth y ≤ depth x) :
    xs.filter (fun x => depth x != 0) ++ xs.filter (fun x => depth x == 0) = xs := by
  induction xs with
  | nil => rfl
  | cons x xs ih =>
    obtain ⟨hx, hxs⟩ := List.pairwise_cons.1 h
    by_cases h0 : depth x = 0
    · have hall : ∀ y ∈ xs, depth y = 0 := by
        intro y hy
        have hle := hx y hy
        omega
      have hdeep : xs.filter (fun x => depth x != 0) = [] :=
        List.filter_eq_nil_iff.2 (by simpa using hall)
      have houter : xs.filter (fun x => depth x == 0) = xs :=
        List.filter_eq_self.2 (by simpa using hall)
      simp [h0, hdeep, houter]
    · rw [List.filter_cons_of_pos (by simpa using h0), List.filter_cons_of_neg (by simpa using h0),
        List.cons_append, ih hxs]

/-- Sorting by depth is stable: the elements of one depth stand in their old order. -/
theorem filter_mergeSort_depth (xs : List α) (d : Nat) :
    (xs.mergeSort fun x y => decide (depth y ≤ depth x)).filter (fun x => depth x == d) =
      xs.filter fun x => depth x == d := by
  have hpair : (xs.filter fun x => depth x == d).Pairwise
      fun x y => decide (depth y ≤ depth x) = true := by
    refine List.pairwise_of_forall_mem_list fun x hx y hy => ?_
    rw [List.mem_filter, beq_iff_eq] at hx hy
    simp [hx.2, hy.2]
  have hsub := (List.sublist_mergeSort (by simp only [decide_eq_true_eq]; omega)
    (by simp only [Bool.or_eq_true, decide_eq_true_eq]; omega) hpair List.filter_sublist).filter
      fun x => depth x == d
  rw [List.filter_filter] at hsub
  simp only [Bool.and_self] at hsub
  exact (hsub.eq_of_length ((List.mergeSort_perm xs _).symm.filter _).length_eq).symm

/-- The first hit in a list that is sorted by depth is the first among the deepest hits. -/
theorem find?_mergeSort {p : α → Bool} {b : α}
    (h : (xs.mergeSort fun x y => decide (depth y ≤ depth x)).find? p = some b) :
    xs.find? (fun x => p x && depth x == depth b) = some b ∧
      ∀ x ∈ xs, p x = true → depth x ≤ depth b := by
  have hsame := filter_mergeSort_depth depth xs (depth b)
  have hsorted := pairwise_mergeSort_depth depth xs
  have hperm := List.mergeSort_perm xs fun x y => decide (depth y ≤ depth x)
  obtain ⟨hb, before, after, hsplit, hbefore⟩ := List.find?_eq_some_iff_append.1 h
  constructor
  · have hfind : (xs.filter fun x => depth x == depth b).find? p = some b := by
      rw [← hsame, List.find?_filter]
      refine List.find?_eq_some_iff_append.2 ⟨by simp [hb], before, after, hsplit, fun a ha => ?_⟩
      have hnot : p a = false := by simpa using hbefore a ha
      simp [hnot]
    rw [List.find?_filter] at hfind
    rw [← hfind]
    congr 1
    funext x
    rw [Bool.and_comm, Bool.decide_and, Bool.decide_eq_true, Bool.decide_eq_true]
  · intro x hx hp
    have hx : x ∈ before ++ b :: after := hsplit ▸ hperm.mem_iff.2 hx
    rcases List.mem_append.1 hx with hx | hx
    · exact absurd hp (by simpa using hbefore x hx)
    · rcases List.mem_cons.1 hx with rfl | hx
      · exact Nat.le_refl _
      · rw [hsplit] at hsorted
        exact (List.pairwise_cons.1 (List.pairwise_append.1 hsorted).2.1).1 x hx

end

/-! ## Candidates -/

namespace Machine

/-- The transitions that an event triggers, level by level and state by state, each with its
    source. -/
def candidates (m : Machine) (r : Registry) (event : String) :
    List (Level × State × Transition) :=
  ((m.triggered r).filter fun x => x.1 == event).map (·.2)

/-- A transition is ready: its source is active, at a depth, and its guard is blank or true. -/
def Ready (m : Machine) (σ : Store) (γ : String → Bool) (x : Level × State × Transition)
    (depth : Nat) : Prop :=
  m.Active σ x.1 (.state x.2.1) depth ∧
    (Text.trim x.2.2.guard = "" ∨ γ (Text.trim x.2.2.guard) = true)

/-- **The transition to be taken**: ready, deeper than the ready ones before it, and at least as
    deep as those behind it. -/
def Chosen (m : Machine) (r : Registry) (event : String) (σ : Store) (γ : String → Bool)
    (x : Level × State × Transition) : Prop :=
  ∃ before after depth, m.candidates r event = before ++ x :: after ∧ m.Ready σ γ x depth ∧
    (∀ y ∈ before, ∀ d, m.Ready σ γ y d → d < depth) ∧
    ∀ y ∈ after, ∀ d, m.Ready σ γ y d → d ≤ depth

/-- The labelled branch of a candidate. -/
def branchAt (m : Machine) (r : Registry) (x : Level × State × Transition) : String × Branch :=
  m.triggeredBranch r x.1 x.2.1 x.2.2

end Machine

section
variable {r : Registry} {m : Machine} {event : String} {σ : Store} {γ : String → Bool}

theorem Level.mem_states {l : Level} {s : State} :
    s ∈ l.states ↔ .state s ∈ l.vertices ∧ s.isFinal = false := by
  rw [states, List.mem_filterMap]
  constructor
  · rintro ⟨v, hv, hs⟩
    cases v with
    | pseudo p => cases hs
    | state s' =>
      simp only [Option.ite_none_left_eq_some, Bool.not_eq_true, Option.some.injEq] at hs
      obtain ⟨hf, rfl⟩ := hs
      exact ⟨hv, hf⟩
  · rintro ⟨hv, hf⟩
    exact ⟨_, hv, by simp [hf]⟩

theorem mem_candidates {x : Level × State × Transition} :
    x ∈ m.candidates r event ↔
      x.1 ∈ m.levels ∧ .state x.2.1 ∈ x.1.vertices ∧ x.2.1.isFinal = false ∧
        x.2.2 ∈ (r.owned x.2.1.id).outgoing ∧
        ∃ e ∈ x.2.2.triggers, ∃ ev, r.event? e = some ev ∧ ident ev.name = event := by
  obtain ⟨l, s, t⟩ := x
  constructor
  · intro h
    obtain ⟨⟨e, x⟩, hx, rfl⟩ := List.mem_map.1 h
    obtain ⟨hx, he⟩ := List.mem_filter.1 hx
    simp only [Machine.triggered, List.mem_flatMap, List.mem_filterMap, Option.map_eq_some_iff,
      Prod.mk.injEq] at hx
    obtain ⟨l', hl, s', hs, t', ht, e', he', ev, hev, hname, rfl, rfl, rfl⟩ := hx
    obtain ⟨hs, hf⟩ := Level.mem_states.1 hs
    exact ⟨hl, hs, hf, ht, e', he', ev, hev, hname.trans (beq_iff_eq.1 he)⟩
  · rintro ⟨hl, hs, hf, ht, e, he, ev, hev, hname⟩
    refine List.mem_map.2 ⟨(event, l, s, t), List.mem_filter.2 ⟨?_, beq_self_eq_true event⟩, rfl⟩
    simp only [Machine.triggered, List.mem_flatMap, List.mem_filterMap, Option.map_eq_some_iff,
      Prod.mk.injEq]
    exact ⟨l, hl, s, Level.mem_states.2 ⟨hs, hf⟩, t, ht, e, he, ev, hev, hname, rfl, rfl, rfl⟩

/-- The cases of the switch of an event. -/
theorem eventSwitch_groups (m : Machine) (r : Registry) (event : String) :
    (m.eventSwitch r event).groups =
      (((m.candidates r event).map (m.branchAt r)).map (·.1)).eraseDups.map fun label =>
        (label, ((((m.candidates r event).map (m.branchAt r)).filter
          fun x => x.1 == label).map (·.2)).mergeSort
            fun a b => decide (b.tests.length ≤ a.tests.length)) := by
  have hgroups : (m.eventSwitch r event).groups =
      (((m.candidates r event).map (m.branchAt r)).foldl
        (fun gs x => Machine.addToGroup gs x.1 x.2) []).map fun g =>
          (g.1, g.2.mergeSort fun a b => decide (b.tests.length ≤ a.tests.length)) := by
    rw [List.foldl_map, Machine.candidates, List.foldl_map]
    rfl
  rw [hgroups, foldl_addToGroup, List.map_map]
  rfl

end

/-! ## Readiness -/

section
variable {r : Registry} {sm : StateMachine} {l : Level} {s : State} {event : String} {σ : Store}
  {γ : String → Bool} {x y : Level × State × Transition}

/-- The outermost setting of an active state is that of a state of the top level. -/
theorem activeSettings_reverse (hl : l ∈ levelsOf r sm) (hs : .state s ∈ l.vertices)
    (hf : s.isFinal = false) :
    ∃ s₀ nested, .state s₀ ∈ (topLevel r sm).vertices ∧ s₀.isFinal = false ∧
      (l.activeSettings (.state s)).reverse = settingAt (topLevel r sm, s₀) :: nested ∧
      nested.length = l.ascent.length := by
  refine levels_induction (P := fun l => ∀ s, .state s ∈ l.vertices → s.isFinal = false →
    ∃ s₀ nested, .state s₀ ∈ (topLevel r sm).vertices ∧ s₀.isFinal = false ∧
      (l.activeSettings (.state s)).reverse = settingAt (topLevel r sm, s₀) :: nested ∧
      nested.length = l.ascent.length) ?_ ?_ l hl s hs hf
  · intro s hs hf
    exact ⟨s, [], hs, hf, rfl, rfl⟩
  · intro l s _ hs hf _ _ ih s' _ _
    obtain ⟨s₀, nested, hs₀, hf₀, heq, hlength⟩ := ih s hs hf
    refine ⟨s₀, nested ++ [settingAt (l.insideOf r s, s')], hs₀, hf₀, ?_, ?_⟩
    · have hsettings : (l.insideOf r s).activeSettings (.state s') =
          settingAt (l.insideOf r s, s') :: l.activeSettings (.state s) := rfl
      rw [hsettings, List.reverse_cons, heq]
      rfl
    · have hascent : (l.insideOf r s).ascent.length = l.ascent.length + 1 := rfl
      rw [hascent, List.length_append, hlength]
      rfl

theorem eventSwitch_var (r : Registry) (sm : StateMachine) (event : String) :
    ((Machine.of r sm).eventSwitch r event).var = (topLevel r sm).variableName := rfl

variable {m : Machine} (hm : m = Machine.of r sm)
include hm

/-- The label of a candidate is the enumerator of a top-level state. -/
theorem label_of_mem_candidates (hx : x ∈ m.candidates r event) :
    ∃ s₀, .state s₀ ∈ (topLevel r sm).vertices ∧ s₀.isFinal = false ∧
      (m.branchAt r x).1 = (topLevel r sm).stateConstant s₀ := by
  subst hm
  obtain ⟨hl, hs, hf, -⟩ := mem_candidates.1 hx
  obtain ⟨s₀, nested, hs₀, hf₀, heq, -⟩ := activeSettings_reverse hl hs hf
  refine ⟨s₀, hs₀, hf₀, ?_⟩
  rw [Machine.branchAt, Machine.triggeredBranch, heq]
  rfl

/-- Candidates are in one case if their labels have one value. -/
theorem label_eq_of_value (hx : x ∈ m.candidates r event) (hy : y ∈ m.candidates r event)
    (h : m.value (m.branchAt r x).1 = m.value (m.branchAt r y).1) :
    (m.branchAt r x).1 = (m.branchAt r y).1 := by
  obtain ⟨s, hs, hf, hxs⟩ := label_of_mem_candidates hm hx
  obtain ⟨s', hs', hf', hys⟩ := label_of_mem_candidates hm hy
  subst hm
  rw [hxs, hys] at h ⊢
  exact value_injOn_top hs hf hs' hf' h

/-- A candidate is ready if the top level holds its label and its branch is enabled. -/
theorem ready_iff (hr : r.WellNested) (hsm : .stateMachine sm ∈ r.elements)
    (hx : x ∈ m.candidates r event) (depth : Nat) :
    m.Ready σ γ x depth ↔
      m.value (m.branchAt r x).1 = σ (topLevel r sm).variableName ∧
      (m.branchAt r x).2.Enabled m.value σ γ ∧ (m.branchAt r x).2.tests.length = depth := by
  subst hm
  obtain ⟨l, s, t⟩ := x
  obtain ⟨hl, hs, hf, -⟩ := mem_candidates.1 hx
  obtain ⟨s₀, nested, -, -, heq, hlength⟩ := activeSettings_reverse hl hs hf
  have hbranch : (Machine.of r sm).branchAt r (l, s, t) =
      ((topLevel r sm).stateConstant s₀, (Machine.of r sm).branch r nested t) := by
    rw [Machine.branchAt, Machine.triggeredBranch, heq]
    rfl
  have hholds : (∀ z ∈ l.activeSettings (.state s), z.Holds (Machine.of r sm).value σ) ↔
      (settingAt (topLevel r sm, s₀)).Holds (Machine.of r sm).value σ ∧
        ∀ z ∈ nested, z.Holds (Machine.of r sm).value σ := by
    rw [← List.forall_mem_cons, ← heq]
    simp only [List.mem_reverse]
  rw [hbranch, Machine.Ready, active_iff hr hsm hl, hholds, ← hlength]
  simp only [Branch.Enabled, Machine.branch, Setting.Holds, settingAt]
  constructor
  · rintro ⟨⟨hd, hlabel, htests⟩, hguard⟩
    exact ⟨hlabel.symm, ⟨htests, hguard⟩, hd⟩
  · rintro ⟨hlabel, ⟨htests, hguard⟩, hd⟩
    exact ⟨⟨hd, hlabel.symm, htests⟩, hguard⟩

end

/-! ## The branch taken -/

section
variable {r : Registry} {sm : StateMachine} {m : Machine} {event : String} {σ : Store}
  {γ : String → Bool} {x y : Level × State × Transition}

theorem Machine.Chosen.unique (hx : m.Chosen r event σ γ x) (hy : m.Chosen r event σ γ y) :
    x = y := by
  obtain ⟨before, after, d, hsplit, hd, hbefore, hafter⟩ := hx
  obtain ⟨before', after', d', hsplit', hd', hbefore', hafter'⟩ := hy
  rw [hsplit] at hsplit'
  rcases List.append_eq_append_iff.1 hsplit' with ⟨as, hb, ha⟩ | ⟨as, hb, ha⟩
  · cases as with
    | nil => exact (List.cons.inj ha).1
    | cons z as =>
      obtain ⟨rfl, rfl⟩ := List.cons.inj ha
      have hlt := hbefore' x (by simp [hb]) d hd
      have hle := hafter y (by simp) d' hd'
      omega
  · cases as with
    | nil => exact (List.cons.inj ha).1.symm
    | cons z as =>
      obtain ⟨rfl, rfl⟩ := List.cons.inj ha
      have hlt := hbefore y (by simp [hb]) d' hd'
      have hle := hafter' x (by simp) d hd
      omega

/-- The branch that the switch of an event executes: of the case of the top-level value the first
    enabled one, by depth. -/
theorem eventSwitch_taken (hm : m = Machine.of r sm) (event : String) (σ : Store)
    (γ : String → Bool) :
    (m.eventSwitch r event).taken m.value σ γ =
      ((((m.candidates r event).map (m.branchAt r)).map (·.1)).eraseDups.find? fun label =>
        m.value label = σ (topLevel r sm).variableName).bind fun label =>
          (((((m.candidates r event).map (m.branchAt r)).filter fun x => x.1 == label).map
            (·.2)).mergeSort fun a b => decide (b.tests.length ≤ a.tests.length)).find?
              fun b => b.Enabled m.value σ γ := by
  have hvar : (m.eventSwitch r event).var = (topLevel r sm).variableName := by
    rw [hm, eventSwitch_var]
  rw [EventSwitch.taken, eventSwitch_groups, List.find?_map, Option.bind_map, hvar]
  simp only [Function.comp_def, Branch.taken_eq]

variable (hm : m = Machine.of r sm) (hr : r.WellNested) (hsm : .stateMachine sm ∈ r.elements)
include hm hr hsm

/-- A branch that the switch executes is that of the transition to be taken. -/
theorem chosen_of_taken {b : Branch} (h : (m.eventSwitch r event).taken m.value σ γ = some b) :
    ∃ x, m.Chosen r event σ γ x ∧ (m.branchAt r x).2 = b := by
  rw [eventSwitch_taken hm, Option.bind_eq_some_iff] at h
  obtain ⟨label, hlabel, hb⟩ := h
  have hvalue : m.value label = σ (topLevel r sm).variableName := by
    simpa using List.find?_some hlabel
  obtain ⟨hfirst, hdeepest⟩ := find?_mergeSort (fun b : Branch => b.tests.length) hb
  rw [List.find?_map, List.find?_filter, List.find?_map] at hfirst
  obtain ⟨_, hfirst, rfl⟩ := Option.map_eq_some_iff.1 hfirst
  obtain ⟨x, hfirst, rfl⟩ := Option.map_eq_some_iff.1 hfirst
  obtain ⟨hx, before, after, hsplit, hbefore⟩ := List.find?_eq_some_iff_append.1 hfirst
  have hmem : x ∈ m.candidates r event := by simp [hsplit]
  simp only [Function.comp_apply, beq_iff_eq, Bool.and_eq_true, decide_eq_true_eq] at hx
  obtain ⟨hxlabel, henabled, -⟩ := hx
  -- a ready candidate has the label of the case, and is no deeper than the branch
  have hready : ∀ y ∈ m.candidates r event, ∀ d, m.Ready σ γ y d →
      (m.branchAt r y).1 = label ∧ (m.branchAt r y).2.Enabled m.value σ γ ∧
        (m.branchAt r y).2.tests.length = d ∧ d ≤ (m.branchAt r x).2.tests.length := by
    intro y hy d hd
    obtain ⟨hylabel, hyenabled, rfl⟩ := (ready_iff hm hr hsm hy d).1 hd
    have heq : (m.branchAt r y).1 = label := by
      rw [← hxlabel]
      refine label_eq_of_value hm hy hmem ?_
      rw [hylabel, hxlabel, hvalue]
    refine ⟨heq, hyenabled, rfl, hdeepest _ (List.mem_map_of_mem (List.mem_filter.2
      ⟨List.mem_map_of_mem hy, beq_iff_eq.2 heq⟩)) (decide_eq_true hyenabled)⟩
  refine ⟨x, ⟨before, after, _, hsplit, (ready_iff hm hr hsm hmem _).2 ⟨?_, henabled, rfl⟩, ?_, ?_⟩,
    rfl⟩
  · rw [hxlabel, hvalue]
  · intro y hy d hd
    obtain ⟨heq, hyenabled, hyd, hle⟩ := hready y (by simp [hsplit, hy]) d hd
    have hnot := hbefore y hy
    simp only [Function.comp_apply, heq, hyenabled, decide_true, Bool.true_and,
      true_and, Bool.not_eq_true', decide_eq_false_iff_not, beq_iff_eq] at hnot
    omega
  · intro y hy d hd
    exact (hready y (by simp [hsplit, hy]) d hd).2.2.2

/-- No branch is executed only if nothing is ready. -/
theorem not_ready_of_taken_eq_none (h : (m.eventSwitch r event).taken m.value σ γ = none)
    (hx : x ∈ m.candidates r event) (depth : Nat) : ¬ m.Ready σ γ x depth := by
  intro hready
  obtain ⟨hlabel, henabled, -⟩ := (ready_iff hm hr hsm hx depth).1 hready
  rw [eventSwitch_taken hm, Option.bind_eq_none_iff] at h
  have hlisted : (m.branchAt r x).1 ∈
      (((m.candidates r event).map (m.branchAt r)).map (·.1)).eraseDups :=
    List.mem_eraseDups.2 (List.mem_map_of_mem (List.mem_map_of_mem hx))
  cases hfind : (((m.candidates r event).map (m.branchAt r)).map (·.1)).eraseDups.find?
      (fun label => decide (m.value label = σ (topLevel r sm).variableName)) with
  | none => exact absurd (decide_eq_true hlabel) (List.find?_eq_none.1 hfind _ hlisted)
  | some label =>
    have hvalue : m.value label = σ (topLevel r sm).variableName := by
      simpa using List.find?_some hfind
    obtain ⟨_, hmap, rfl⟩ := List.mem_map.1 (List.mem_eraseDups.1 (List.mem_of_find?_eq_some hfind))
    obtain ⟨z, hz, rfl⟩ := List.mem_map.1 hmap
    have heq : (m.branchAt r x).1 = (m.branchAt r z).1 := by
      refine label_eq_of_value hm hx hz ?_
      rw [hlabel, hvalue]
    have hnone := List.find?_eq_none.1 (h _ hfind)
    refine hnone (m.branchAt r x).2 ?_ (decide_eq_true henabled)
    refine List.mem_mergeSort.2 (List.mem_map_of_mem (List.mem_filter.2 ⟨?_, beq_iff_eq.2 heq⟩))
    exact List.mem_map_of_mem hx

end

/-- **The switch of an event takes the deepest transition that is ready, and of several the first**,
    for every machine, valuation of the state variables and truth of the guards.  What it executes
    are the moves of that transition; nothing is executed iff nothing is ready; and the branches
    behind the first unconditional one of a case, which are not written, are not missed. -/
theorem eventSwitch_taken_iff {r : Registry} {sm : StateMachine} {owner : String} {m : Machine}
    (hr : r.Built) (hsm : sm ∈ (r.owned owner).machines) (hm : m = .of r sm) (event : String)
    (σ : Store) (γ : String → Bool) :
    (∀ t moves,
      (∃ b, (m.eventSwitch r event).taken m.value σ γ = some b ∧ b.transition = t ∧
        b.moves = moves) ↔
      ∃ l s, m.Chosen r event σ γ (l, s, t) ∧ moves = m.moves r t) ∧
    ((m.eventSwitch r event).taken m.value σ γ = none ↔
      ∀ x ∈ m.candidates r event, ∀ depth, ¬ m.Ready σ γ x depth) ∧
    ∀ g ∈ (m.eventSwitch r event).groups, chainEdits g.2 = chainEdits (Branch.reachable g.2) := by
  have hn := hr.wellNested
  have hmachine := hn.machines owner sm hsm
  have hbranch : ∀ x, (m.branchAt r x).2.transition = x.2.2 ∧
      (m.branchAt r x).2.moves = m.moves r x.2.2 := by
    intro x
    rw [Machine.branchAt, Machine.triggeredBranch]
    split <;> exact ⟨rfl, rfl⟩
  refine ⟨fun t moves => ⟨?_, ?_⟩,
    ⟨fun h x hx => not_ready_of_taken_eq_none hm hn hmachine h hx, fun h => ?_⟩,
    fun g _ => (chainEdits_reachable g.2).symm⟩
  · rintro ⟨b, hb, rfl, rfl⟩
    obtain ⟨⟨l, s, t⟩, hx, rfl⟩ := chosen_of_taken hm hn hmachine hb
    rw [(hbranch (l, s, t)).1, (hbranch (l, s, t)).2]
    exact ⟨l, s, hx, rfl⟩
  · rintro ⟨l, s, hx, rfl⟩
    cases htaken : (m.eventSwitch r event).taken m.value σ γ with
    | none =>
      obtain ⟨before, after, depth, hsplit, hready, -⟩ := hx
      have hmem : (l, s, t) ∈ m.candidates r event := by simp [hsplit]
      exact absurd hready (not_ready_of_taken_eq_none hm hn hmachine htaken hmem depth)
    | some b =>
      obtain ⟨y, hy, rfl⟩ := chosen_of_taken hm hn hmachine htaken
      obtain rfl := hx.unique hy
      exact ⟨_, rfl, (hbranch (l, s, t)).1, (hbranch (l, s, t)).2⟩
  · cases htaken : (m.eventSwitch r event).taken m.value σ γ with
    | none => rfl
    | some b =>
      obtain ⟨y, ⟨before, after, depth, hsplit, hready, -⟩, -⟩ :=
        chosen_of_taken hm hn hmachine htaken
      exact absurd hready (h y (by simp [hsplit]) depth)

/-! A pump is idle or runs, and runs slowly or fast.  Both the running pump and, if it may, the slow
    one react to the event `Go`. -/

def pumpMachine : StateMachine := { id := "m", name := "M", parent := "pump" }

def pumpRun : State := { id := "run", name := "Run", parent := "m" }

def pumpSlow : State := { id := "slow", name := "Slow", parent := "run" }

def pumpStop : Transition := { id := "t1", source := "run", target := "idle", triggers := ["go"] }

def pumpSpeedUp : Transition :=
  { id := "t2", source := "slow", target := "fast", guard := " mayHurry ", triggers := ["go"] }

def pumpStation : Registry := Registry.prepare { elements := [
  .classifier { id := "pump", name := "Pump", stereotype := "SimObject" },
  .event { id := "go", name := "Go" },
  .stateMachine pumpMachine,
  .state { id := "idle", name := "Idle", parent := "m" },
  .state pumpRun,
  .state pumpSlow,
  .state { id := "fast", name := "Fast", parent := "run" },
  .transition pumpStop,
  .transition pumpSpeedUp] }

/-- The level inside the running pump. -/
def pumpSpeeds : Level := (topLevel pumpStation pumpMachine).insideOf pumpStation pumpRun

/-- The machine of the pump with its levels written out. -/
def pumpLevels : Machine := ⟨pumpMachine, [topLevel pumpStation pumpMachine, pumpSpeeds]⟩

theorem pumpLevels_eq : pumpLevels = Machine.of pumpStation pumpMachine := by
  have htrees : pumpStation.machineTrees pumpMachine.id =
      [.state _ [], .state pumpRun [.state pumpSlow [], .state _ []]] := rfl
  rw [Machine.of, levelsOf_eq, htrees]
  simp only [nestedLevels]
  rfl

/-- The pump runs slowly. -/
def slowPump : Store := fun x => if x = "state_M" then .ordinal 1 else .ordinal 0

theorem slowPump_taken :
    pumpStation.Built ∧ pumpMachine ∈ (pumpStation.owned "pump").machines ∧
    pumpLevels = Machine.of pumpStation pumpMachine ∧
    ∃ b, (pumpLevels.eventSwitch pumpStation "Go").taken pumpLevels.value slowPump
      (fun _ => true) = some b ∧ b.transition = pumpSpeedUp ∧
      b.moves = pumpLevels.moves pumpStation pumpSpeedUp := by
  have hbuilt : pumpStation.Built := .prepare (.loaded (by decide +kernel))
  have hmachine : pumpMachine ∈ (pumpStation.owned "pump").machines := by decide +kernel
  have htop : pumpLevels.Around (topLevel pumpStation pumpMachine) [] :=
    .top (by decide +kernel) rfl
  have hslow : pumpLevels.Around pumpSpeeds [(topLevel pumpStation pumpMachine, pumpRun)] :=
    .inside htop (by decide +kernel) (by decide +kernel) rfl
  have hchosen : pumpLevels.Chosen pumpStation "Go" slowPump (fun _ => true)
      (pumpSpeeds, pumpSlow, pumpSpeedUp) := by
    refine ⟨[(topLevel pumpStation pumpMachine, pumpRun, pumpStop)], [], 1, by decide +kernel,
      ⟨⟨_, hslow, rfl, by decide +kernel, by decide +kernel⟩, Or.inr rfl⟩, ?_, by simp⟩
    intro y hy d hready
    obtain rfl := List.mem_singleton.1 hy
    obtain ⟨⟨ls, hls, rfl, -⟩, -⟩ := hready
    cases hls with
    | top => exact Nat.one_pos
    | inside _ _ _ ho => cases ho
  exact ⟨hbuilt, hmachine, pumpLevels_eq, ((eventSwitch_taken_iff hbuilt hmachine pumpLevels_eq
    "Go" slowPump fun _ => true).1 _ _).2 ⟨_, _, hchosen, rfl⟩⟩

end ObjectLowering.Lowering
