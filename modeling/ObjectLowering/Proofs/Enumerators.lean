/-
  The enumerators in the code of a state machine.

  * `Machine.uses` lists what the code uses of enumerators: as labels of
    cases, in comparisons and in assignments.  `Machine.declared` are those
    that the enumerations of the levels declare.
  * What a transition into a vertex uses is declared, unless the vertex is an
    initial pseudostate beside the first one of the machine (`enter_declared`).
    Such a pseudostate has no enumerator, and nothing is assigned.
  * So these transitions decide whether the code uses declared enumerators
    only (`lowerClass_enumerators`, `valve_assigns_nothing`).
-/
import ObjectLowering.Proofs.Branches
import ObjectLowering.Proofs.Entering
import ObjectLowering.Proofs.LevelNames

namespace ObjectLowering.Lowering

open Model Code Text

/-! ## Uses -/

/-- How the code uses an enumerator. -/
inductive Use where
  /-- The label of a case. -/
  | label
  /-- A state variable is compared with it. -/
  | comparison
  /-- A state variable is set to it, or has it as its first value. -/
  | assignment
deriving DecidableEq, Repr

/-- What the fallback of a level with history uses. -/
def Restore.uses (x : Restore) : List (Use × String) :=
  [(.comparison, x.unset), (.comparison, x.terminal), (.assignment, x.entry)]

/-- What a move uses. -/
def Move.uses : Move → List (Use × String)
  | .assign s => [(.assignment, s.enumerator)]
  | .restore x => x.uses
  | .run _ => []

/-- What a branch uses. -/
def Branch.uses (b : Branch) : List (Use × String) :=
  b.tests.map (fun s => (.comparison, s.enumerator)) ++ b.moves.flatMap Move.uses

/-- What the written branches of a chain use. -/
def chainUses (bs : List Branch) : List (Use × String) := (Branch.reachable bs).flatMap Branch.uses

/-- What a case of a step function uses. -/
def StepCase.uses : StepCase → List (Use × String)
  | .initial label branches => (.label, label) :: chainUses branches
  | .state label inside _ =>
    (.label, label) :: ((inside.bind (·.restore)).map Restore.uses).getD []

/-- What a step function uses. -/
def StepFunction.uses (f : StepFunction) : List (Use × String) :=
  f.cases.flatMap StepCase.uses ++
    if f.level.finals.isEmpty then [] else [(.label, f.level.terminal)]

/-- What the switch of an event uses. -/
def EventSwitch.uses (s : EventSwitch) : List (Use × String) :=
  s.groups.flatMap fun g => (.label, g.1) :: chainUses g.2

namespace Machine

/-- What the code of a machine uses: the first values of its variables, and its functions. -/
def uses (m : Machine) (r : Registry) (events : List String) : List (Use × String) :=
  m.levels.map (fun l => (.assignment, initialValue r l)) ++
  (m.stepFunctions r).flatMap StepFunction.uses ++
  (m.stateFunctions r).flatMap (fun f => chainUses f.branches) ++
  events.flatMap fun e => (m.eventSwitch r e).uses

/-- The enumerators that the levels of a machine declare. -/
def declared (m : Machine) : List String := m.levels.flatMap fun l => l.enumerators.map (·.1)

end Machine

/-- An initial pseudostate of a machine, outside of states, beside the first one. -/
def IsSpare (r : Registry) (sm : StateMachine) (p : PseudoState) : Prop :=
  p.pseudoKind = .initial ∧ .pseudo p ∈ (topLevel r sm).vertices ∧
    (topLevel r sm).initial? ≠ some p

section
variable {r : Registry} {m : Machine} {events : List String} {x : Use × String} {b : Branch}
  {l : Level} {s : State}

theorem Level.mem_enumerators {e : String} :
    e ∈ l.enumerators.map (·.1) ↔
      e ∈ l.ordinals ∨ e = l.count ∨ e = l.unset ∨ e = l.terminal ∨ e ∈ l.finals := by
  simp [Level.enumerators_names]

theorem Level.stateConstant_mem (hs : .state s ∈ l.vertices) :
    l.stateConstant s ∈ l.enumerators.map (·.1) := by
  rw [Level.mem_enumerators]
  cases hf : s.isFinal with
  | false => exact Or.inl (Level.stateConstant_mem_ordinals hs hf)
  | true =>
    refine Or.inr (Or.inr (Or.inr (Or.inr (List.mem_filterMap.2 ⟨_, hs, ?_⟩))))
    simp [hf]

theorem Level.initialConstant_mem {p : PseudoState} (hp : .pseudo p ∈ l.vertices)
    (hi : l.isInitial p = true) : l.initialConstant p ∈ l.enumerators.map (·.1) := by
  rw [Level.mem_enumerators]
  exact Or.inl (List.mem_filterMap.2 ⟨_, hp, by simp [hi]⟩)

theorem mem_declared {e : String} (hl : l ∈ m.levels) (he : e ∈ l.enumerators.map (·.1)) :
    e ∈ m.declared := List.mem_flatMap.2 ⟨l, hl, he⟩

/-- Enumerators have a name. -/
theorem ne_empty_of_mem_declared {e : String} (h : e ∈ m.declared) : e ≠ "" := by
  obtain ⟨l, -, he⟩ := List.mem_flatMap.1 h
  rw [Level.enumerators_eq_suffixes] at he
  obtain ⟨n, -, rfl⟩ := List.mem_map.1 he
  intro h
  have hlength := congrArg String.length h
  simp [String.length_append] at hlength

/-- **What holds of all that the code of a machine uses**: of first values, of labels, of fallbacks
    and of the written branches. -/
theorem forall_uses {P : Use × String → Prop}
    (first : ∀ l ∈ m.levels, P (.assignment, Machine.initialValue r l))
    (labels : ∀ l ∈ m.levels, ∀ e ∈ l.enumerators.map (·.1), P (.label, e))
    (events' : ∀ e ∈ events, ∀ y ∈ m.candidates r e, P (.label, (m.branchAt r y).1))
    (fallback : ∀ l ∈ m.levels, ∀ y, Machine.restoreOf r l = some y → ∀ x ∈ y.uses, P x)
    (branches : ∀ b ∈ m.written r events, ∀ x ∈ b.uses, P x) :
    ∀ x ∈ m.uses r events, P x := by
  have chain : ∀ bs ∈ m.chains r events, ∀ x ∈ chainUses bs, P x := by
    intro bs hbs x hx
    obtain ⟨b, hb, hx⟩ := List.mem_flatMap.1 hx
    exact branches b (mem_written.2 ⟨bs, hbs, hb⟩) x hx
  intro x hx
  simp only [Machine.uses, List.mem_append, or_assoc] at hx
  rcases hx with hx | hx | hx | hx
  · obtain ⟨l, hl, rfl⟩ := List.mem_map.1 hx
    exact first l hl
  · obtain ⟨f, hf, hx⟩ := List.mem_flatMap.1 hx
    obtain ⟨l, hl, rfl⟩ := List.mem_map.1 hf
    rcases List.mem_append.1 hx with hx | hx
    · obtain ⟨c, hc, hx⟩ := List.mem_flatMap.1 hx
      obtain ⟨v, hv, hcase⟩ := List.mem_filterMap.1 hc
      rcases stepCase?_eq_some.1 hcase with ⟨p, rfl, hi, rfl⟩ | ⟨s, rfl, -, -, rfl⟩
      · rcases List.mem_cons.1 hx with rfl | hx
        · exact labels l hl _ (Level.initialConstant_mem hv hi)
        · exact chain _ (mem_chains.2 (Or.inl ⟨l, hl, p, hv, hi, rfl⟩)) x hx
      · rcases List.mem_cons.1 hx with rfl | hx
        · exact labels l hl _ (Level.stateConstant_mem hv)
        · cases hc : m.inner? s.id with
          | none => simp [hc] at hx
          | some c =>
            have hmem : c ∈ m.levels := List.mem_of_find?_eq_some hc
            cases hy : Machine.restoreOf r c with
            | none => simp [hc, hy] at hx
            | some y => exact fallback c hmem y hy x (by simpa [hc, hy] using hx)
    · split_ifs at hx
      · cases hx
      · obtain rfl := List.mem_singleton.1 hx
        exact labels l hl _ (Level.mem_enumerators.2 (by simp [Machine.stepFunction]))
  · obtain ⟨f, hf, hx⟩ := List.mem_flatMap.1 hx
    exact chain _ (mem_chains_functions.2 (Or.inr (Or.inl ⟨f, hf, rfl⟩))) x hx
  · obtain ⟨e, he, hx⟩ := List.mem_flatMap.1 hx
    obtain ⟨g, hg, hx⟩ := List.mem_flatMap.1 hx
    rcases List.mem_cons.1 hx with rfl | hx
    · obtain ⟨-, y, hy, hlabel⟩ := mem_groups.1 hg
      rw [← hlabel]
      exact events' e he y hy
    · exact chain _ (mem_chains_functions.2 (Or.inr (Or.inr ⟨e, he, g, hg, rfl⟩))) x hx

/-- The written branches are part of the code. -/
theorem mem_uses_of_written (hb : b ∈ m.written r events) (hx : x ∈ b.uses) :
    x ∈ m.uses r events := by
  obtain ⟨bs, hbs, hb⟩ := mem_written.1 hb
  have hx : x ∈ chainUses bs := List.mem_flatMap.2 ⟨b, hb, hx⟩
  simp only [Machine.uses, List.mem_append, or_assoc]
  rcases mem_chains_functions.1 hbs with ⟨f, hf, label, hc⟩ | ⟨f, hf, rfl⟩ | ⟨e, he, g, hg, rfl⟩
  · refine Or.inr (Or.inl (List.mem_flatMap.2 ⟨f, hf, List.mem_append_left _ ?_⟩))
    exact List.mem_flatMap.2 ⟨_, hc, List.mem_cons_of_mem _ hx⟩
  · exact Or.inr (Or.inr (Or.inl (List.mem_flatMap.2 ⟨f, hf, hx⟩)))
  · refine Or.inr (Or.inr (Or.inr (List.mem_flatMap.2 ⟨e, he, List.mem_flatMap.2 ⟨g, hg, ?_⟩⟩)))
    exact List.mem_cons_of_mem _ hx

end

/-! ## Declarations -/

section
variable {r : Registry} {sm : StateMachine} {l : Level} {s : State} {v : Vertex} {p : PseudoState}
  {x : Use × String}
  (hr : r.WellNested) (hsm : .stateMachine sm ∈ r.elements)
include hr hsm

theorem entry_mem_enumerators (hl : l ∈ levelsOf r sm) :
    Machine.entry r l ∈ l.enumerators.map (·.1) := by
  rw [Level.mem_enumerators]
  by_cases h : l.ordinals = []
  · rw [entry_eq_terminal h]
    simp
  · exact Or.inl (entry_mem_ordinals hr hsm hl h)

omit hr hsm in
/-- The settings under which a state is active have declared enumerators. -/
theorem activeSettings_declared (hl : l ∈ levelsOf r sm) (hs : .state s ∈ l.vertices) :
    ∀ y ∈ l.activeSettings (.state s), y.enumerator ∈ (Machine.of r sm).declared := by
  refine levels_induction (P := fun l => ∀ s, .state s ∈ l.vertices →
    ∀ y ∈ l.activeSettings (.state s), y.enumerator ∈ (Machine.of r sm).declared) ?_ ?_ l hl s hs
  · intro s hs y hy
    obtain rfl := List.mem_singleton.1 hy
    exact mem_declared (m := .of r sm) List.mem_cons_self (Level.stateConstant_mem hs)
  · intro l s _ hs _ _ hin ih s' hs' y hy
    rcases List.mem_cons.1 hy with rfl | hy
    · exact mem_declared hin (Level.stateConstant_mem hs')
    · exact ih s hs y hy

theorem initialValue_declared (hl : l ∈ levelsOf r sm) :
    Machine.initialValue r l ∈ (Machine.of r sm).declared := by
  refine mem_declared hl ?_
  rw [Machine.initialValue]
  split_ifs
  · rw [Level.mem_enumerators]
    simp
  · exact entry_mem_enumerators hr hsm hl

theorem restoreOf_declared (hl : l ∈ levelsOf r sm) {y : Restore}
    (hy : Machine.restoreOf r l = some y) (hx : x ∈ y.uses) :
    x.2 ∈ (Machine.of r sm).declared := by
  rw [Machine.restoreOf] at hy
  split_ifs at hy
  obtain rfl := Option.some.inj hy
  refine mem_declared hl ?_
  simp only [Restore.uses, List.mem_cons, List.not_mem_nil, or_false] at hx
  rcases hx with rfl | rfl | rfl
  · exact Level.mem_enumerators.2 (by simp)
  · exact Level.mem_enumerators.2 (by simp)
  · exact entry_mem_enumerators hr hsm hl

theorem resetLevel_declared (hl : l ∈ levelsOf r sm) (d : Nat)
    (hx : x ∈ ((Machine.of r sm).resetLevel r d l).flatMap Move.uses) :
    x.2 ∈ (Machine.of r sm).declared := by
  induction d generalizing l with
  | zero => cases hx
  | succ d ih =>
    rw [Machine.resetLevel, List.flatMap_append, List.mem_append] at hx
    rcases hx with hx | hx
    · split at hx
      · next child hchild =>
        obtain ⟨s, -, hc⟩ := Option.bind_eq_some_iff.1 hchild
        split_ifs at hx
        · cases hx
        · exact ih (List.mem_of_find?_eq_some hc) hx
      · cases hx
    · obtain rfl : x = (.assignment, Machine.entry r l) := by simpa [Move.uses] using hx
      exact mem_declared hl (entry_mem_enumerators hr hsm hl)

theorem enterState_declared (hl : l ∈ levelsOf r sm) (hs : .state s ∈ l.vertices)
    (byHistory : Bool)
    (hx : x ∈ ((Machine.of r sm).enterState r l s byHistory).flatMap Move.uses) :
    x.2 ∈ (Machine.of r sm).declared := by
  simp only [Machine.enterState, List.flatMap_append, List.mem_append, or_assoc] at hx
  rcases hx with hx | hx | hx
  · split at hx
    · next c hc =>
      split_ifs at hx
      · cases hx
      · exact resetLevel_declared hr hsm (List.mem_of_find?_eq_some hc) _ hx
    · cases hx
  · obtain ⟨move, hmove, hx⟩ := List.mem_flatMap.1 hx
    obtain ⟨y, hy, rfl⟩ := List.mem_map.1 hmove
    obtain rfl := List.mem_singleton.1 hx
    exact activeSettings_declared hl hs y hy
  · split at hx
    · next c hc =>
      split_ifs at hx
      · cases hy : Machine.restoreOf r c with
        | none => simp [hy] at hx
        | some y =>
          refine restoreOf_declared hr hsm (List.mem_of_find?_eq_some hc) hy ?_
          simpa [hy, Move.uses] using hx
      · cases hx
    · cases hx

/-- A vertex of the registry that a level lists by its id. -/
theorem mem_of_levelOf? (hv : v.element ∈ r.elements)
    (h : (Machine.of r sm).levelOf? v.id = some l) : l ∈ levelsOf r sm ∧ v ∈ l.vertices := by
  have hl : l ∈ levelsOf r sm := List.mem_of_find?_eq_some h
  obtain ⟨w, hw, hid⟩ := List.any_eq_true.1
    (List.find?_some (p := fun l : Level => l.lists v.id) h)
  have heq : w.element = v.element := by
    refine Registry.eq_of_id hr.ids (listed_element hr hsm hl hw).1 hv ?_
    rw [w.element_id, v.element_id, beq_iff_eq.1 hid]
  exact ⟨hl, Vertex.element_injective heq ▸ hw⟩

omit hr hsm in
theorem mem_of_state? {id : String} (h : r.state? id = some s) :
    .state s ∈ r.elements ∧ s.id = id := by
  unfold Registry.state? at h
  split at h
  · next y hy =>
    obtain rfl := Option.some.inj h
    have hid := List.find?_some (p := fun e : Element => e.id == id) hy
    exact ⟨List.mem_of_find?_eq_some hy, beq_iff_eq.1 hid⟩
  · cases h

/-- A machine is no state. -/
theorem state?_machine : r.state? sm.id = none := by
  rw [Option.eq_none_iff_forall_ne_some]
  intro s hs
  obtain ⟨hmem, hid⟩ := mem_of_state? hs
  cases Registry.eq_of_id hr.ids hmem hsm hid

/-- A pseudostate outside of states that a level lists is listed in the top level. -/
theorem eq_topLevel_of_state? (hl : l ∈ levelsOf r sm) (hp : .pseudo p ∈ l.vertices)
    (h : r.state? p.parent = none) : l = topLevel r sm := by
  rcases levels_cases hl with rfl | ⟨k, s, hk, hs, -, rfl⟩
  · rfl
  · have hparent : p.parent = s.id := (listed_element hr hsm hl hp).2
    have hmem := (listed_element hr hsm hk hs).1
    have hstate : r.state? s.id = some s := by
      have hlookup : r.lookup s.id = some (.state s) := Registry.lookup_of_mem hr.ids hmem
      rw [Registry.state?, hlookup]
    rw [hparent, hstate] at h
    cases h

theorem initial?_eq_iff (hl : l ∈ levelsOf r sm) (hp : .pseudo p ∈ l.vertices) :
    l.isInitial p = true ↔ l.initial? = some p := by
  rw [Level.isInitial, beq_iff_eq, Option.map_eq_some_iff]
  constructor
  · rintro ⟨q, hq, hid⟩
    rw [hq, Vertex.pseudo.inj (eq_of_listed_id hr hsm hl hl (mem_of_initial? hq) hp hid)]
  · intro h
    exact ⟨p, h, rfl⟩

omit hr hsm in
/-- **Where a transition into a vertex can lead.** -/
theorem destination_cases (hv : v.element ∈ r.elements) :
    (∃ s byHistory, destination r v = .state s byHistory ∧ .state s ∈ r.elements) ∨
    (∃ p, v = .pseudo p ∧ p.pseudoKind = .initial ∧ r.state? p.parent = none ∧
      destination r v = .initial p) ∨
    (∃ p kind, v = .pseudo p ∧ p.pseudoKind = .other kind ∧ destination r v = .unsupported p) ∨
    ∃ p, v = .pseudo p ∧ p.pseudoKind = .shallowHistory ∧ r.state? p.parent = none ∧
      destination r v = .nowhere := by
  cases v with
  | state s => exact Or.inl ⟨s, _, rfl, hv⟩
  | pseudo p =>
    cases hk : p.pseudoKind with
    | other kind => exact Or.inr (Or.inr (Or.inl ⟨p, kind, rfl, hk, by simp [destination, hk]⟩))
    | initial =>
      cases hs : r.state? p.parent with
      | none => exact Or.inr (Or.inl ⟨p, rfl, hk, hs, by simp [destination, hk, hs]⟩)
      | some s => exact Or.inl ⟨s, false, by simp [destination, hk, hs], (mem_of_state? hs).1⟩
    | shallowHistory =>
      cases hs : r.state? p.parent with
      | none => exact Or.inr (Or.inr (Or.inr ⟨p, rfl, hk, hs, by simp [destination, hk, hs]⟩))
      | some s => exact Or.inl ⟨s, true, by simp [destination, hk, hs], (mem_of_state? hs).1⟩

/-- What a transition into a vertex uses is declared, unless the vertex is spare. -/
theorem enter_declared (hv : v.element ∈ r.elements)
    (hspare : ∀ p, v = .pseudo p → ¬ IsSpare r sm p)
    (hx : x ∈ ((Machine.of r sm).enter r v).flatMap Move.uses) :
    x.2 ∈ (Machine.of r sm).declared := by
  rw [Machine.enter] at hx
  rcases destination_cases hv with ⟨s, byHistory, hd, hs⟩ | ⟨p, rfl, hkind, hparent, hd⟩ |
    ⟨p, kind, -, -, hd⟩ | ⟨p, -, -, -, hd⟩
  · rw [hd] at hx
    cases hlevel : (Machine.of r sm).levelOf? s.id with
    | none => simp [hlevel] at hx
    | some l =>
      obtain ⟨hl, hmem⟩ := mem_of_levelOf? hr hsm (v := .state s) hs hlevel
      simp only [hlevel] at hx
      exact enterState_declared hr hsm hl hmem byHistory hx
  · rw [hd] at hx
    cases hlevel : (Machine.of r sm).levelOf? p.id with
    | none => simp [hlevel] at hx
    | some l =>
      obtain ⟨hl, hmem⟩ := mem_of_levelOf? hr hsm (v := .pseudo p) hv hlevel
      obtain rfl := eq_topLevel_of_state? hr hsm hl hmem hparent
      obtain rfl : x = (.assignment, (topLevel r sm).constant (.pseudo p)) := by
        simpa [hlevel, Move.uses] using hx
      have hi : (topLevel r sm).isInitial p = true := by
        rw [initial?_eq_iff hr hsm hl hmem]
        by_contra hne
        exact hspare p rfl ⟨hkind, hmem, hne⟩
      refine mem_declared hl ?_
      rw [Level.constant, if_pos hi]
      exact Level.initialConstant_mem hmem hi
  · simp [hd] at hx
  · simp [hd] at hx

/-- Nothing is assigned on the way to a spare pseudostate. -/
theorem enter_of_isSpare (h : IsSpare r sm p) :
    (Machine.of r sm).enter r (.pseudo p) =
      [.assign { var := (topLevel r sm).variableName, enumerator := "" }] := by
  obtain ⟨hkind, hmem, hne⟩ := h
  have htop : topLevel r sm ∈ levelsOf r sm := List.mem_cons_self
  have hparent : p.parent = sm.id := (listed_element hr hsm htop hmem).2
  have hd : destination r (.pseudo p) = .initial p := by
    simp only [destination, hkind, hparent, state?_machine hr hsm]
  have hlevel : (Machine.of r sm).levelOf? p.id = some (topLevel r sm) :=
    levelOf?_eq hr hsm htop hmem
  have hi : ¬ (topLevel r sm).isInitial p = true := fun hi =>
    hne ((initial?_eq_iff hr hsm htop hmem).1 hi)
  rw [Machine.enter, hd]
  simp only [hlevel, Level.constant, if_neg hi]

/-- What a branch of a chain uses is declared, unless its transition leads to a spare
    pseudostate. -/
theorem branch_declared {events : List String} {b : Branch}
    (hb : b ∈ (Machine.of r sm).written r events) (hx : x ∈ b.uses) :
    x.2 ∈ (Machine.of r sm).declared ∨
      (x = (.assignment, "") ∧ ∃ p, r.vertex? b.transition.target = some (.pseudo p) ∧
        IsSpare r sm p) := by
  obtain ⟨bs, hbs, hb⟩ := mem_written.1 hb
  obtain ⟨tests, t, rfl, htests⟩ := branch_of_mem_chain hbs (Branch.mem_of_mem_reachable hb)
  simp only [Branch.uses, Machine.branch, List.mem_append] at hx
  rcases hx with hx | hx
  · obtain ⟨y, hy, rfl⟩ := List.mem_map.1 hx
    obtain ⟨l, hl, s, hs, hmem⟩ := htests y hy
    exact Or.inl (activeSettings_declared hl hs y hmem)
  · rw [Machine.moves, List.flatMap_append, List.mem_append] at hx
    rcases hx with hx | hx
    · cases hv : r.vertex? t.target with
      | none => simp [hv] at hx
      | some v =>
        rw [hv] at hx
        by_cases hspare : ∃ p, v = .pseudo p ∧ IsSpare r sm p
        · obtain ⟨p, rfl, hp⟩ := hspare
          right
          refine ⟨?_, p, hv, hp⟩
          rw [Option.map_some, Option.getD_some, enter_of_isSpare hr hsm hp] at hx
          simpa [Move.uses] using hx
        · left
          exact enter_declared hr hsm (mem_of_vertex? hv) (fun p hp hs => hspare ⟨p, hp, hs⟩) hx
    · obtain ⟨move, hmove, hx⟩ := List.mem_flatMap.1 hx
      obtain ⟨a, -, rfl⟩ := List.mem_map.1 hmove
      cases hx

end

/-! ## The code of a class -/

/-- **The enumerators in the code of a class**, for all registries that adding and preparing give.
    Declared enumerators are not empty.  What the code of a machine uses is declared, or is the
    empty text as something to be assigned; all is declared iff no written transition leads to a
    spare pseudostate, and for one that does, the code has an assignment of nothing. -/
theorem lowerClass_enumerators {r : Registry} {stems : Stems} {c : Classifier} {t t' : IdTable}
    {u : CodeUnit} (hr : r.Built) (hf : family r c = .simObject)
    (hl : lowerClass r stems t c = (t', .ok u)) :
    ∃ ids, u = (Plan.of r stems c).unit r stems ids ∧
      ∀ sm ∈ (r.owned c.id).machines, ∀ m, m = Machine.of r sm →
        (∀ e ∈ m.declared, e ≠ "") ∧
        (∀ x ∈ m.uses r u.events, x.2 ∈ m.declared ∨ x = (.assignment, "")) ∧
        ((∀ x ∈ m.uses r u.events, x.2 ∈ m.declared) ↔
          ∀ b ∈ m.written r u.events, ∀ p, r.vertex? b.transition.target = some (.pseudo p) →
            ¬ IsSpare r sm p) ∧
        ∀ b ∈ m.written r u.events, ∀ p, r.vertex? b.transition.target = some (.pseudo p) →
          IsSpare r sm p → .line ((topLevel r sm).variableName ++ " = ;") ∈
            (Plan.of r stems c).definitionEdits r stems := by
  obtain ⟨ids, hu⟩ := lowerClass_unit hf hl
  refine ⟨ids, hu, ?_⟩
  rintro sm hsm m rfl
  have hw := hr.wellNested
  have hel : .stateMachine sm ∈ r.elements := hw.machines _ sm hsm
  have hevents := lowerClass_events hf hl
  have hbranch := fun b hb x hx => @branch_declared r sm x hw hel u.events b hb hx
  -- all but the branches use declared enumerators
  have hall : ∀ P : Use × String → Prop, (∀ x, x.2 ∈ (Machine.of r sm).declared → P x) →
      (∀ b ∈ (Machine.of r sm).written r u.events, ∀ x ∈ b.uses, P x) →
      ∀ x ∈ (Machine.of r sm).uses r u.events, P x := by
    intro P hP hbranches
    refine forall_uses (fun l hl => hP _ (initialValue_declared hw hel hl))
      (fun l hl e he => hP _ (mem_declared hl he)) (fun e _ y hy => hP _ ?_)
      (fun l hl y hy x hx => hP x (restoreOf_declared hw hel hl hy hx)) hbranches
    obtain ⟨s, hs, -, hlabel⟩ := label_of_mem_candidates rfl hy
    rw [hlabel]
    exact mem_declared (m := .of r sm) List.mem_cons_self (Level.stateConstant_mem hs)
  have hspare : ∀ b ∈ (Machine.of r sm).written r u.events, ∀ p,
      r.vertex? b.transition.target = some (.pseudo p) → IsSpare r sm p →
      .assign { var := (topLevel r sm).variableName, enumerator := "" } ∈ b.moves := by
    intro b hb p hv hp
    obtain ⟨bs, hbs, hb⟩ := mem_written.1 hb
    obtain ⟨tests, tr, rfl, -⟩ := branch_of_mem_chain hbs (Branch.mem_of_mem_reachable hb)
    have hv : r.vertex? tr.target = some (.pseudo p) := hv
    simp only [Machine.branch, Machine.moves, hv, Option.map_some, Option.getD_some,
      enter_of_isSpare hw hel hp]
    exact List.mem_cons_self
  refine ⟨fun e he => ne_empty_of_mem_declared he, ?_, ⟨fun h b hb p hv hp => ?_, fun h => ?_⟩,
    fun b hb p hv hp => ?_⟩
  · refine hall _ (fun x hx => Or.inl hx) fun b hb x hx => ?_
    rcases hbranch b hb x hx with hx | ⟨hx, -⟩
    · exact Or.inl hx
    · exact Or.inr hx
  · have hempty := h (.assignment, "") (mem_uses_of_written hb (List.mem_append_right _
      (List.mem_flatMap.2 ⟨_, hspare b hb p hv hp, by simp [Move.uses]⟩)))
    exact ne_empty_of_mem_declared hempty rfl
  · refine hall _ (fun x hx => hx) fun b hb x hx => ?_
    rcases hbranch b hb x hx with hx | ⟨-, p, hv, hp⟩
    · exact hx
    · exact absurd hp (h b hb p hv)
  · have hmoves := hspare b hb p hv hp
    rw [hevents] at hb
    have hmachine : Machine.of r sm ∈ (Plan.of r stems c).machines := List.mem_map_of_mem hsm
    refine (effects_written hmachine hb).subset (List.mem_flatMap.2 ⟨_, hmoves, ?_⟩)
    rw [Move.edits, List.mem_singleton, Setting.statement, String.append_assoc, String.append_assoc]
    rfl

/-! A valve is open or shut.  When it is stuck, one valve is shut and another is to be started
    anew. -/

def valve : Classifier := { id := "valve", name := "Valve", stereotype := "SimObject" }

def valveMachine : StateMachine := { id := "m", name := "M", parent := "valve" }

/-- A valve whose transition from the open state leads to a given vertex. -/
def valveInto (target : String) : Registry := Registry.prepare { elements := [
  .classifier valve,
  .stateMachine valveMachine,
  .pseudoState { id := "first", name := "Start", parent := "m", pseudoKind := .initial },
  .state { id := "open", name := "Open", parent := "m" },
  .state { id := "shut", name := "Shut", parent := "m" },
  .pseudoState { id := "second", name := "Restart", parent := "m", pseudoKind := .initial },
  .transition { id := "t1", parent := "m", source := "first", target := "open" },
  .transition { id := "t2", parent := "m", source := "open", target, guard := "stuck" }] }

/-- The plan of such a valve with its levels written out. -/
def valvePlan (target : String) : Plan :=
  { Plan.of (valveInto target) (.ofTexts "" "") valve with
    machines := [⟨valveMachine, [topLevel (valveInto target) valveMachine]⟩] }

theorem valvePlan_eq (target : String) :
    Plan.of (valveInto target) (.ofTexts "" "") valve = valvePlan target ∧
      Machine.of (valveInto target) valveMachine =
        ⟨valveMachine, [topLevel (valveInto target) valveMachine]⟩ := by
  have htrees : (valveInto target).machineTrees valveMachine.id =
      [.pseudo _, .state _ [], .state _ [], .pseudo _] := rfl
  have hmachines : ((valveInto target).owned valve.id).machines = [valveMachine] := rfl
  have hlevels : Machine.of (valveInto target) valveMachine =
      ⟨valveMachine, [topLevel (valveInto target) valveMachine]⟩ := by
    rw [Machine.of, levelsOf_eq, htrees]
    simp only [nestedLevels]
    rfl
  refine ⟨Plan.of_machines ?_, hlevels⟩
  rw [hmachines, List.map_singleton, hlevels]

theorem valve_uses_declared :
    (valveInto "shut").Built ∧ valveMachine ∈ ((valveInto "shut").owned valve.id).machines ∧
    ∃ t u, lowerClass (valveInto "shut") (.ofTexts "" "") (.run { hash := Digest.XxHash.hash } [])
        valve = (t, .ok u) ∧
      ∀ x ∈ (Machine.of (valveInto "shut") valveMachine).uses (valveInto "shut") u.events,
        x.2 ∈ (Machine.of (valveInto "shut") valveMachine).declared := by
  have hr : (valveInto "shut").Built := .prepare (.loaded (by decide +kernel))
  have hsm : valveMachine ∈ ((valveInto "shut").owned valve.id).machines := by decide +kernel
  have hf : family (valveInto "shut") valve = .simObject := by decide +kernel
  obtain ⟨hplan, hmachine⟩ := valvePlan_eq "shut"
  have hgranted : (((IdTable.run { hash := Digest.XxHash.hash } []).withScope valve.id).claimAll
      valve.id (classClaims (valveInto "shut") (.ofTexts "" "") valve)).2.2 = none := by
    rw [classClaims, hplan]
    decide +kernel
  have htargets : ∀ b ∈ (Machine.of (valveInto "shut") valveMachine).written (valveInto "shut")
      ((Plan.of (valveInto "shut") (.ofTexts "" "") valve).events (valveInto "shut")),
      b.transition.target = "open" ∨ b.transition.target = "shut" := by
    rw [hplan, hmachine]
    decide +kernel
  have hstates : ∀ id ∈ ["open", "shut"], ∃ s, (valveInto "shut").vertex? id = some (.state s) := by
    simp only [List.forall_mem_cons]
    exact ⟨⟨_, rfl⟩, ⟨_, rfl⟩, by simp⟩
  obtain ⟨t, u, hl⟩ := lowerClass_of_granted hf hgranted
  obtain ⟨ids, -, h⟩ := lowerClass_enumerators hr hf hl
  refine ⟨hr, hsm, t, u, hl, (h valveMachine hsm _ rfl).2.2.1.2 fun b hb p hv => ?_⟩
  rw [lowerClass_events hf hl] at hb
  obtain ⟨s, hs⟩ := hstates b.transition.target (by simpa using htargets b hb)
  rw [hs] at hv
  cases hv

/-- The code of a valve that is to be started anew has an assignment of nothing, and nothing is
    reported. -/
theorem valve_assigns_nothing :
    (valveInto "second").Built ∧
    ∃ t u, lowerClass (valveInto "second") (.ofTexts "" "") (.run { hash := Digest.XxHash.hash } [])
        valve = (t, .ok u) ∧ u.diagnostics = [] ∧
      (.assignment, "") ∈ (Machine.of (valveInto "second") valveMachine).uses (valveInto "second")
        u.events ∧
      "" ∉ (Machine.of (valveInto "second") valveMachine).declared ∧
      .line "state_M = ;" ∈
        (Plan.of (valveInto "second") (.ofTexts "" "") valve).definitionEdits (valveInto "second")
          (.ofTexts "" "") := by
  have hf : family (valveInto "second") valve = .simObject := by decide +kernel
  obtain ⟨hplan, hmachine⟩ := valvePlan_eq "second"
  have hgranted : (((IdTable.run { hash := Digest.XxHash.hash } []).withScope valve.id).claimAll
      valve.id (classClaims (valveInto "second") (.ofTexts "" "") valve)).2.2 = none := by
    rw [classClaims, hplan]
    decide +kernel
  obtain ⟨t, u, hl⟩ := lowerClass_of_granted hf hgranted
  refine ⟨.prepare (.loaded (by decide +kernel)), t, u, hl, ?_, ?_, ?_, ?_⟩
  · rw [lowerClass_diagnostics hf hl, hplan]
    decide +kernel
  · rw [lowerClass_events hf hl, hplan, hmachine]
    decide +kernel
  · rw [hmachine]
    decide +kernel
  · rw [hplan]
    decide +kernel

end ObjectLowering.Lowering
