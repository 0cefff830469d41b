/-
  Steps of a state machine, and the completion of composite states.

  * `Machine.step` executes the step function of a level, with the step
    functions of the levels inside and the functions of states that it calls.
    What happens is logged; the guards that are true may depend on it.
  * `NamesDistinct`: no two enumerators of a machine share a name.  Then every
    level and every enumerator is the one that its name stands for.
  * `step_fst_eq_false_iff`: a step function reports the end of its level iff
    the level has final states and its variable holds that it has terminated.
  * `step_calls_iff`: whether the function of a composite state is called once
    its inside has terminated.  A state with history sets its inside back to
    the entry before it asks, and so never notices.
-/
import Mathlib.Data.List.Nodup
import Mathlib.Data.List.Pairwise
import ObjectLowering.Proofs.Entries
import ObjectLowering.Proofs.Execution

namespace ObjectLowering.Lowering

open Model Code

/-! ## Execution -/

/-- What happens in a step: the function of a state is called, or a statement runs. -/
inductive Occurrence where
  | call (label : String)
  | run (statement : String)
deriving DecidableEq, Repr

/-- The state variables, and what has happened so far. -/
structure Progress where
  store : Store
  log : List Occurrence := []

/-- Which guards are true, after what has happened. -/
abbrev Guards := List Occurrence → String → Bool

namespace Progress

variable (value : String → StateValue)

/-- What a move does. -/
def move (x : Progress) : Move → Progress
  | .run statement => { x with log := x.log ++ [.run statement] }
  | y => { x with store := y.apply value x.store }

/-- What moves do, one after the other. -/
def moves (x : Progress) (ms : List Move) : Progress := ms.foldl (move value) x

/-- What a conditional does. -/
def conditional (γ : Guards) (x : Progress) (bs : List Branch) : Progress :=
  match Branch.taken value x.store (γ x.log) bs with
  | some b => x.moves value b.moves
  | none => x

end Progress

/-- The enumerator of a case. -/
def StepCase.label : StepCase → String
  | .initial label _ => label
  | .state label _ _ => label

/-- The case that a step function executes: that of the enumerator that the variable holds. -/
def StepFunction.current? (f : StepFunction) (value : String → StateValue) (σ : Store) :
    Option StepCase :=
  f.cases.find? fun x => value x.label = σ f.level.variableName

/-- The case of a level that has terminated is there, and is executed. -/
def Level.reportsEnd (l : Level) (value : String → StateValue) (σ : Store) : Bool :=
  !l.finals.isEmpty && σ l.variableName == value l.terminal

namespace Machine

/-- The step function of a level, by the name of the level. -/
def stepFunction? (m : Machine) (r : Registry) (name : String) : Option StepFunction :=
  (m.stepFunctions r).find? fun f => f.level.name == name

/-- Calls the function of a state. -/
def callState (m : Machine) (r : Registry) (γ : Guards) (x : Progress) (label : String) :
    Progress :=
  let called := { x with log := x.log ++ [.call label] }
  match (m.stateFunctions r).find? fun f => f.label == label with
  | some f => (called.moves m.value (f.activities.map .run)).conditional m.value γ f.branches
  | none => called

/-- What a case of a step function does, given what the step functions inside do: a composite state
    restores its inside if it has history, and advances it; if that reports its end, the function of
    the state is called. -/
def runCase (m : Machine) (r : Registry) (γ : Guards) (nested : String → Progress → Bool × Progress)
    (x : Progress) : StepCase → Progress
  | .initial _ branches => x.conditional m.value γ branches
  | .state label none _ => m.callState r γ x label
  | .state label (some inside) behaves =>
    let y := nested inside.level (x.moves m.value (inside.restore.toList.map .restore))
    if behaves && !y.1 then m.callState r γ y.2 label else y.2

/-- Calls the step function of a level: its result, and what it does. Calls nest no deeper than
    the bound. -/
def step (m : Machine) (r : Registry) (γ : Guards) : Nat → String → Progress → Bool × Progress
  | 0, _, x => (true, x)
  | depth + 1, name, x =>
    match m.stepFunction? r name with
    | none => (true, x)
    | some f =>
      match f.current? m.value x.store with
      | some y => (true, m.runCase r γ (m.step r γ depth) x y)
      | none => (!f.level.reportsEnd m.value x.store, x)

/-- No two enumerators share a name. -/
def NamesDistinct (m : Machine) : Prop :=
  ((m.levels.flatMap Level.enumerators).map (·.1)).Nodup

instance (m : Machine) : Decidable m.NamesDistinct :=
  inferInstanceAs (Decidable ((m.levels.flatMap Level.enumerators).map (·.1)).Nodup)

end Machine

/-! ## Calls -/

section
variable {value : String → StateValue} {γ : Guards} {x : Progress} {e label : String}

theorem Progress.call_mem_moves (ms : List Move) :
    .call e ∈ (x.moves value ms).log ↔ .call e ∈ x.log := by
  induction ms generalizing x with
  | nil => rfl
  | cons y ms ih =>
    rw [Progress.moves, List.foldl_cons]
    refine ih.trans ?_
    cases y <;> simp [Progress.move]

theorem Progress.call_mem_conditional (bs : List Branch) :
    .call e ∈ (x.conditional value γ bs).log ↔ .call e ∈ x.log := by
  rw [Progress.conditional]
  split
  · exact Progress.call_mem_moves _
  · rfl

theorem Machine.call_mem_callState (m : Machine) (r : Registry) :
    .call e ∈ (m.callState r γ x label).log ↔ .call e ∈ x.log ∨ e = label := by
  have hcalled : .call e ∈ x.log ++ [.call label] ↔ .call e ∈ x.log ∨ e = label := by simp
  rw [Machine.callState]
  split
  · rw [Progress.call_mem_conditional, Progress.call_mem_moves, hcalled]
  · exact hcalled

theorem Progress.store_restore (y : Restore) :
    (x.moves value [.restore y]).store = (Move.restore y).apply value x.store := rfl

end

/-! ## Cases -/

/-- The ordinal enumerator of a vertex. -/
def Level.ordinal? (l : Level) : Vertex → Option String
  | .state s => if s.isFinal then none else some (l.stateConstant s)
  | .pseudo p => if l.isInitial p then some (l.initialConstant p) else none

theorem Level.ordinals_eq (l : Level) : l.ordinals = l.vertices.filterMap l.ordinal? := by
  rw [ordinals]
  congr 1

section
variable {r : Registry} {m : Machine} {l : Level} {v w : Vertex} {s : State} {y : StepCase}
  {label : String} {inside : Option Inside} {behaves : Bool} {σ : Store}
  {value : String → StateValue}

theorem ordinal?_of_stepCase? (h : m.stepCase? r l v = some y) : l.ordinal? v = some y.label := by
  rcases stepCase?_eq_some.1 h with ⟨p, rfl, hp, rfl⟩ | ⟨s, rfl, hf, -, rfl⟩
  · exact if_pos hp
  · exact if_neg (Bool.eq_false_iff.1 hf)

theorem stepCase?_state (h : m.stepCase? r l v = some (.state label inside behaves)) :
    ∃ s, v = .state s ∧ label = l.stateConstant s ∧
      inside = (m.inner? s.id).map fun c => ⟨c.name, Machine.restoreOf r c⟩ := by
  rcases stepCase?_eq_some.1 h with ⟨p, -, -, hy⟩ | ⟨s, rfl, -, -, hy⟩
  · cases hy
  · obtain ⟨rfl, rfl, -⟩ := StepCase.state.inj hy
    exact ⟨s, rfl, rfl, rfl⟩

theorem current?_eq_some (h : (m.stepFunction r l).current? value σ = some y) :
    (∃ v ∈ l.vertices, m.stepCase? r l v = some y) ∧ y.label ∈ l.ordinals ∧
      value y.label = σ l.variableName := by
  obtain ⟨v, hv, hy⟩ := List.mem_filterMap.1 (List.mem_of_find?_eq_some h)
  have hvalue := List.find?_some (p := fun x : StepCase => value x.label = σ l.variableName) h
  refine ⟨⟨v, hv, hy⟩, ?_, of_decide_eq_true hvalue⟩
  rw [l.ordinals_eq]
  exact List.mem_filterMap.2 ⟨v, hv, ordinal?_of_stepCase? hy⟩

end

/-! ## Distinct names -/

section
variable {r : Registry} {m : Machine} {l l' : Level} {v w : Vertex} {e : String} {y : StepCase}
  {σ : Store}

theorem Level.enumerators_names (l : Level) :
    l.enumerators.map (·.1) = l.ordinals ++ [l.count, l.unset, l.terminal] ++ l.finals := by
  simp only [enumerators, List.map_append, map_fst_mapIdx, List.map_map]
  congr 1
  exact List.map_id _

variable (hnames : m.NamesDistinct)
include hnames

/-- An enumerator is declared in one level. -/
theorem eq_of_enumerator (hl : l ∈ m.levels) (hl' : l' ∈ m.levels)
    (he : e ∈ l.enumerators.map (·.1)) (he' : e ∈ l'.enumerators.map (·.1)) : l = l' := by
  rw [Machine.NamesDistinct, List.map_flatMap, List.nodup_flatMap] at hnames
  have : Std.Symm (Function.onFun List.Disjoint fun l : Level => l.enumerators.map (·.1)) :=
    ⟨fun _ _ h _ he he' => h he' he⟩
  by_contra hne
  exact hnames.2.forall hl hl' hne he he'

theorem eq_of_name (hl : l ∈ m.levels) (hl' : l' ∈ m.levels) (h : l.name = l'.name) : l = l' := by
  have hcount : l.count = l'.count := by rw [Level.count, h, Level.count]
  refine eq_of_enumerator (e := l.count) hnames hl hl' ?_ ?_
  · simp [Level.enumerators_names]
  · simp [Level.enumerators_names, hcount]

/-- What a level says about its enumerators is what they stand for. -/
theorem value_eq (hl : l ∈ m.levels) {x : StateValue} (h : (e, x) ∈ l.values) : m.value e = x := by
  have hkeys : ((m.levels.flatMap Level.values).map (·.1)).Nodup := by
    rw [Machine.NamesDistinct, List.map_flatMap] at hnames
    simpa only [List.map_flatMap, Level.values_names] using hnames
  rw [Machine.value, (lookup_eq_some_iff_mem hkeys).2 (List.mem_flatMap.2 ⟨l, hl, h⟩),
    Option.getD_some]

theorem value_ordinal (hl : l ∈ m.levels) (he : e ∈ l.ordinals) :
    m.value e = .ordinal (l.ordinals.idxOf e) := by
  obtain ⟨before, after, hsplit, -⟩ := List.lookup_eq_some_iff.1 (Level.lookup_values he)
  exact value_eq hnames hl (by simp [hsplit])

theorem value_terminal (hl : l ∈ m.levels) : m.value l.terminal = .terminal :=
  value_eq hnames hl (by simp [Level.values])

/-- Vertices of a level are told apart by their ordinal enumerators. -/
theorem eq_of_ordinal? (hl : l ∈ m.levels) (hv : v ∈ l.vertices) (hw : w ∈ l.vertices)
    (he : l.ordinal? v = some e) (he' : l.ordinal? w = some e) : v = w := by
  have hnodup : l.ordinals.Nodup := by
    rw [Machine.NamesDistinct, List.map_flatMap, List.nodup_flatMap] at hnames
    have hlevel := hnames.1 l hl
    rw [l.enumerators_names, List.append_assoc] at hlevel
    exact (List.nodup_append.1 hlevel).1
  rw [l.ordinals_eq, List.nodup_iff_pairwise_ne, List.pairwise_filterMap] at hnodup
  have : Std.Symm fun v w => ∀ b, l.ordinal? v = some b → ∀ b', l.ordinal? w = some b' → b ≠ b' :=
    ⟨fun _ _ h b hb b' hb' => (h b' hb' b hb).symm⟩
  by_contra hne
  exact hnodup.forall hv hw hne e he e he' rfl

theorem stepFunction?_eq (hl : l ∈ m.levels) :
    m.stepFunction? r l.name = some (m.stepFunction r l) := by
  have hmem : m.stepFunction r l ∈ m.stepFunctions r := List.mem_map_of_mem hl
  cases hf : m.stepFunction? r l.name with
  | none => exact absurd (beq_self_eq_true l.name) (List.find?_eq_none.1 hf _ hmem)
  | some f =>
    obtain ⟨l', hl', rfl⟩ := List.mem_map.1 (List.mem_of_find?_eq_some hf)
    have hname := List.find?_some (p := fun f : StepFunction => f.level.name == l.name) hf
    rw [eq_of_name hnames hl' hl (beq_iff_eq.1 hname)]

/-- The step function of a level executes the case of the vertex that the level is in. -/
theorem current?_eq (hl : l ∈ m.levels) (hv : v ∈ l.vertices) (hy : m.stepCase? r l v = some y)
    (hσ : σ l.variableName = m.value y.label) :
    (m.stepFunction r l).current? m.value σ = some y := by
  have hord := ordinal?_of_stepCase? hy
  have hlabel : y.label ∈ l.ordinals := by
    rw [l.ordinals_eq]
    exact List.mem_filterMap.2 ⟨v, hv, hord⟩
  cases hf : (m.stepFunction r l).current? m.value σ with
  | none =>
    have hmem : y ∈ (m.stepFunction r l).cases := List.mem_filterMap.2 ⟨v, hv, hy⟩
    exact absurd (decide_eq_true hσ.symm) (List.find?_eq_none.1 hf y hmem)
  | some y' =>
    obtain ⟨⟨w, hw, hy'⟩, hlabel', hvalue⟩ := current?_eq_some hf
    -- ordinals of a level are told apart by their values, and vertices by their ordinals
    rw [hσ, value_ordinal hnames hl hlabel, value_ordinal hnames hl hlabel',
      StateValue.ordinal.injEq] at hvalue
    have heq : y'.label = y.label := (List.idxOf_inj hlabel').1 hvalue
    obtain rfl := eq_of_ordinal? hnames hl hv hw hord (heq ▸ ordinal?_of_stepCase? hy')
    rw [hy, Option.some.injEq] at hy'
    rw [hy']

end

/-! ## Entries -/

section
variable {r : Registry} {sm : StateMachine} {l : Level}

theorem mem_of_initial? {p : PseudoState} (h : l.initial? = some p) : .pseudo p ∈ l.vertices := by
  obtain ⟨v, hv, hp⟩ := List.exists_of_findSome?_eq_some h
  cases v with
  | state s => cases hp
  | pseudo q =>
    simp only [Option.ite_none_right_eq_some, Option.some.injEq] at hp
    exact hp.2 ▸ hv

theorem mem_of_vertex? {id : String} {v : Vertex} (h : r.vertex? id = some v) :
    v.element ∈ r.elements := by
  unfold Registry.vertex? at h
  split at h
  · next s hs =>
    cases h
    exact List.mem_of_find?_eq_some hs
  · next p hp =>
    cases h
    exact List.mem_of_find?_eq_some hp
  · cases h

theorem entry_eq_terminal (h : l.ordinals = []) : Machine.entry r l = l.terminal := by
  cases hp : l.initial? with
  | none => simp [Machine.entry, hp, h]
  | some p =>
    have hmem : l.initialConstant p ∈ l.ordinals :=
      List.mem_filterMap.2 ⟨_, mem_of_initial? hp, by simp [Level.isInitial, hp]⟩
    rw [h] at hmem
    cases hmem

variable (hr : r.WellNested) (hsm : .stateMachine sm ∈ r.elements)
include hr hsm

/-- A plain initial transition leads to a state of the level that is not final. -/
theorem directEntry_eq_some (hl : l ∈ levelsOf r sm) {p : PseudoState} {e : String}
    (h : Machine.directEntry r l p = some e) :
    ∃ s, .state s ∈ l.vertices ∧ s.isFinal = false ∧ e = l.stateConstant s := by
  unfold Machine.directEntry at h
  split at h
  · next t ht =>
    split_ifs at h
    split at h
    · next s hs =>
      simp only [Option.ite_none_right_eq_some, Bool.and_eq_true, Bool.not_eq_true',
        Option.some.injEq] at h
      obtain ⟨⟨hf, hlists⟩, rfl⟩ := h
      obtain ⟨v, hv, hid⟩ := List.any_eq_true.1 hlists
      have heq : v.element = .state s := by
        refine Registry.eq_of_id hr.ids (listed_element hr hsm hl hv).1
          (mem_of_vertex? hs) ?_
        rw [v.element_id, beq_iff_eq.1 hid]
        rfl
      obtain rfl : v = .state s := Vertex.element_injective heq
      exact ⟨s, hv, hf, rfl⟩
    · cases h
  · cases h

/-- A level that has ordinal enumerators starts from one of them. -/
theorem entry_mem_ordinals (hl : l ∈ levelsOf r sm) (h : l.ordinals ≠ []) :
    Machine.entry r l ∈ l.ordinals := by
  cases hp : l.initial? with
  | none =>
    obtain ⟨e, es, hes⟩ := List.exists_cons_of_ne_nil h
    simp [Machine.entry, hp, hes]
  | some p =>
    simp only [Machine.entry, hp]
    cases hd : Machine.directEntry r l p with
    | none => exact List.mem_filterMap.2 ⟨_, mem_of_initial? hp, by simp [Level.isInitial, hp]⟩
    | some e =>
      obtain ⟨s, hs, hf, rfl⟩ := directEntry_eq_some hr hsm hl hd
      exact Level.stateConstant_mem_ordinals hs hf

end

/-! ## Steps -/

section
variable {r : Registry} {sm : StateMachine} {m : Machine} {γ : Guards} {l : Level} {x : Progress}
  {depth : Nat}

theorem step_of_current (hnames : m.NamesDistinct) (hl : l ∈ m.levels) {y : StepCase}
    (hy : (m.stepFunction r l).current? m.value x.store = some y) :
    m.step r γ (depth + 1) l.name x = (true, m.runCase r γ (m.step r γ depth) x y) := by
  rw [Machine.step, stepFunction?_eq hnames hl]
  simp only [hy]

/-- **A level reports its end** iff it has final states and has terminated. -/
theorem step_fst_eq_false_iff (hnames : m.NamesDistinct) (hl : l ∈ m.levels) :
    (m.step r γ (depth + 1) l.name x).1 = false ↔
      l.finals ≠ [] ∧ x.store l.variableName = .terminal := by
  cases hy : (m.stepFunction r l).current? m.value x.store with
  | none =>
    rw [Machine.step, stepFunction?_eq hnames hl]
    simp only [hy]
    simp [Machine.stepFunction, Level.reportsEnd, value_terminal hnames hl]
  | some y =>
    obtain ⟨-, hlabel, hvalue⟩ := current?_eq_some hy
    rw [value_ordinal hnames hl hlabel] at hvalue
    simp [step_of_current hnames hl hy, ← hvalue]

/-- The functions of states that a case calls belong to states of its level or inside, if those that
    the step functions inside call do. -/
theorem call_mem_runCase (hr : r.WellNested) (hsm : .stateMachine sm ∈ r.elements)
    (hl : l ∈ levelsOf r sm) {v : Vertex} (hv : v ∈ l.vertices) {y : StepCase}
    (hy : (Machine.of r sm).stepCase? r l v = some y) {nested : String → Progress → Bool × Progress}
    {e : String} (hnested : ∀ name x, .call e ∈ (nested name x).2.log →
      .call e ∈ x.log ∨ name.length < e.length)
    (h : .call e ∈ ((Machine.of r sm).runCase r γ nested x y).log) :
    .call e ∈ x.log ∨ l.name.length < e.length := by
  cases y with
  | initial label branches => exact Or.inl ((Progress.call_mem_conditional branches).1 h)
  | state label inside behaves =>
    obtain ⟨s, rfl, rfl, rfl⟩ := stepCase?_state hy
    have hlt := l.length_lt_stateConstant s
    cases hc : (Machine.of r sm).inner? s.id with
    | none =>
      rw [hc, Option.map_none, Machine.runCase, Machine.call_mem_callState] at h
      exact h.imp_right fun he => by rw [he]; exact hlt
    | some c =>
      obtain ⟨-, rfl, -⟩ := inner?_eq_some hr hsm hl hv hc
      have hinside : ∀ {y : Progress}, .call e ∈ (nested (l.insideOf r s).name y).2.log →
          .call e ∈ y.log ∨ l.name.length < e.length := fun h =>
        (hnested _ _ h).imp_right (Nat.lt_trans hlt)
      simp only [hc, Option.map_some, Machine.runCase] at h
      split_ifs at h
      · rw [Machine.call_mem_callState] at h
        rcases h with h | rfl
        · exact (hinside h).imp_left (Progress.call_mem_moves _).1
        · exact Or.inr hlt
      · exact (hinside h).imp_left (Progress.call_mem_moves _).1

/-- The functions of states that a step function calls belong to states of its level or inside. -/
theorem call_mem_step (hr : r.WellNested) (hsm : .stateMachine sm ∈ r.elements) {name e : String}
    (h : .call e ∈ ((Machine.of r sm).step r γ depth name x).2.log) :
    .call e ∈ x.log ∨ name.length < e.length := by
  induction depth generalizing name x with
  | zero => exact Or.inl h
  | succ depth ih =>
    rw [Machine.step] at h
    split at h
    · exact Or.inl h
    · next f hf =>
      obtain ⟨l, hl, rfl⟩ := List.mem_map.1 (List.mem_of_find?_eq_some hf)
      have hname := List.find?_some (p := fun f : StepFunction => f.level.name == name) hf
      obtain rfl : l.name = name := beq_iff_eq.1 hname
      split at h
      · next y hy =>
        obtain ⟨⟨v, hv, hcase⟩, -, -⟩ := current?_eq_some hy
        exact call_mem_runCase hr hsm hl hv hcase (fun _ _ => ih) h
      · exact Or.inl h

end

/-- A level that has terminated is set back when its state is advanced, unless it has no history or
    starts from its end. -/
theorem restored_store_eq_terminal_iff {r : Registry} {sm : StateMachine} {c : Level} {σ : Store}
    (hr : r.WellNested) (hsm : .stateMachine sm ∈ r.elements)
    (hnames : (Machine.of r sm).NamesDistinct) (hc : c ∈ levelsOf r sm)
    (hσ : σ c.variableName = (Machine.of r sm).value c.terminal) :
    (Progress.moves (Machine.of r sm).value { store := σ }
        ((Machine.restoreOf r c).toList.map .restore)).store c.variableName = .terminal ↔
      c.hasHistory = false ∨ c.ordinals = [] := by
  have hterminal := value_terminal hnames hc
  cases hh : c.hasHistory with
  | false => simp [Machine.restoreOf, hh, Progress.moves, hσ, hterminal]
  | true =>
    have hentry : (Move.restore ⟨c.variableName, c.unset, c.terminal, Machine.entry r c⟩).apply
        (Machine.of r sm).value σ c.variableName = (Machine.of r sm).value (Machine.entry r c) :=
      (Move.apply_restore _).trans (if_pos (Or.inr hσ))
    simp only [Machine.restoreOf, hh, if_true, Option.toList_some, List.map_cons, List.map_nil,
      Progress.store_restore, hentry]
    by_cases ho : c.ordinals = []
    · simp [ho, entry_eq_terminal ho, hterminal]
    · simp [ho, value_ordinal hnames hc (entry_mem_ordinals hr hsm hc ho)]

/-- **Completion of composite states.**  The inside of a composite state with behaviour has
    terminated.  The step function of the level of the state calls the function of the state, and
    so runs its activities and tries its completion transitions, iff the inside has final states
    and is not set back before it is asked: the state has no history, or the inside has nothing but
    final states. -/
theorem step_calls_iff {r : Registry} {sm : StateMachine} {owner : String} {m : Machine}
    {l c : Level} {s : State} {σ : Store} (hr : r.Built) (hsm : sm ∈ (r.owned owner).machines)
    (hm : m = .of r sm) (hnames : m.NamesDistinct) (hl : l ∈ m.levels) (hs : .state s ∈ l.vertices)
    (hb : hasBehaviour r s = true) (hc : m.inner? s.id = some c)
    (hσ : σ l.variableName = m.value (l.stateConstant s))
    (hσc : σ c.variableName = m.value c.terminal) (γ : Guards) (depth : Nat) :
    .call (l.stateConstant s) ∈ (m.step r γ (depth + 2) l.name { store := σ }).2.log ↔
      c.finals ≠ [] ∧ (s.hasHistory = false ∨ c.ordinals = []) := by
  subst hm
  have hn := hr.wellNested
  have hmachine := hn.machines owner sm hsm
  obtain ⟨hcm, hin, hf⟩ := inner?_eq_some hn hmachine hl hs hc
  have hcase : (Machine.of r sm).stepCase? r l (.state s) =
      some (.state (l.stateConstant s) (some ⟨c.name, Machine.restoreOf r c⟩) true) := by
    rw [stepCase?_eq_some]
    exact Or.inr ⟨s, rfl, hf, Or.inr hb, by simp [hb, hc]⟩
  have hcurrent := current?_eq hnames hl hs hcase hσ
  rw [step_of_current (x := { store := σ }) hnames hl hcurrent, Machine.runCase]
  set restored := Progress.moves (Machine.of r sm).value { store := σ }
    ((Machine.restoreOf r c).toList.map .restore)
  have hend : ((Machine.of r sm).step r γ (depth + 1) c.name restored).1 = false ↔
      c.finals ≠ [] ∧ (c.hasHistory = false ∨ c.ordinals = []) := by
    rw [step_fst_eq_false_iff hnames hcm, restored_store_eq_terminal_iff hn hmachine hnames hcm hσc]
  -- the step functions inside call functions of deeper states only, so a call is made here or not
  -- at all
  have hinside : .call (l.stateConstant s) ∉
      ((Machine.of r sm).step r γ (depth + 1) c.name restored).2.log := by
    intro h
    rcases call_mem_step hn hmachine h with h | h
    · exact absurd ((Progress.call_mem_moves _).1 h) List.not_mem_nil
    · rw [hin] at h
      exact Nat.lt_irrefl _ h
  have hhistory : c.hasHistory = s.hasHistory := by rw [hin]; rfl
  rw [← hhistory, ← hend]
  cases halive : ((Machine.of r sm).step r γ (depth + 1) c.name restored).1 with
  | true => simpa [halive] using hinside
  | false => simp [Machine.call_mem_callState]

/-! A washer washes, dries and stops.  Washing and drying end when what they do inside ends; drying
    remembers how far it was. -/

def washerMachine : StateMachine := { id := "m", name := "M", parent := "washer" }

def washerWash : State := { id := "wash", name := "Wash", parent := "m" }

def washerDry : State := { id := "dry", name := "Dry", parent := "m", hasHistory := true }

def washer : Registry := Registry.prepare { elements := [
  .classifier { id := "washer", name := "Washer", stereotype := "SimObject" },
  .stateMachine washerMachine,
  .state washerWash,
  .state { id := "soak", name := "Soak", parent := "wash" },
  .state { id := "washed", name := "Washed", parent := "wash", isFinal := true },
  .state { washerDry with hasHistory := false },
  .pseudoState { id := "history", parent := "dry", pseudoKind := .shallowHistory },
  .state { id := "tumble", name := "Tumble", parent := "dry" },
  .state { id := "dried", name := "Dried", parent := "dry", isFinal := true },
  .state { id := "stop", name := "Stop", parent := "m" },
  .transition { id := "t1", source := "soak", target := "washed" },
  .transition { id := "t2", source := "wash", target := "dry" },
  .transition { id := "t3", source := "tumble", target := "dried" },
  .transition { id := "t4", source := "dry", target := "stop" }] }

/-- The level inside the state `s` of the washer. -/
def washerInside (s : State) : Level := (topLevel washer washerMachine).insideOf washer s

/-- The machine of the washer with its levels written out. -/
def washerLevels : Machine :=
  ⟨washerMachine,
    [topLevel washer washerMachine, washerInside washerWash, washerInside washerDry]⟩

theorem washerLevels_eq : washerLevels = Machine.of washer washerMachine := by
  have htrees : washer.machineTrees washerMachine.id =
      [.state washerWash [.state _ [], .state _ []],
        .state washerDry [.pseudo _, .state _ [], .state _ []], .state _ []] := rfl
  rw [Machine.of, levelsOf_eq, htrees]
  simp only [nestedLevels]
  rfl

/-- The top level of the washer is in its `n`-th state, and the levels inside have terminated. -/
def washerAt (n : Nat) : Store := fun x => if x = "state_M" then .ordinal n else .terminal

theorem washer_completes_wash :
    washer.Built ∧ washerMachine ∈ (washer.owned "washer").machines ∧
    washerLevels = Machine.of washer washerMachine ∧ washerLevels.NamesDistinct ∧
    .call "M_Wash" ∈
      (washerLevels.step washer (fun _ _ => true) 3 "M" { store := washerAt 0 }).2.log := by
  have hbuilt : washer.Built := .prepare (.loaded (by decide +kernel))
  have hmachine : washerMachine ∈ (washer.owned "washer").machines := by decide +kernel
  have hnames : washerLevels.NamesDistinct := by decide +kernel
  have hcalls := step_calls_iff (s := washerWash) (l := topLevel washer washerMachine)
    (c := washerInside washerWash) (σ := washerAt 0) hbuilt hmachine washerLevels_eq hnames
    (by decide +kernel) (by decide +kernel) (by decide +kernel) (by decide +kernel)
    (by decide +kernel) (by decide +kernel) (fun _ _ => true) 1
  exact ⟨hbuilt, hmachine, washerLevels_eq, hnames, hcalls.2 ⟨by decide +kernel, Or.inl rfl⟩⟩

/-- A washer that has dried does not stop: the step function does not call the function of the
    state, as drying is set back to its entry before it is asked. -/
theorem washer_misses_dry :
    washer.Built ∧ washerMachine ∈ (washer.owned "washer").machines ∧
    washerLevels = Machine.of washer washerMachine ∧ washerLevels.NamesDistinct ∧
    hasBehaviour washer washerDry = true ∧
    washerLevels.inner? washerDry.id = some (washerInside washerDry) ∧
    washerAt 1 "state_M" = washerLevels.value "M_Dry" ∧
    washerAt 1 "state_M_Dry" = washerLevels.value "M_Dry_TERMINAL" ∧
    .call "M_Dry" ∉
      (washerLevels.step washer (fun _ _ => true) 3 "M" { store := washerAt 1 }).2.log := by
  have hbuilt : washer.Built := .prepare (.loaded (by decide +kernel))
  refine ⟨hbuilt, by decide +kernel, washerLevels_eq, ?_⟩
  decide +kernel

end ObjectLowering.Lowering
