/-
  What the generated code of a state machine means.

  * `Machine.value` is what an enumerator stands for, by the declarations of
    all levels; final states stand for the end of their level.  On the top
    level, different states have different values (`value_injOn_top`).
  * `EventSwitch.taken` is the branch that the switch of an event executes,
    and `applyMoves` what the effects of a branch do to the state variables.
    Guards are opaque: which of them are true is given.
  * `Machine.Active` says when a vertex is active, and how deep it lies.  The
    settings that a level keeps for a vertex say the same (`active_iff`).
-/
import Mathlib.Logic.Function.Basic
import ObjectLowering.Lowering.MachineCode
import ObjectLowering.Proofs.Nesting

namespace ObjectLowering.Lowering

open Model Code

/-! ## Values -/

/-- What a state variable holds: a number, or that its level has terminated. No number is as
    great as the one that is written for a level that has terminated. -/
inductive StateValue where
  | ordinal (n : Nat)
  | terminal
deriving DecidableEq, Repr

/-- The enumerators of a level with what they stand for. -/
def Level.values (l : Level) : List (String × StateValue) :=
  l.ordinals.mapIdx (fun i name => (name, .ordinal i)) ++
  [(l.count, .ordinal l.ordinals.length), (l.unset, .ordinal l.ordinals.length),
    (l.terminal, .terminal)] ++
  l.finals.map fun name => (name, .terminal)

/-- What an enumerator stands for. -/
def Machine.value (m : Machine) (enumerator : String) : StateValue :=
  ((m.levels.flatMap Level.values).lookup enumerator).getD (.ordinal 0)

/-- The state variables with what they hold. -/
abbrev Store := String → StateValue

section
variable {r : Registry} {sm : StateMachine} {l : Level} {e : String} {s s' : State}

theorem map_fst_mapIdx {β : Type} (f : Nat → β) (names : List String) :
    (names.mapIdx fun i name => (name, f i)).map (·.1) = names := by
  induction names generalizing f with
  | nil => rfl
  | cons n names ih => rw [List.mapIdx_cons, List.map_cons, ih fun i => f (i + 1)]

/-- The values are those of the declared enumerators. -/
theorem Level.values_names (l : Level) : l.values.map (·.1) = l.enumerators.map (·.1) := by
  simp only [values, enumerators, List.map_append, map_fst_mapIdx, List.map_map]
  rfl

theorem lookup_mapIdx {β : Type} (f : Nat → β) {names : List String} (h : e ∈ names) :
    (names.mapIdx fun i name => (name, f i)).lookup e = some (f (names.idxOf e)) := by
  induction names generalizing f with
  | nil => cases h
  | cons n names ih =>
    rw [List.mapIdx_cons, List.lookup_cons, List.idxOf_cons]
    by_cases hn : e = n
    · simp [hn]
    · have hmem : e ∈ names := (List.mem_cons.1 h).resolve_left hn
      rw [beq_false_of_ne hn, beq_false_of_ne (Ne.symm hn)]
      exact ih (fun i => f (i + 1)) hmem

theorem Level.lookup_values (h : e ∈ l.ordinals) :
    l.values.lookup e = some (.ordinal (l.ordinals.idxOf e)) := by
  rw [values, List.append_assoc, List.lookup_append, lookup_mapIdx _ h]
  rfl

theorem Level.stateConstant_mem_ordinals (hs : .state s ∈ l.vertices) (hf : s.isFinal = false) :
    l.stateConstant s ∈ l.ordinals :=
  List.mem_filterMap.2 ⟨_, hs, by simp [hf]⟩

theorem value_top (h : e ∈ (topLevel r sm).ordinals) :
    (Machine.of r sm).value e = .ordinal ((topLevel r sm).ordinals.idxOf e) := by
  have hlevels : (Machine.of r sm).levels =
      topLevel r sm :: nestedLevels (topLevel r sm) (r.machineTrees sm.id) := rfl
  rw [Machine.value, hlevels, List.flatMap_cons, List.lookup_append, Level.lookup_values h]
  rfl

/-- **Top-level states are told apart by their values.** -/
theorem value_injOn_top (hs : .state s ∈ (topLevel r sm).vertices) (hf : s.isFinal = false)
    (hs' : .state s' ∈ (topLevel r sm).vertices) (hf' : s'.isFinal = false)
    (h : (Machine.of r sm).value ((topLevel r sm).stateConstant s) =
      (Machine.of r sm).value ((topLevel r sm).stateConstant s')) :
    (topLevel r sm).stateConstant s = (topLevel r sm).stateConstant s' := by
  have hmem := Level.stateConstant_mem_ordinals hs hf
  rw [value_top hmem, value_top (Level.stateConstant_mem_ordinals hs' hf'),
    StateValue.ordinal.injEq] at h
  exact (List.idxOf_inj hmem).1 h

end

/-! ## Conditions -/

section
variable (value : String → StateValue) (σ : Store) (γ : String → Bool)

/-- The variable holds the enumerator. -/
def Setting.Holds (s : Setting) : Prop := σ s.var = value s.enumerator

/-- The condition of a branch is true, the guards that are true being given. -/
def Branch.Enabled (b : Branch) : Prop :=
  (∀ s ∈ b.tests, s.Holds value σ) ∧ (b.guard = "" ∨ γ b.guard = true)

instance (s : Setting) : Decidable (s.Holds value σ) :=
  inferInstanceAs (Decidable (σ s.var = value s.enumerator))

instance (b : Branch) : Decidable (b.Enabled value σ γ) :=
  inferInstanceAs (Decidable ((∀ s ∈ b.tests, s.Holds value σ) ∧
    (b.guard = "" ∨ γ b.guard = true)))

/-- The branch that a conditional executes: the first of the written ones whose condition is
    true. -/
def Branch.taken (bs : List Branch) : Option Branch :=
  (reachable bs).find? fun b => b.Enabled value σ γ

/-- The branch that the switch of an event executes: that of the case whose label the variable
    holds. -/
def EventSwitch.taken (s : EventSwitch) : Option Branch :=
  (s.groups.find? fun g => value g.1 = σ s.var).bind fun g => Branch.taken value σ γ g.2

variable {value σ γ}

theorem Branch.enabled_of_isUnconditional {b : Branch} (h : b.isUnconditional = true) :
    b.Enabled value σ γ := by
  simp only [isUnconditional, Bool.and_eq_true, List.isEmpty_iff, beq_iff_eq] at h
  exact ⟨by simp [h.1], Or.inl h.2⟩

/-- A branch that is not written would not be executed either. -/
theorem Branch.taken_eq (bs : List Branch) :
    taken value σ γ bs = bs.find? fun b => b.Enabled value σ γ := by
  rw [taken]
  induction bs with
  | nil => rfl
  | cons b bs ih =>
    rw [reachable]
    split_ifs with h
    · simp [enabled_of_isUnconditional h]
    · rw [List.find?_cons, List.find?_cons, ih]

theorem elseEdits_reachable (bs : List Branch) :
    elseEdits (Branch.reachable bs) = elseEdits bs := by
  induction bs with
  | nil => rfl
  | cons b bs ih =>
    rw [Branch.reachable]
    split_ifs with h
    · simp [elseEdits, h]
    · rw [elseEdits, elseEdits, ih]

/-- Exactly the branches up to the first that is always taken are written. -/
theorem chainEdits_reachable (bs : List Branch) :
    chainEdits (Branch.reachable bs) = chainEdits bs := by
  cases bs with
  | nil => rfl
  | cons b bs =>
    rw [Branch.reachable]
    split_ifs with h
    · simp [chainEdits, h]
    · rw [chainEdits, chainEdits, elseEdits_reachable]

end

/-! ## Effects -/

/-- What a move does to the state variables. Statements of actions leave them alone. -/
def Move.apply (value : String → StateValue) (σ : Store) : Move → Store
  | .assign s => Function.update σ s.var (value s.enumerator)
  | .restore x =>
    if σ x.var = value x.unset ∨ σ x.var = value x.terminal then
      Function.update σ x.var (value x.entry)
    else σ
  | .run _ => σ

/-- What moves do to the state variables, one after the other. -/
def applyMoves (value : String → StateValue) (moves : List Move) (σ : Store) : Store :=
  moves.foldl (Move.apply value) σ

/-- The variable that a move assigns. -/
def Move.var? : Move → Option String
  | .assign s => some s.var
  | .restore x => some x.var
  | .run _ => none

/-- The variables that moves assign. -/
def assigned (moves : List Move) : List String := moves.filterMap Move.var?

section
variable {value : String → StateValue} {σ : Store} {x : String} {moves : List Move}

theorem applyMoves_append (value : String → StateValue) (ms ms' : List Move) (σ : Store) :
    applyMoves value (ms ++ ms') σ = applyMoves value ms' (applyMoves value ms σ) :=
  List.foldl_append

theorem assigned_append (ms ms' : List Move) : assigned (ms ++ ms') = assigned ms ++ assigned ms' :=
  List.filterMap_append

theorem assigned_map_assign (ss : List Setting) : assigned (ss.map .assign) = ss.map (·.var) := by
  rw [assigned, List.filterMap_map, ← List.filterMap_eq_map]
  rfl

theorem Move.apply_of_ne {move : Move} (h : move.var? ≠ some x) : move.apply value σ x = σ x := by
  cases move with
  | assign s =>
    exact Function.update_of_ne (fun he => h (congrArg some he.symm)) _ _
  | restore y =>
    have hne : x ≠ y.var := fun he => h (congrArg some he.symm)
    simp only [Move.apply]
    split_ifs
    · exact Function.update_of_ne hne _ _
    · rfl
  | run _ => rfl

theorem Move.apply_restore (y : Restore) :
    (Move.restore y).apply value σ y.var =
      if σ y.var = value y.unset ∨ σ y.var = value y.terminal then value y.entry else σ y.var := by
  rw [Move.apply]
  split_ifs
  · exact Function.update_self _ _ _
  · rfl

/-- Moves leave the variables alone that they do not assign. -/
theorem applyMoves_of_not_mem (h : x ∉ assigned moves) : applyMoves value moves σ x = σ x := by
  induction moves generalizing σ with
  | nil => rfl
  | cons move moves ih =>
    have hrest : x ∉ assigned moves := fun hx => by
      obtain ⟨move', hm, hv⟩ := List.mem_filterMap.1 hx
      exact h (List.mem_filterMap.2 ⟨move', List.mem_cons_of_mem _ hm, hv⟩)
    have hmove : move.var? ≠ some x := fun hv =>
      h (List.mem_filterMap.2 ⟨move, List.mem_cons_self, hv⟩)
    exact (ih hrest).trans (Move.apply_of_ne hmove)

/-- Settings of different variables all hold once they were assigned. -/
theorem holds_of_assigned {ss : List Setting} (h : ss.Pairwise fun a b => a.var ≠ b.var)
    {s : Setting} (hs : s ∈ ss) : s.Holds value (applyMoves value (ss.map .assign) σ) := by
  obtain ⟨before, after, rfl⟩ := List.append_of_mem hs
  have hafter : s.var ∉ assigned (after.map .assign) := by
    rw [assigned_map_assign, List.mem_map]
    rintro ⟨b, hb, he⟩
    have hpair := List.pairwise_cons.1 (List.pairwise_append.1 h).2.1
    exact hpair.1 b hb he.symm
  rw [Setting.Holds, List.map_append, applyMoves_append, List.map_cons]
  exact (applyMoves_of_not_mem hafter).trans (Function.update_self _ _ _)

end

/-! ## Active vertices -/

/-- A vertex of a level is active, at a depth: the variable of its level holds its enumerator, and
    those of the levels around, as many as the depth, the enumerators of the states it lies in. -/
def Machine.Active (m : Machine) (σ : Store) (l : Level) (v : Vertex) (depth : Nat) : Prop :=
  ∃ ls, m.Around l ls ∧ ls.length = depth ∧ σ l.variableName = m.value (l.constant v) ∧
    ∀ p ∈ ls, σ p.1.variableName = m.value (p.1.stateConstant p.2)

section
variable {r : Registry} {sm : StateMachine} {l : Level} {σ : Store}

theorem active_iff (hr : r.WellNested) (hsm : .stateMachine sm ∈ r.elements)
    (hl : l ∈ levelsOf r sm) (v : Vertex) (depth : Nat) :
    (Machine.of r sm).Active σ l v depth ↔
      l.ascent.length = depth ∧
        ∀ x ∈ l.activeSettings v, x.Holds (Machine.of r sm).value σ := by
  have hholds : ∀ ls : List (Level × State), l.ascent = ls.map settingAt →
      ((∀ x ∈ l.activeSettings v, x.Holds (Machine.of r sm).value σ) ↔
        σ l.variableName = (Machine.of r sm).value (l.constant v) ∧
          ∀ p ∈ ls, σ p.1.variableName = (Machine.of r sm).value (p.1.stateConstant p.2)) := by
    intro ls hascent
    rw [Level.activeSettings, List.forall_mem_cons, hascent, List.forall_mem_map]
    rfl
  constructor
  · rintro ⟨ls, hls, hdepth, hv, hp⟩
    have hascent := hls.ascent_eq hr hsm
    refine ⟨?_, (hholds ls hascent).2 ⟨hv, hp⟩⟩
    rw [hascent, List.length_map, hdepth]
  · rintro ⟨hdepth, h⟩
    obtain ⟨ls, hls⟩ := exists_around hl
    have hascent := hls.ascent_eq hr hsm
    refine ⟨ls, hls, ?_, (hholds ls hascent).1 h⟩
    rw [← hdepth, hascent, List.length_map]

end

/-! ## Step functions -/

/-- **What a vertex has in the step function of its level**: an initial pseudostate its branches, a
    state the level inside and its behaviour, unless it has neither. -/
theorem stepCase?_eq_some {r : Registry} {m : Machine} {l : Level} {v : Vertex} {y : StepCase} :
    m.stepCase? r l v = some y ↔
      (∃ p, v = .pseudo p ∧ l.isInitial p = true ∧
        y = .initial (l.initialConstant p) (m.completionBranches r p.id)) ∨
      ∃ s, v = .state s ∧ s.isFinal = false ∧
        ((m.inner? s.id).isSome = true ∨ hasBehaviour r s = true) ∧
        y = .state (l.stateConstant s)
          ((m.inner? s.id).map fun c => { level := c.name, restore := Machine.restoreOf r c })
          (hasBehaviour r s) := by
  constructor
  · intro h
    cases v with
    | pseudo p =>
      simp only [Machine.stepCase?, Option.ite_none_right_eq_some, Option.some.injEq] at h
      exact Or.inl ⟨p, rfl, h.1, h.2.symm⟩
    | state s =>
      simp only [Machine.stepCase?, Option.ite_none_left_eq_some, Option.some.injEq] at h
      obtain ⟨hf, hsome, hy⟩ := h
      refine Or.inr ⟨s, rfl, Bool.eq_false_iff.2 hf, ?_, hy.symm⟩
      cases hc : m.inner? s.id with
      | none => exact Or.inr (by simpa [hc] using hsome)
      | some c => exact Or.inl rfl
  · rintro (⟨p, rfl, hp, rfl⟩ | ⟨s, rfl, hf, hsome, rfl⟩)
    · exact if_pos hp
    · rcases hsome with h | h
      · obtain ⟨c, hc⟩ := Option.isSome_iff_exists.1 h
        simp [Machine.stepCase?, hf, hc]
      · simp [Machine.stepCase?, hf, h]

end ObjectLowering.Lowering
