/-
  The chains of branches in the code of a class.

  * `Machine.chains` are all chains of a machine: those of initial
    pseudostates, of states and of events (`mem_chains`).
  * The branches up to the first that is always taken are the written ones
    (`Machine.written`); the code of the class has their effects
    (`effects_written`), and its reports are those on the written branches and
    on the branch that is cut off behind them (`mem_notes`).
-/
import ObjectLowering.Proofs.Dispatch
import ObjectLowering.Proofs.Lowering

namespace ObjectLowering.Lowering

open Model Code

/-! ## Chains -/

/-- The report on a branch that is never tried. -/
def Branch.unreachableNote (b : Branch) : Diagnostic :=
  { code := .unreachable, element := b.transition.id
    message := "transition is unreachable after an unguarded transition" }

/-- The first branch behind one that is always taken. -/
def Branch.cutOff? : List Branch → Option Branch
  | [] => none
  | b :: rest => if b.isUnconditional then rest.head? else cutOff? rest

section
variable {b : Branch} {bs : List Branch}

/-- The branches that are tried are those without an unconditional one before them. -/
theorem Branch.mem_reachable :
    b ∈ reachable bs ↔
      ∃ before after, bs = before ++ b :: after ∧ ∀ x ∈ before, x.isUnconditional = false := by
  induction bs with
  | nil => simp [reachable]
  | cons x bs ih =>
    rw [reachable]
    split_ifs with hx
    · rw [List.mem_singleton]
      constructor
      · rintro rfl
        exact ⟨[], bs, rfl, by simp⟩
      · rintro ⟨before, after, hsplit, hbefore⟩
        cases before with
        | nil => exact (List.cons.inj hsplit).1.symm
        | cons y before =>
          obtain ⟨rfl, -⟩ := List.cons.inj hsplit
          simp [hbefore x List.mem_cons_self] at hx
    · rw [List.mem_cons, ih]
      constructor
      · rintro (rfl | ⟨before, after, rfl, hbefore⟩)
        · exact ⟨[], bs, rfl, by simp⟩
        · refine ⟨x :: before, after, rfl, fun y hy => ?_⟩
          rcases List.mem_cons.1 hy with rfl | hy
          · exact Bool.eq_false_iff.2 hx
          · exact hbefore y hy
      · rintro ⟨before, after, hsplit, hbefore⟩
        cases before with
        | nil => exact Or.inl (List.cons.inj hsplit).1.symm
        | cons y before =>
          obtain ⟨rfl, rfl⟩ := List.cons.inj hsplit
          exact Or.inr ⟨before, after, rfl, fun y hy => hbefore y (List.mem_cons_of_mem _ hy)⟩

theorem Branch.mem_of_mem_reachable (h : b ∈ reachable bs) : b ∈ bs := by
  obtain ⟨before, after, rfl, -⟩ := mem_reachable.1 h
  simp

theorem Branch.cutOff?_eq_some :
    cutOff? bs = some b ↔ ∃ before x after, bs = before ++ x :: b :: after ∧
      x.isUnconditional = true ∧ ∀ y ∈ before, y.isUnconditional = false := by
  induction bs with
  | nil => simp [cutOff?]
  | cons x bs ih =>
    rw [cutOff?]
    split_ifs with hx
    · rw [List.head?_eq_some_iff]
      constructor
      · rintro ⟨after, rfl⟩
        exact ⟨[], x, after, rfl, hx, by simp⟩
      · rintro ⟨before, y, after, hsplit, -, hbefore⟩
        cases before with
        | nil => exact ⟨after, (List.cons.inj hsplit).2⟩
        | cons z before =>
          obtain ⟨rfl, -⟩ := List.cons.inj hsplit
          simp [hbefore x List.mem_cons_self] at hx
    · rw [ih]
      constructor
      · rintro ⟨before, y, after, rfl, hy, hbefore⟩
        exact ⟨x :: before, y, after, rfl, hy,
          List.forall_mem_cons.2 ⟨Bool.eq_false_iff.2 hx, hbefore⟩⟩
      · rintro ⟨before, y, after, hsplit, hy, hbefore⟩
        cases before with
        | nil =>
          obtain ⟨rfl, -⟩ := List.cons.inj hsplit
          exact absurd hy hx
        | cons z before =>
          obtain ⟨rfl, rfl⟩ := List.cons.inj hsplit
          exact ⟨before, y, after, rfl, hy, (List.forall_mem_cons.1 hbefore).2⟩

theorem Branch.mem_of_cutOff? (h : cutOff? bs = some b) : b ∈ bs := by
  obtain ⟨before, x, after, rfl, -⟩ := cutOff?_eq_some.1 h
  simp

theorem Branch.isUnconditional_of_tests (h : b.tests ≠ []) : b.isUnconditional = false := by
  simp [isUnconditional, h]

/-- Branches with tests do not end a chain. -/
theorem Branch.reachable_append {deep : List Branch} (h : ∀ b ∈ deep, b.tests ≠ []) :
    reachable (deep ++ bs) = deep ++ reachable bs := by
  induction deep with
  | nil => rfl
  | cons b deep ih =>
    obtain ⟨hb, hdeep⟩ := List.forall_mem_cons.1 h
    rw [List.cons_append, reachable, isUnconditional_of_tests hb, ih hdeep]
    rfl

theorem Branch.cutOff?_append {deep : List Branch} (h : ∀ b ∈ deep, b.tests ≠ []) :
    cutOff? (deep ++ bs) = cutOff? bs := by
  induction deep with
  | nil => rfl
  | cons b deep ih =>
    obtain ⟨hb, hdeep⟩ := List.forall_mem_cons.1 h
    rw [List.cons_append, cutOff?, isUnconditional_of_tests hb, ih hdeep]
    rfl

theorem Branch.chainNotes_eq (bs : List Branch) :
    chainNotes bs =
      (reachable bs).flatMap (·.notes) ++ (cutOff? bs).toList.map unreachableNote := by
  induction bs with
  | nil => rfl
  | cons b bs ih =>
    unfold chainNotes
    rw [reachable, cutOff?]
    split_ifs
    · cases bs <;> simp [unreachableNote]
    · rw [ih, List.flatMap_cons, List.append_assoc]

theorem effects_elseEdits (h : b ∈ Branch.reachable bs) : b.effectEdits <:+: elseEdits bs := by
  induction bs with
  | nil => cases h
  | cons x bs ih =>
    rw [Branch.reachable] at h
    rw [elseEdits]
    split_ifs at h ⊢
    · obtain rfl := List.mem_singleton.1 h
      exact List.infix_append ..
    · rcases List.mem_cons.1 h with rfl | h
      · exact List.infix_append ..
      · exact (ih h).trans (List.suffix_append ..).isInfix

/-- A conditional has the effects of every branch that is tried. -/
theorem effects_chainEdits (h : b ∈ Branch.reachable bs) : b.effectEdits <:+: chainEdits bs := by
  cases bs with
  | nil => cases h
  | cons x bs =>
    rw [Branch.reachable] at h
    rw [chainEdits]
    split_ifs at h ⊢
    · obtain rfl := List.mem_singleton.1 h
      exact List.infix_refl _
    · rcases List.mem_cons.1 h with rfl | h
      · exact List.infix_cons (List.prefix_append ..).isInfix
      · exact (effects_elseEdits h).trans (List.suffix_append ..).isInfix

end

namespace Machine

/-- The branches of an event with one label, deeper sources first. -/
def rivals (m : Machine) (r : Registry) (event label : String) : List Branch :=
  ((((m.candidates r event).map (m.branchAt r)).filter fun x => x.1 == label).map (·.2)).mergeSort
    fun a b => decide (b.tests.length ≤ a.tests.length)

/-- All chains in the code of a machine. -/
def chains (m : Machine) (r : Registry) (events : List String) : List (List Branch) :=
  (m.stepFunctions r).flatMap (fun f => f.cases.filterMap fun
    | .initial _ branches => some branches
    | .state _ _ _ => none) ++
  (m.stateFunctions r).map (·.branches) ++
  events.flatMap fun e => (m.eventSwitch r e).groups.map (·.2)

/-- The branches in the code of a machine. -/
def written (m : Machine) (r : Registry) (events : List String) : List Branch :=
  (m.chains r events).flatMap Branch.reachable

end Machine

section
variable {r : Registry} {m : Machine} {events : List String} {event label : String} {l : Level}
  {s : State} {b : Branch} {bs : List Branch}

theorem mem_rivals :
    b ∈ m.rivals r event label ↔ ∃ x ∈ m.candidates r event, m.branchAt r x = (label, b) := by
  simp only [Machine.rivals, List.mem_mergeSort, List.mem_map, List.mem_filter, beq_iff_eq]
  constructor
  · rintro ⟨⟨label', b⟩, ⟨⟨x, hx, he⟩, rfl⟩, rfl⟩
    exact ⟨x, hx, he⟩
  · rintro ⟨x, hx, he⟩
    exact ⟨_, ⟨⟨x, hx, he⟩, rfl⟩, rfl⟩

theorem mem_groups {g : String × List Branch} :
    g ∈ (m.eventSwitch r event).groups ↔
      g.2 = m.rivals r event g.1 ∧ ∃ x ∈ m.candidates r event, (m.branchAt r x).1 = g.1 := by
  obtain ⟨label, bs⟩ := g
  rw [eventSwitch_groups, List.mem_map]
  simp only [List.mem_eraseDups, List.mem_map, Prod.mk.injEq]
  constructor
  · rintro ⟨label', ⟨-, ⟨x, hx, rfl⟩, rfl⟩, rfl, rfl⟩
    exact ⟨rfl, x, hx, rfl⟩
  · rintro ⟨rfl, x, hx, rfl⟩
    exact ⟨_, ⟨_, ⟨x, hx, rfl⟩, rfl⟩, rfl, rfl⟩

/-- A chain stands in the code of one function: at an initial label of a step, in the code of a
    state, or at a label of an event. -/
theorem mem_chains_functions :
    bs ∈ m.chains r events ↔
      (∃ f ∈ m.stepFunctions r, ∃ label, .initial label bs ∈ f.cases) ∨
      (∃ f ∈ m.stateFunctions r, f.branches = bs) ∨
      ∃ e ∈ events, ∃ g ∈ (m.eventSwitch r e).groups, g.2 = bs := by
  simp only [Machine.chains, List.mem_append, List.mem_flatMap, List.mem_filterMap, List.mem_map,
    or_assoc]
  refine or_congr_left ?_
  constructor
  · rintro ⟨f, hf, c, hc, hbs⟩
    cases c with
    | state label inside behaves => cases hbs
    | initial label branches =>
      obtain rfl := Option.some.inj hbs
      exact ⟨f, hf, label, hc⟩
  · rintro ⟨f, hf, label, hc⟩
    exact ⟨f, hf, _, hc, rfl⟩

/-- **The chains** are those of the initial pseudostate of a level, of a state with behaviour, and
    of the sources of an event that lie in one top-level state. -/
theorem mem_chains :
    bs ∈ m.chains r events ↔
      (∃ l ∈ m.levels, ∃ p, .pseudo p ∈ l.vertices ∧ l.isInitial p = true ∧
        bs = m.completionBranches r p.id) ∨
      (∃ l ∈ m.levels, ∃ s, .state s ∈ l.vertices ∧ s.isFinal = false ∧ hasBehaviour r s = true ∧
        bs = m.completionBranches r s.id) ∨
      ∃ e ∈ events, ∃ x ∈ m.candidates r e, bs = m.rivals r e (m.branchAt r x).1 := by
  rw [mem_chains_functions]
  refine or_congr ?_ (or_congr ?_ ?_)
  · simp only [Machine.stepFunctions, List.mem_map]
    constructor
    · rintro ⟨f, ⟨l, hl, rfl⟩, label, hc⟩
      obtain ⟨v, hv, hcase⟩ := List.mem_filterMap.1 hc
      rcases stepCase?_eq_some.1 hcase with ⟨p, rfl, hp, hcase⟩ | ⟨s, -, -, -, hcase⟩
      · exact ⟨l, hl, p, hv, hp, (StepCase.initial.inj hcase).2⟩
      · cases hcase
    · rintro ⟨l, hl, p, hp, hi, rfl⟩
      refine ⟨_, ⟨l, hl, rfl⟩, l.initialConstant p, ?_⟩
      exact List.mem_filterMap.2 ⟨_, hp, stepCase?_eq_some.2 (Or.inl ⟨p, rfl, hi, rfl⟩)⟩
  · simp only [Machine.stateFunctions, Machine.behaviourStates, List.mem_map, List.mem_flatMap,
      List.mem_filter, Level.mem_states]
    constructor
    · rintro ⟨f, ⟨x, ⟨l, hl, s, ⟨⟨hs, hf⟩, hb⟩, rfl⟩, rfl⟩, rfl⟩
      exact ⟨l, hl, s, hs, hf, hb, rfl⟩
    · rintro ⟨l, hl, s, hs, hf, hb, rfl⟩
      exact ⟨_, ⟨(l, s), ⟨l, hl, s, ⟨⟨hs, hf⟩, hb⟩, rfl⟩, rfl⟩, rfl⟩
  · simp only [mem_groups]
    constructor
    · rintro ⟨e, he, ⟨label, bs⟩, ⟨hbs, x, hx, rfl⟩, rfl⟩
      exact ⟨e, he, x, hx, hbs⟩
    · rintro ⟨e, he, x, hx, rfl⟩
      exact ⟨e, he, (_, _), ⟨rfl, x, hx, rfl⟩, rfl⟩

/-- The branch of a candidate has a test for each level around its source, of settings under which
    the source is active. -/
theorem exists_branchAt (m : Machine) (r : Registry) (l : Level) (s : State) (t : Transition) :
    ∃ label tests, m.branchAt r (l, s, t) = (label, m.branch r tests t) ∧
      tests.length = l.ascent.length ∧ ∀ y ∈ tests, y ∈ l.activeSettings (.state s) := by
  have hlength : (l.activeSettings (.state s)).reverse.length = l.ascent.length + 1 := by
    simp [Level.activeSettings]
  rw [Machine.branchAt, Machine.triggeredBranch]
  split
  · next h => simp [h] at hlength
  · next top nested h =>
    refine ⟨_, _, rfl, by simpa [h] using hlength, fun y hy => ?_⟩
    rw [← List.mem_reverse, h]
    exact List.mem_cons_of_mem _ hy

/-- The branches of a chain are made from transitions, with tests of settings under which a state is
    active. -/
theorem branch_of_mem_chain (hbs : bs ∈ m.chains r events) (hb : b ∈ bs) :
    ∃ tests t, b = m.branch r tests t ∧ ∀ x ∈ tests, ∃ l ∈ m.levels, ∃ s, .state s ∈ l.vertices ∧
      x ∈ l.activeSettings (.state s) := by
  have completion : ∀ id, b ∈ m.completionBranches r id → ∃ tests t, b = m.branch r tests t ∧
      ∀ x ∈ tests, ∃ l ∈ m.levels, ∃ s, .state s ∈ l.vertices ∧
        x ∈ l.activeSettings (.state s) := by
    intro id h
    obtain ⟨t, -, rfl⟩ := List.mem_map.1 h
    exact ⟨[], t, rfl, by simp⟩
  rcases mem_chains.1 hbs with ⟨l, -, p, -, -, rfl⟩ | ⟨l, -, s, -, -, -, rfl⟩ | ⟨e, -, x, -, rfl⟩
  · exact completion _ hb
  · exact completion _ hb
  · obtain ⟨⟨l, s, t⟩, hx, hy⟩ := mem_rivals.1 hb
    obtain ⟨hl, hs, -⟩ := mem_candidates.1 hx
    obtain ⟨label, tests, hbranch, -, htests⟩ := exists_branchAt m r l s t
    rw [hbranch] at hy
    exact ⟨tests, t, (Prod.mk.inj hy).2.symm, fun x hx => ⟨l, hl, s, hs, htests x hx⟩⟩

/-- The reports on a branch name its transition. -/
theorem note_of_branch {tests : List Setting} {t : Transition} {d : Diagnostic}
    (h : d ∈ (m.branch r tests t).notes) : d.code = .unsupportedVertex ∧ d.element = t.id := by
  rw [Machine.branch] at h
  cases hv : r.vertex? t.target with
  | none => simp [hv] at h
  | some v =>
    simp only [hv, Option.map_some, Option.getD_some, Machine.enterNotes] at h
    split at h
    · split_ifs at h
      · cases h
      · rw [List.mem_singleton.1 h]
        exact ⟨rfl, rfl⟩
    · rw [List.mem_singleton.1 h]
      exact ⟨rfl, rfl⟩
    · cases h
    · cases h

/-- The reports on a level name its pseudostates. -/
theorem note_of_level {d : Diagnostic} (h : d ∈ l.notes) :
    d.code = .unsupportedVertex ∧ ∃ p, .pseudo p ∈ l.vertices ∧ d.element = p.id := by
  obtain ⟨v, hv, hd⟩ := List.mem_filterMap.1 h
  cases v with
  | state s => cases hd
  | pseudo p =>
    simp only at hd
    split at hd
    · cases hd
    · cases hd
    · obtain rfl := Option.some.inj hd
      exact ⟨rfl, p, hv, rfl⟩

theorem mem_written : b ∈ m.written r events ↔ ∃ bs ∈ m.chains r events, b ∈ Branch.reachable bs :=
  List.mem_flatMap

end

/-! ## The code of a class -/

section
variable {r : Registry} {p : Plan} {stems : Stems} {m : Machine} {b : Branch} {bs : List Branch}

theorem infix_flatMap {α β : Type} {f : α → List β} {x : α} {xs : List α} {ys : List β}
    (hx : x ∈ xs) (h : ys <:+: f x) : ys <:+: xs.flatMap f :=
  h.trans (List.infix_of_mem_flatten (List.mem_map_of_mem hx))

theorem infix_labelled {label : String} {body ys : List Edit} (h : ys <:+: body) :
    ys <:+: Accessor.labelled label body :=
  h.trans (List.infix_append ..)

theorem mem_events {event : String} {x : Level × State × Transition} (hm : m ∈ p.machines)
    (hx : x ∈ m.candidates r event) : event ∈ p.events r := by
  obtain ⟨⟨e, y⟩, hy, -⟩ := List.mem_map.1 hx
  obtain ⟨hy', he⟩ := List.mem_filter.1 hy
  obtain rfl : e = event := beq_iff_eq.1 he
  exact List.mem_eraseDups.2 (List.mem_flatMap.2 ⟨m, hm, List.mem_map.2 ⟨(e, y), hy', rfl⟩⟩)

/-- The definition of a class has the conditionals of all chains of its machines. -/
theorem chainEdits_definition (hm : m ∈ p.machines) (hbs : bs ∈ m.chains r (p.events r)) :
    chainEdits bs <:+: p.definitionEdits r stems := by
  have breaking : ∀ label, chainEdits bs <:+: breakingCase label (chainEdits bs) := fun label =>
    infix_labelled (List.prefix_append ..).isInfix
  have machine : chainEdits bs <:+: m.definitionEdits r p.name →
      chainEdits bs <:+: p.definitionEdits r stems := fun h =>
    (infix_flatMap hm h).trans (List.infix_append ..)
  rcases mem_chains_functions.1 hbs with ⟨f, hf, label, hc⟩ | ⟨f, hf, rfl⟩ | ⟨e, he, g, hg, rfl⟩
  · refine machine ((infix_flatMap hf ?_).trans (List.prefix_append ..).isInfix)
    have hcase : chainEdits bs <:+: f.cases.flatMap StepCase.edits :=
      infix_flatMap hc (breaking label)
    refine hcase.trans ?_
    simp only [spaced, StepFunction.edits, List.append_assoc]
    exact List.infix_append' ..
  · refine machine ((infix_flatMap hf ?_).trans (List.suffix_append ..).isInfix)
    simp only [spaced, StateFunction.edits, List.append_assoc, List.cons_append]
    exact List.infix_cons (List.infix_append' ..)
  · refine (infix_flatMap he ?_).trans (List.suffix_append ..).isInfix
    have hne : (m.eventSwitch r e).groups ≠ [] := List.ne_nil_of_mem hg
    have hcases : chainEdits g.2 <:+: (m.eventSwitch r e).groups.flatMap
        fun g => breakingCase g.1 (chainEdits g.2) := infix_flatMap hg (breaking g.1)
    have hswitch : chainEdits g.2 <:+: (m.eventSwitch r e).edits := by
      rw [EventSwitch.edits, if_neg (by simpa using hne)]
      simp only [List.append_assoc, List.cons_append]
      exact List.infix_cons (hcases.trans (List.prefix_append ..).isInfix)
    have hevent : chainEdits g.2 <:+: p.machines.flatMap fun m => (m.eventSwitch r e).edits :=
      infix_flatMap hm hswitch
    simp only [spaced, eventEdits, List.append_assoc, List.cons_append]
    exact List.infix_cons (hevent.trans (List.prefix_append ..).isInfix)

/-- **The definition of a class has the effects of all written branches.** -/
theorem effects_written (hm : m ∈ p.machines) (hb : b ∈ m.written r (p.events r)) :
    b.effectEdits <:+: p.definitionEdits r stems := by
  obtain ⟨bs, hbs, hb⟩ := mem_written.1 hb
  exact (effects_chainEdits hb).trans (chainEdits_definition hm hbs)

/-- The reports on the functions of a machine are those on its chains. -/
theorem mem_machineNotes {events : List String} {d : Diagnostic} :
    (d ∈ m.functionNotes r ∨ ∃ e ∈ events, d ∈ (m.eventSwitch r e).notes) ↔
      ∃ bs ∈ m.chains r events, d ∈ Branch.chainNotes bs := by
  simp only [mem_chains_functions, Machine.functionNotes, EventSwitch.notes, List.mem_append,
    List.mem_flatMap]
  constructor
  · rintro ((⟨f, hf, c, hc, hd⟩ | ⟨f, hf, hd⟩) | ⟨e, he, g, hg, hd⟩)
    · cases c with
      | state label inside behaves => cases hd
      | initial label branches => exact ⟨branches, Or.inl ⟨f, hf, label, hc⟩, hd⟩
    · exact ⟨_, Or.inr (Or.inl ⟨f, hf, rfl⟩), hd⟩
    · exact ⟨_, Or.inr (Or.inr ⟨e, he, g, hg, rfl⟩), hd⟩
  · rintro ⟨bs, ⟨f, hf, label, hc⟩ | ⟨f, hf, rfl⟩ | ⟨e, he, g, hg, rfl⟩, hd⟩
    · exact Or.inl (Or.inl ⟨f, hf, _, hc, hd⟩)
    · exact Or.inl (Or.inr ⟨f, hf, hd⟩)
    · exact Or.inr ⟨e, he, g, hg, hd⟩

/-- **The reports on a class**: on its features, on vertices of its machines, on the structs in it,
    and on the chains of its machines. -/
theorem mem_notes {d : Diagnostic} :
    d ∈ p.notes r ↔ d ∈ notesOf p.flattened ∨ (∃ m ∈ p.machines, ∃ l ∈ m.levels, d ∈ l.notes) ∨
      d ∈ p.survey.notes ∨
      ∃ m ∈ p.machines, ∃ bs ∈ m.chains r (p.events r), d ∈ Branch.chainNotes bs := by
  simp only [← mem_machineNotes, Plan.notes, distinctNotes, List.mem_eraseDups, List.mem_append,
    List.mem_flatMap, or_assoc]
  refine or_congr_right (or_congr_right (or_congr_right ?_))
  constructor
  · rintro (⟨m, hm, hd⟩ | ⟨e, he, m, hm, hd⟩)
    · exact ⟨m, hm, Or.inl hd⟩
    · exact ⟨m, hm, Or.inr ⟨e, he, hd⟩⟩
  · rintro ⟨m, hm, hd | ⟨e, he, hd⟩⟩
    · exact Or.inl ⟨m, hm, hd⟩
    · exact Or.inr ⟨e, he, m, hm, hd⟩

end

end ObjectLowering.Lowering
