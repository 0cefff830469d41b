/-
  What becomes of the transitions of a class.

  * `Accounted`: a transition has an assignment or an effect in the code, or
    decides the entry of its level, or is named in a report.
  * `Machine.Turns` says which transitions are tried one after another.  Those
    up to the first without a guard are written; the one behind it is
    reported, and the others behind it are neither (`settles_map`,
    `settles_inner`, `settles_outer`).
  * A written transition shows in the code or in a report, unless it is mute:
    without effects, and into a pseudostate that stands for nothing
    (`shows_iff`).
  * So it can be said of every transition whether it is accounted for
    (`lowerClass_transitions`, `signal_loses_dark`).
-/
import ObjectLowering.Proofs.Enumerators
import ObjectLowering.Proofs.Sources

namespace ObjectLowering.Lowering

open Model Code Text

/-! ## Accounts -/

/-- The code of a class has an assignment or an effect of a transition. -/
def Plan.Emits (p : Plan) (r : Registry) (t : Transition) : Prop :=
  ∃ m ∈ p.machines, ∃ b ∈ m.written r (p.events r), b.transition = t ∧ ∃ x ∈ b.moves, x ≠ .run ""

/-- The transition is the plain one from the initial pseudostate that decides the entry of the
    level. -/
def Absorbed (r : Registry) (l : Level) (v : Vertex) (t : Transition) : Prop :=
  ∃ p, v = .pseudo p ∧ l.isInitial p = true ∧ (r.owned p.id).outgoing = [t] ∧
    Machine.directEntry r l p = some (Machine.entry r l)

/-- **The transition is not lost silently.** -/
def Accounted (r : Registry) (p : Plan) (l : Level) (v : Vertex) (t : Transition) : Prop :=
  p.Emits r t ∨ Absorbed r l v t ∨ ∃ d ∈ r.diagnostics ++ p.notes r, d.element = t.id

/-- Taking the branch is reported, or has something written. -/
def Branch.Shows (b : Branch) : Prop := b.notes ≠ [] ∨ ∃ x ∈ b.moves, x ≠ .run ""

/-- The chain has the transition in the code or in a report. -/
def Branch.Settles (bs : List Branch) (t : Transition) : Prop :=
  (∃ b ∈ reachable bs, b.transition = t ∧ b.Shows) ∨ ∃ b, cutOff? bs = some b ∧ b.transition = t

section
variable {r : Registry} {stems : Stems} {c : Classifier} {t : Transition}

/-- A transition is in the code or in the reports of a class if a chain settles it. -/
theorem emits_or_named_iff (hr : r.Built) (ht : .transition t ∈ r.elements) :
    ((Plan.of r stems c).Emits r t ∨ ∃ d ∈ (Plan.of r stems c).notes r, d.element = t.id) ↔
      ∃ m ∈ (Plan.of r stems c).machines, ∃ bs ∈ m.chains r ((Plan.of r stems c).events r),
        Branch.Settles bs t := by
  rw [named_iff hr ht]
  constructor
  · rintro (⟨m, hm, b, hb, hbt, hx⟩ | ⟨m, hm, bs, hbs, h⟩)
    · obtain ⟨bs, hbs, hb⟩ := mem_written.1 hb
      exact ⟨m, hm, bs, hbs, Or.inl ⟨b, hb, hbt, Or.inr hx⟩⟩
    · refine ⟨m, hm, bs, hbs, ((named_on_chain hr ht hbs).1 h).imp_left ?_⟩
      rintro ⟨b, hb, hbt, hne⟩
      exact ⟨b, hb, hbt, Or.inl hne⟩
  · rintro ⟨m, hm, bs, hbs, ⟨b, hb, hbt, hne | hx⟩ | h⟩
    · exact Or.inr ⟨m, hm, bs, hbs, (named_on_chain hr ht hbs).2 (Or.inl ⟨b, hb, hbt, hne⟩)⟩
    · exact Or.inl ⟨m, hm, b, mem_written.2 ⟨bs, hbs, hb⟩, hbt, hx⟩
    · exact Or.inr ⟨m, hm, bs, hbs, (named_on_chain hr ht hbs).2 (Or.inr h)⟩

end

/-! ## Silence -/

/-- Nothing is written and nothing is reported when the transition is taken: it has no effects, and
    leads to a pseudostate outside of states that stands for nothing in the machine. -/
def Machine.IsMute (m : Machine) (r : Registry) (t : Transition) : Prop :=
  (∀ a ∈ (r.owned t.id).actions, trim a.body = "") ∧
    ∃ p, r.vertex? t.target = some (.pseudo p) ∧ r.state? p.parent = none ∧
      (p.pseudoKind = .shallowHistory ∨
        p.pseudoKind = .initial ∧ ∀ l ∈ m.levels, .pseudo p ∉ l.vertices)

theorem statementOf_eq_empty {body : String} : statementOf body = "" ↔ trim body = "" := by
  rw [statementOf]
  cases h : (trim body).toList.getLast? with
  | none => rfl
  | some c =>
    have hne : trim body ≠ "" := by
      intro he
      simp [he] at h
    simp only
    split_ifs
    · rfl
    · exact iff_of_false (by simp) hne

section
variable {r : Registry} {sm : StateMachine} {t : Transition} {v : Vertex} {s : State}
  {byHistory : Bool}

/-- Entering a state is written, or reported for a state of another machine. -/
theorem enter_state_shows (hd : destination r v = .state s byHistory) :
    (Machine.of r sm).enterNotes r t v ≠ [] ∨ ∃ x ∈ (Machine.of r sm).enter r v, x ≠ .run "" := by
  rw [Machine.enterNotes, Machine.enter, hd]
  cases hlevel : (Machine.of r sm).levelOf? s.id with
  | none => simp [hlevel]
  | some l =>
    refine Or.inr ⟨.assign { var := l.variableName, enumerator := l.constant (.state s) }, ?_, ?_⟩
    · simp [hlevel, Machine.enterState, Level.activeSettings]
    · simp

variable (hr : r.WellNested) (hsm : .stateMachine sm ∈ r.elements)
include hr hsm

theorem levelOf?_eq_none {p : PseudoState} (hp : .pseudoState p ∈ r.elements) :
    (Machine.of r sm).levelOf? p.id = none ↔
      ∀ l ∈ (Machine.of r sm).levels, .pseudo p ∉ l.vertices := by
  constructor
  · intro h l hl hmem
    have hlevel : (Machine.of r sm).levelOf? p.id = some l := levelOf?_eq hr hsm hl hmem
    rw [h] at hlevel
    cases hlevel
  · intro h
    refine Option.eq_none_iff_forall_ne_some.2 fun l hlevel => ?_
    obtain ⟨hl, hmem⟩ := mem_of_levelOf? hr hsm (v := .pseudo p) hp hlevel
    exact h l hl hmem

/-- What a transition into a vertex writes or reports. -/
theorem enter_shows_iff (hv : v.element ∈ r.elements) :
    ((Machine.of r sm).enterNotes r t v ≠ [] ∨ ∃ x ∈ (Machine.of r sm).enter r v, x ≠ .run "") ↔
      ¬ ∃ p, v = .pseudo p ∧ r.state? p.parent = none ∧ (p.pseudoKind = .shallowHistory ∨
        p.pseudoKind = .initial ∧ ∀ l ∈ (Machine.of r sm).levels, .pseudo p ∉ l.vertices) := by
  rcases destination_cases hv with ⟨s, byHistory, hd, -⟩ | ⟨p, rfl, hkind, hparent, hd⟩ |
    ⟨p, kind, rfl, hkind, hd⟩ | ⟨p, rfl, hkind, hparent, hd⟩
  · refine iff_of_true (enter_state_shows hd) ?_
    rintro ⟨p, rfl, hparent, hkind | ⟨hkind, -⟩⟩
    · simp [destination, hkind, hparent] at hd
    · simp [destination, hkind, hparent] at hd
  · have hlevel := levelOf?_eq_none hr hsm hv
    rw [Machine.enterNotes, Machine.enter, hd]
    cases h : (Machine.of r sm).levelOf? p.id with
    | none => simpa [h, hkind, hparent] using hlevel.1 h
    | some l =>
      have hlisted := mt hlevel.2 (by simp [h])
      simpa [h, hkind, hparent] using hlisted
  · rw [Machine.enterNotes, hd]
    simp [hkind]
  · rw [Machine.enterNotes, Machine.enter, hd]
    simp [hkind, hparent]

/-- **A branch shows unless its transition is mute.** -/
theorem shows_iff (hv : (r.vertex? t.target).isSome) (tests : List Setting) :
    ((Machine.of r sm).branch r tests t).Shows ↔ ¬ (Machine.of r sm).IsMute r t := by
  obtain ⟨v, hv⟩ := Option.isSome_iff_exists.1 hv
  have heffects : (∃ x ∈ (r.owned t.id).actions.map fun a => Move.run (statementOf a.body),
      x ≠ .run "") ↔ ¬ ∀ a ∈ (r.owned t.id).actions, trim a.body = "" := by
    simp [statementOf_eq_empty]
  simp only [Branch.Shows, Machine.branch, Machine.moves, hv, Option.map_some, Option.getD_some,
    List.mem_append, or_and_right, exists_or, heffects, ← or_assoc,
    enter_shows_iff hr hsm (mem_of_vertex? hv), Machine.IsMute, Option.some.injEq]
  rw [← not_and_or, and_comm]

end

/-! ## Turns -/

/-- The transition is tried: none before it is without a guard. -/
def Tried (ts : List Transition) (t : Transition) : Prop :=
  ∃ before after, ts = before ++ t :: after ∧ ∀ x ∈ before, trim x.guard ≠ ""

/-- The transition stands directly behind the first that is without a guard. -/
def CutOff (ts : List Transition) (t : Transition) : Prop :=
  ∃ before x after, ts = before ++ x :: t :: after ∧ trim x.guard = "" ∧
    ∀ y ∈ before, trim y.guard ≠ ""

namespace Machine

/-- The transitions that an event triggers in top-level states with an enumerator, in order. -/
def contenders (m : Machine) (r : Registry) (event enumerator : String) : List Transition :=
  ((m.candidates r event).filter fun x =>
    x.1.ascent.isEmpty && x.1.stateConstant x.2.1 == enumerator).map (·.2.2)

/-- The transitions of which `t`, from a vertex of the level `l`, is one: they are tried one after
    another. -/
inductive Turns (m : Machine) (r : Registry) (l : Level) (t : Transition) :
    Vertex → List Transition → Prop where
  /-- Completion transitions of one vertex. -/
  | completion {v : Vertex} (h : t.triggers = []) : Turns m r l t v (completions r v.id)
  /-- A state inside another one is tested for: what stands before is no obstacle. -/
  | inner {s : State} {e : String} {ev : Event} (he : e ∈ t.triggers) (hev : r.event? e = some ev)
    (ha : l.ascent ≠ []) : Turns m r l t (.state s) [t]
  /-- Transitions for one event of states of the top level that are not told apart. -/
  | outer {s : State} {e : String} {ev : Event} (he : e ∈ t.triggers) (hev : r.event? e = some ev)
    (ha : l.ascent = []) :
    Turns m r l t (.state s) (m.contenders r (ident ev.name) (l.stateConstant s))

/-- The transition has its turn: it is tried where it is not mute, or is the first that is cut
    off. -/
def Heeds (m : Machine) (r : Registry) (l : Level) (v : Vertex) (t : Transition) : Prop :=
  ∃ ts, m.Turns r l t v ts ∧ (Tried ts t ∧ ¬ m.IsMute r t ∨ CutOff ts t)

end Machine

section
variable {r : Registry} {m : Machine} {t : Transition} {ts : List Transition} {b : Branch}

theorem isUnconditional_branch :
    (m.branch r [] t).isUnconditional = true ↔ trim t.guard = "" := by
  simp [Branch.isUnconditional, Machine.branch]

theorem mem_reachable_map :
    b ∈ Branch.reachable (ts.map (m.branch r [])) ↔ ∃ t, Tried ts t ∧ b = m.branch r [] t := by
  rw [Branch.mem_reachable]
  constructor
  · rintro ⟨before, after, hsplit, hbefore⟩
    obtain ⟨ts₁, ts₂, rfl, rfl, hrest⟩ := List.map_eq_append_iff.1 hsplit
    obtain ⟨t, ts₃, rfl, rfl, rfl⟩ := List.map_eq_cons_iff.1 hrest
    refine ⟨t, ⟨ts₁, ts₃, rfl, fun x hx hguard => ?_⟩, rfl⟩
    have hno := hbefore _ (List.mem_map_of_mem hx)
    rw [isUnconditional_branch.2 hguard] at hno
    cases hno
  · rintro ⟨t, ⟨before, after, rfl, hbefore⟩, rfl⟩
    refine ⟨_, _, List.map_append, fun x hx => ?_⟩
    obtain ⟨y, hy, rfl⟩ := List.mem_map.1 hx
    exact Bool.eq_false_iff.2 (mt isUnconditional_branch.1 (hbefore y hy))

theorem cutOff?_map :
    Branch.cutOff? (ts.map (m.branch r [])) = some b ↔
      ∃ t, CutOff ts t ∧ b = m.branch r [] t := by
  rw [Branch.cutOff?_eq_some]
  constructor
  · rintro ⟨before, x, after, hsplit, hx, hbefore⟩
    obtain ⟨ts₁, ts₂, rfl, rfl, hrest⟩ := List.map_eq_append_iff.1 hsplit
    obtain ⟨u, ts₃, rfl, rfl, hlast⟩ := List.map_eq_cons_iff.1 hrest
    obtain ⟨t, ts₄, rfl, rfl, rfl⟩ := List.map_eq_cons_iff.1 hlast
    refine ⟨t, ⟨ts₁, u, ts₄, rfl, isUnconditional_branch.1 hx, fun y hy hguard => ?_⟩, rfl⟩
    have hno := hbefore _ (List.mem_map_of_mem hy)
    rw [isUnconditional_branch.2 hguard] at hno
    cases hno
  · rintro ⟨t, ⟨before, x, after, rfl, hx, hbefore⟩, rfl⟩
    refine ⟨_, _, _, List.map_append, isUnconditional_branch.2 hx, fun y hy => ?_⟩
    obtain ⟨z, hz, rfl⟩ := List.mem_map.1 hy
    exact Bool.eq_false_iff.2 (mt isUnconditional_branch.1 (hbefore z hz))

end

section
variable {r : Registry} {m : Machine} {event label : String} {x : Level × State × Transition}

theorem branchAt_of_top (h : x.1.ascent = []) :
    m.branchAt r x = (x.1.stateConstant x.2.1, m.branch r [] x.2.2) := by
  rw [Machine.branchAt, Machine.triggeredBranch, Level.activeSettings, h]
  rfl

/-- **The branches of an event with one label**: those of inner states, and behind them those of the
    top level in order. -/
theorem rivals_eq (m : Machine) (r : Registry) (event label : String) :
    ∃ deep, m.rivals r event label = deep ++ (m.contenders r event label).map (m.branch r []) ∧
      ∀ b ∈ deep, b.tests ≠ [] := by
  have hsame : ∀ x ∈ m.candidates r event,
      ((m.branchAt r x).2.tests.length == 0 && (m.branchAt r x).1 == label) =
        (x.1.ascent.isEmpty && x.1.stateConstant x.2.1 == label) := by
    rintro ⟨l, s, t⟩ -
    by_cases ha : l.ascent = []
    · simp [branchAt_of_top (x := (l, s, t)) ha, ha, Machine.branch]
    · obtain ⟨label', tests, hbranch, htests, -⟩ := exists_branchAt m r l s t
      rw [hbranch, Bool.eq_iff_iff]
      simp [Machine.branch, htests, ha]
  have houter : ((((m.candidates r event).map (m.branchAt r)).filter fun x => x.1 == label).map
      (·.2)).filter (fun b => b.tests.length == 0) =
      (m.contenders r event label).map (m.branch r []) := by
    simp only [Machine.contenders, List.filter_map, List.filter_filter, List.map_map,
      Function.comp_def, List.filter_congr hsame]
    refine List.map_congr_left fun x hx => ?_
    have ha : x.1.ascent = [] ∧ x.1.stateConstant x.2.1 = label := by
      simpa using (List.mem_filter.1 hx).2
    rw [branchAt_of_top ha.1]
  refine ⟨(m.rivals r event label).filter fun b => b.tests.length != 0, ?_, fun b hb => ?_⟩
  · rw [← houter, ← filter_mergeSort_depth]
    exact (filter_append_of_pairwise _ (pairwise_mergeSort_depth _ _)).symm
  · simpa using (List.mem_filter.1 hb).2

end

/-! ## Settling -/

section
variable {r : Registry} {sm : StateMachine} {l : Level} {v : Vertex} {s : State} {t : Transition}
  {ts : List Transition} {b : Branch} {bs deep : List Branch} {event label : String}

/-- The branches of a transition have a test for each level around its source. -/
theorem tests_of_rival (hr : r.Built) (hsm : .stateMachine sm ∈ r.elements)
    (hx : (l, s, t) ∈ (Machine.of r sm).candidates r event)
    (hb : b ∈ (Machine.of r sm).rivals r event label) (ht : b.transition = t) :
    b.tests.length = l.ascent.length := by
  obtain ⟨⟨l', s', t'⟩, hy, hb⟩ := mem_rivals.1 hb
  obtain ⟨label', tests, hbranch, htests, -⟩ := exists_branchAt (.of r sm) r l' s' t'
  obtain ⟨-, rfl⟩ := Prod.mk.inj (hbranch.symm.trans hb)
  obtain rfl : t' = t := ht
  obtain ⟨hl, hs, -, hout, -⟩ := mem_candidates.1 hx
  obtain ⟨hl', hs', -, hout', -⟩ := mem_candidates.1 hy
  obtain ⟨-, rfl, -⟩ := eq_of_outgoing hr hsm hsm hl hl' hs hs' hout hout'
  exact htests

theorem branch_of_mem_rivals {m : Machine} (hb : b ∈ m.rivals r event label) :
    ∃ tests, b = m.branch r tests b.transition := by
  obtain ⟨⟨l, s, t⟩, -, hb⟩ := mem_rivals.1 hb
  obtain ⟨label', tests, hbranch, -⟩ := exists_branchAt m r l s t
  obtain ⟨-, rfl⟩ := Prod.mk.inj (hbranch.symm.trans hb)
  exact ⟨tests, rfl⟩

theorem settles_append (h : ∀ b ∈ deep, b.tests ≠ []) :
    Branch.Settles (deep ++ bs) t ↔
      (∃ b ∈ deep, b.transition = t ∧ b.Shows) ∨ Branch.Settles bs t := by
  rw [Branch.Settles, Branch.reachable_append h, Branch.cutOff?_append h, Branch.Settles]
  simp only [List.mem_append, or_and_right, exists_or, or_assoc]

variable (hr : r.Built) (hsm : .stateMachine sm ∈ r.elements) (hv : (r.vertex? t.target).isSome)
include hr hsm hv

/-- Transitions that are tried in turn settle those up to the first without a guard, mute ones
    apart, and the next. -/
theorem settles_map :
    Branch.Settles (ts.map ((Machine.of r sm).branch r [])) t ↔
      Tried ts t ∧ ¬ (Machine.of r sm).IsMute r t ∨ CutOff ts t := by
  have hshows := shows_iff hr.wellNested hsm hv []
  constructor
  · rintro (⟨b, hb, rfl, hb'⟩ | ⟨b, hb, rfl⟩)
    · obtain ⟨t, htried, rfl⟩ := mem_reachable_map.1 hb
      exact Or.inl ⟨htried, hshows.1 hb'⟩
    · obtain ⟨t, hcut, rfl⟩ := cutOff?_map.1 hb
      exact Or.inr hcut
  · rintro (⟨htried, hmute⟩ | hcut)
    · exact Or.inl ⟨_, mem_reachable_map.2 ⟨t, htried, rfl⟩, rfl, hshows.2 hmute⟩
    · exact Or.inr ⟨_, cutOff?_map.2 ⟨t, hcut, rfl⟩, rfl⟩

/-- The case of an event settles the transitions of inner states, mute ones apart. -/
theorem settles_inner (hx : (l, s, t) ∈ (Machine.of r sm).candidates r event)
    (ha : l.ascent ≠ []) :
    Branch.Settles ((Machine.of r sm).rivals r event
      ((Machine.of r sm).branchAt r (l, s, t)).1) t ↔ ¬ (Machine.of r sm).IsMute r t := by
  have hrival : ((Machine.of r sm).branchAt r (l, s, t)).2 ∈ (Machine.of r sm).rivals r event
      ((Machine.of r sm).branchAt r (l, s, t)).1 := mem_rivals.2 ⟨_, hx, rfl⟩
  have htests := fun b (hb : b ∈ (Machine.of r sm).rivals r event
    ((Machine.of r sm).branchAt r (l, s, t)).1) => tests_of_rival hr hsm hx hb
  obtain ⟨label, tests, hbranch, -⟩ := exists_branchAt (.of r sm) r l s t
  rw [hbranch] at hrival htests ⊢
  obtain ⟨deep, hrivals, hdeep⟩ := rivals_eq (.of r sm) r event label
  -- a branch of `t` without tests would belong to the top level
  have houter : t ∉ (Machine.of r sm).contenders r event label := by
    intro hmem
    have hlength := htests ((Machine.of r sm).branch r [] t)
      (by rw [hrivals]; exact List.mem_append_right _ (List.mem_map_of_mem hmem)) rfl
    exact ha (List.length_eq_zero_iff.1 hlength.symm)
  constructor
  · rintro (⟨b, hb, rfl, hshows⟩ | ⟨b, hb, rfl⟩)
    · obtain ⟨tests, hb⟩ := branch_of_mem_rivals (Branch.mem_of_mem_reachable hb)
      rw [hb] at hshows
      exact (shows_iff hr.wellNested hsm hv tests).1 hshows
    · rw [hrivals, Branch.cutOff?_append hdeep] at hb
      obtain ⟨t, ht, rfl⟩ := List.mem_map.1 (Branch.mem_of_cutOff? hb)
      exact absurd ht houter
  · intro hmute
    rw [hrivals] at hrival
    rcases List.mem_append.1 hrival with hmem | hmem
    · refine Or.inl ⟨_, ?_, rfl, (shows_iff hr.wellNested hsm hv tests).2 hmute⟩
      rw [hrivals, Branch.reachable_append hdeep]
      exact List.mem_append_left _ hmem
    · obtain ⟨t', ht, he⟩ := List.mem_map.1 hmem
      obtain rfl : t' = t := congrArg Branch.transition he
      exact absurd ht houter

/-- Of the transitions of the top level, the case of an event settles those up to the first without
    a guard, mute ones apart, and the next. -/
theorem settles_outer (hx : (l, s, t) ∈ (Machine.of r sm).candidates r event)
    (ha : l.ascent = []) :
    Branch.Settles ((Machine.of r sm).rivals r event
      ((Machine.of r sm).branchAt r (l, s, t)).1) t ↔
      Tried ((Machine.of r sm).contenders r event (l.stateConstant s)) t ∧
        ¬ (Machine.of r sm).IsMute r t ∨
      CutOff ((Machine.of r sm).contenders r event (l.stateConstant s)) t := by
  rw [branchAt_of_top (x := (l, s, t)) ha]
  obtain ⟨deep, hrivals, hdeep⟩ := rivals_eq (.of r sm) r event (l.stateConstant s)
  rw [hrivals, settles_append hdeep, settles_map hr hsm hv, or_iff_right]
  rintro ⟨b, hb, ht, -⟩
  have hmem : b ∈ (Machine.of r sm).rivals r event (l.stateConstant s) := by
    rw [hrivals]
    exact List.mem_append_left _ hb
  have hlength := tests_of_rival hr hsm hx hmem ht
  rw [ha] at hlength
  exact hdeep b hb (List.length_eq_zero_iff.1 hlength)

section
variable {c : Classifier} {stems : Stems} (hl : l ∈ levelsOf r sm) (hsource : l.IsSource v)
  (ht : t ∈ (r.owned v.id).outgoing)
include hl hsource ht

theorem heeds_of_settles {m : Machine} (hm : m ∈ (Plan.of r stems c).machines)
    {events : List String} (hbs : bs ∈ m.chains r events) (hset : Branch.Settles bs t) :
    (Machine.of r sm).Heeds r l v t := by
  obtain ⟨sm', hsm', rfl⟩ := List.mem_map.1 hm
  have hel' : .stateMachine sm' ∈ r.elements := hr.wellNested.machines _ _ hsm'
  obtain ⟨b, hb, rfl⟩ : ∃ b ∈ bs, b.transition = t := by
    rcases hset with ⟨b, hb, hbt, -⟩ | ⟨b, hb, hbt⟩
    · exact ⟨b, Branch.mem_of_mem_reachable hb, hbt⟩
    · exact ⟨b, Branch.mem_of_cutOff? hb, hbt⟩
  have completion : ∀ l' ∈ levelsOf r sm', ∀ w ∈ l'.vertices,
      bs = (Machine.of r sm').completionBranches r w.id →
      (Machine.of r sm).Heeds r l v b.transition := by
    rintro l' hl' w hw rfl
    obtain ⟨t, htw, rfl⟩ := List.mem_map.1 hb
    obtain ⟨hout, htriggers⟩ := List.mem_filter.1 htw
    obtain ⟨rfl, rfl, rfl⟩ := eq_of_outgoing hr hsm hel' hl hl' hsource.1 hw ht hout
    exact ⟨_, .completion (List.isEmpty_iff.1 htriggers), (settles_map hr hsm hv).1 hset⟩
  rcases mem_chains.1 hbs with ⟨l', hl', p, hp, -, h⟩ | ⟨l', hl', s, hs, -, -, h⟩ |
    ⟨e, -, x, -, rfl⟩
  · exact completion l' hl' (.pseudo p) hp h
  · exact completion l' hl' (.state s) hs h
  · obtain ⟨⟨l', s, t⟩, hx, hbranch⟩ := mem_rivals.1 hb
    obtain ⟨label, tests, hbranch', -⟩ := exists_branchAt (.of r sm') r l' s t
    obtain ⟨-, rfl⟩ := Prod.mk.inj (hbranch'.symm.trans hbranch)
    obtain ⟨hl', hs, -, hout, e', he', ev, hev, rfl⟩ := mem_candidates.1 hx
    obtain ⟨rfl, rfl, rfl⟩ := eq_of_outgoing hr hsm hel' hl hl' hsource.1 hs ht hout
    have hlabel := congrArg Prod.fst hbranch
    rw [← hlabel] at hset
    by_cases ha : l.ascent = []
    · exact ⟨_, .outer he' hev ha, (settles_outer hr hsm hv hx ha).1 hset⟩
    · refine ⟨_, .inner he' hev ha, Or.inl ⟨⟨[], [], rfl, by simp⟩, ?_⟩⟩
      exact (settles_inner hr hsm hv hx ha).1 hset

theorem settles_of_heeds (hc : sm ∈ (r.owned c.id).machines)
    (h : (Machine.of r sm).Heeds r l v t) :
    ∃ bs ∈ (Machine.of r sm).chains r ((Plan.of r stems c).events r), Branch.Settles bs t := by
  have hm : Machine.of r sm ∈ (Plan.of r stems c).machines := List.mem_map_of_mem hc
  have candidate : ∀ {s e ev}, v = .state s → e ∈ t.triggers → r.event? e = some ev →
      (l, s, t) ∈ (Machine.of r sm).candidates r (ident ev.name) := by
    rintro s e ev rfl he hev
    exact mem_candidates.2 ⟨hl, hsource.1, hsource.2, ht, e, he, ev, hev, rfl⟩
  obtain ⟨ts, hturn, hts⟩ := h
  cases hturn with
  | completion htriggers =>
    refine ⟨(Machine.of r sm).completionBranches r v.id, mem_chains.2 ?_,
      (settles_map hr hsm hv).2 hts⟩
    cases v with
    | pseudo p => exact Or.inl ⟨l, hl, p, hsource.1, hsource.2, rfl⟩
    | state s =>
      have hmem : t ∈ completions r s.id := List.mem_filter.2 ⟨ht, by simp [htriggers]⟩
      refine Or.inr (Or.inl ⟨l, hl, s, hsource.1, hsource.2, ?_, rfl⟩)
      simp [hasBehaviour, List.ne_nil_of_mem hmem]
  | inner he hev ha =>
    have hx := candidate rfl he hev
    refine ⟨_, mem_chains.2 (Or.inr (Or.inr ⟨_, mem_events hm hx, _, hx, rfl⟩)),
      (settles_inner hr hsm hv hx ha).2 ?_⟩
    rcases hts with ⟨-, hmute⟩ | ⟨before, x, after, hsplit, -⟩
    · exact hmute
    · have hlength := congrArg List.length hsplit
      simp only [List.length_append, List.length_cons, List.length_nil] at hlength
      omega
  | outer he hev ha =>
    have hx := candidate rfl he hev
    exact ⟨_, mem_chains.2 (Or.inr (Or.inr ⟨_, mem_events hm hx, _, hx, rfl⟩)),
      (settles_outer hr hsm hv hx ha).2 hts⟩

end

end

/-! ## The transitions of a class -/

/-- **What becomes of the transitions of a class**, for all registries that adding and preparing
    give, and all transitions with a target that leave the states and initial pseudostates of its
    levels.  A transition is accounted for iff it is absorbed, or named when the model is prepared,
    or has its turn in the code.  So what is lost are the transitions of an initial pseudostate that
    have triggers, mute ones, and those that only stand behind the first one that is cut off.  A
    trigger that does not resolve is reported, and the definition has the effects of all branches
    that are written. -/
theorem lowerClass_transitions {r : Registry} {stems : Stems} {c : Classifier} {t t' : IdTable}
    {u : CodeUnit} (hr : r.Built) (hf : family r c = .simObject)
    (hl : lowerClass r stems t c = (t', .ok u)) :
    ∃ ids p, p = Plan.of r stems c ∧ u = p.unit r stems ids ∧
      (∀ m ∈ p.machines, ∀ b ∈ m.written r u.events, b.effectEdits <:+: p.definitionEdits r stems) ∧
      ∀ sm ∈ (r.owned c.id).machines, ∀ m, m = Machine.of r sm → ∀ l ∈ m.levels, ∀ v,
        l.IsSource v → ∀ tr ∈ (r.owned v.id).outgoing, (r.vertex? tr.target).isSome →
        (Accounted r p l v tr ↔
          Absorbed r l v tr ∨ (∃ d ∈ r.diagnostics, d.element = tr.id) ∨ m.Heeds r l v tr) ∧
        ∀ e ∈ tr.triggers, r.event? e = none → ∃ d ∈ r.diagnostics, d.element = tr.id := by
  obtain ⟨ids, hu⟩ := lowerClass_unit hf hl
  refine ⟨ids, _, rfl, hu, fun m hm b hb => ?_, ?_⟩
  · rw [lowerClass_events hf hl] at hb
    exact effects_written hm hb
  · rintro sm hsm m rfl l hlevel v hsource tr htr hv
    have hel : .stateMachine sm ∈ r.elements := hr.wellNested.machines _ sm hsm
    have hcode : ((Plan.of r stems c).Emits r tr ∨
        ∃ d ∈ (Plan.of r stems c).notes r, d.element = tr.id) ↔
        (Machine.of r sm).Heeds r l v tr := by
      rw [emits_or_named_iff hr (hr.source_eq htr).1]
      constructor
      · rintro ⟨m, hm, bs, hbs, hset⟩
        exact heeds_of_settles hr hel hv hlevel hsource htr hm hbs hset
      · intro h
        obtain ⟨bs, hbs, hset⟩ := settles_of_heeds hr hel hv hlevel hsource htr hsm h
        exact ⟨_, List.mem_map_of_mem hsm, bs, hbs, hset⟩
    refine ⟨?_, fun e he hn => hr.trigger_reported htr he hn⟩
    rw [← hcode]
    constructor
    · rintro (h | h | ⟨d, hd, hid⟩)
      · exact Or.inr (Or.inr (Or.inl h))
      · exact Or.inl h
      · rcases List.mem_append.1 hd with hd | hd
        · exact Or.inr (Or.inl ⟨d, hd, hid⟩)
        · exact Or.inr (Or.inr (Or.inr ⟨d, hd, hid⟩))
    · rintro (h | ⟨d, hd, hid⟩ | h | ⟨d, hd, hid⟩)
      · exact Or.inr (Or.inl h)
      · exact Or.inr (Or.inr ⟨d, List.mem_append_left _ hd, hid⟩)
      · exact Or.inl h
      · exact Or.inr (Or.inr ⟨d, List.mem_append_right _ hd, hid⟩)

/-! A red signal turns green.  It has two more transitions, for a late train and for a broken
    lamp. -/

def signal : Classifier := { id := "signal", name := "Signal", stereotype := "SimObject" }

def signalMachine : StateMachine := { id := "m", name := "M", parent := "signal" }

def signalRed : State := { id := "red", name := "Red", parent := "m" }

def signalTurn : Transition := { id := "t1", parent := "m", source := "red", target := "green" }

def signalWarn : Transition :=
  { id := "t2", parent := "m", source := "red", target := "yellow", guard := "late" }

def signalFail : Transition :=
  { id := "t3", parent := "m", source := "red", target := "dark", guard := "broken" }

def crossing : Registry := Registry.prepare { elements := [
  .classifier signal,
  .stateMachine signalMachine,
  .state signalRed,
  .state { id := "green", name := "Green", parent := "m" },
  .state { id := "yellow", name := "Yellow", parent := "m" },
  .state { id := "dark", name := "Dark", parent := "m" },
  .transition signalTurn,
  .transition signalWarn,
  .transition signalFail] }

/-- The level of the signal. -/
def signalLights : Level := topLevel crossing signalMachine

/-- The plan of the signal with its levels written out. -/
def signalPlan : Plan :=
  { Plan.of crossing (.ofTexts "" "") signal with machines := [⟨signalMachine, [signalLights]⟩] }

theorem signalPlan_eq :
    Plan.of crossing (.ofTexts "" "") signal = signalPlan ∧
      Machine.of crossing signalMachine = ⟨signalMachine, [signalLights]⟩ := by
  have htrees : crossing.machineTrees signalMachine.id =
      [.state signalRed [], .state _ [], .state _ [], .state _ []] := rfl
  have hmachines : (crossing.owned signal.id).machines = [signalMachine] := rfl
  have hlevels : Machine.of crossing signalMachine = ⟨signalMachine, [signalLights]⟩ := by
    rw [Machine.of, levelsOf_eq, htrees]
    simp only [nestedLevels]
    rfl
  refine ⟨Plan.of_machines ?_, hlevels⟩
  rw [hmachines, List.map_singleton, hlevels]

theorem signal_lowered :
    crossing.Built ∧ family crossing signal = .simObject ∧
    ∃ t u, lowerClass crossing (.ofTexts "" "") (.run { hash := Digest.XxHash.hash } []) signal =
      (t, .ok u) := by
  have hf : family crossing signal = .simObject := by decide +kernel
  refine ⟨.prepare (.loaded (by decide +kernel)), hf, lowerClass_of_granted hf ?_⟩
  rw [classClaims, signalPlan_eq.1]
  decide +kernel

theorem signal_source : signalLights.IsSource (.state signalRed) :=
  ⟨by decide +kernel, rfl⟩

/-- The transition for a late train is behind the one without a guard, and is reported. -/
theorem signal_reports_late :
    crossing.Built ∧ signalMachine ∈ (crossing.owned signal.id).machines ∧
    signalLights.IsSource (.state signalRed) ∧
    signalWarn ∈ (crossing.owned signalRed.id).outgoing ∧
    (crossing.vertex? signalWarn.target).isSome ∧
    ∃ t u ids, lowerClass crossing (.ofTexts "" "") (.run { hash := Digest.XxHash.hash } [])
        signal = (t, .ok u) ∧ u = signalPlan.unit crossing (.ofTexts "" "") ids ∧
      Accounted crossing signalPlan signalLights (.state signalRed) signalWarn := by
  obtain ⟨hr, hf, t, u, hl⟩ := signal_lowered
  obtain ⟨hplan, hmachine⟩ := signalPlan_eq
  have hsm : signalMachine ∈ (crossing.owned signal.id).machines := by decide +kernel
  have hout : signalWarn ∈ (crossing.owned signalRed.id).outgoing := by decide +kernel
  have htarget : (crossing.vertex? signalWarn.target).isSome := by decide +kernel
  have hturns : completions crossing signalRed.id = [signalTurn, signalWarn, signalFail] := by
    decide +kernel
  obtain ⟨ids, p, hp, hu, -, h⟩ := lowerClass_transitions hr hf hl
  obtain rfl := hp.trans hplan
  refine ⟨hr, hsm, signal_source, hout, htarget, t, u, ids, hl, hu, ?_⟩
  refine ((h signalMachine hsm _ hmachine.symm signalLights List.mem_cons_self _ signal_source
    signalWarn hout htarget).1).2 (Or.inr (Or.inr ⟨_, .completion rfl, Or.inr ?_⟩))
  exact ⟨[], signalTurn, [signalFail], hturns, by decide +kernel, by simp⟩

/-- The transition for a broken lamp is lost: the code does not have it, and nothing names it. -/
theorem signal_loses_dark :
    crossing.Built ∧ signalMachine ∈ (crossing.owned signal.id).machines ∧
    signalLights ∈ (Machine.of crossing signalMachine).levels ∧
    signalLights.IsSource (.state signalRed) ∧
    signalFail ∈ (crossing.owned signalRed.id).outgoing ∧
    (crossing.vertex? signalFail.target).isSome ∧
    ∃ t u, lowerClass crossing (.ofTexts "" "") (.run { hash := Digest.XxHash.hash } []) signal =
        (t, .ok u) ∧
      ¬ Accounted crossing (Plan.of crossing (.ofTexts "" "") signal) signalLights
        (.state signalRed) signalFail ∧
      ∀ d ∈ crossing.diagnostics ++ u.diagnostics, d.element ≠ signalFail.id := by
  obtain ⟨hr, hf, t, u, hl⟩ := signal_lowered
  obtain ⟨hplan, hmachine⟩ := signalPlan_eq
  have hnamed : ∀ d ∈ crossing.diagnostics ++ signalPlan.notes crossing,
      d.element ≠ signalFail.id := by decide +kernel
  have hwritten : ∀ m ∈ signalPlan.machines, ∀ b ∈ m.written crossing (signalPlan.events crossing),
      b.transition ≠ signalFail := by decide +kernel
  refine ⟨hr, by decide +kernel, ?_, signal_source, by decide +kernel, by decide +kernel, t, u, hl,
    ?_, ?_⟩
  · rw [hmachine]
    exact List.mem_cons_self
  · rw [hplan]
    rintro (⟨m, hm, b, hb, hbt, -⟩ | ⟨p, hp, -⟩ | ⟨d, hd, hid⟩)
    · exact hwritten m hm b hb hbt
    · cases hp
    · exact hnamed d hd hid
  · rw [lowerClass_diagnostics hf hl, hplan]
    exact hnamed

end ObjectLowering.Lowering
