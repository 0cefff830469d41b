/-
  Entering a state.

  * `reset_eq`: setting a level anew sets the level that it enters by default
    first.  The bound on the nesting is never reached.
  * `enter_configures`: after a transition into a state, the state is active;
    without history its inside stands at its entry, and so on inwards; and no
    other variables are assigned than those of the level of the state, of
    the levels around it and of the levels inside the state.
  * `enter_byHistory`: a state that is entered by its history keeps what all
    the levels inside it hold, not only that of the level directly inside.
-/
import ObjectLowering.Proofs.Execution

namespace ObjectLowering.Lowering

open Model Code

namespace Machine

/-- The levels that are entered by default with a level: the level itself, and those with the
    inside of the state that the level starts from, unless that inside has history.  The state is
    the first that has the entry enumerator. -/
inductive EntersByDefault (m : Machine) (r : Registry) : Level → Level → Prop where
  | here (l : Level) : EntersByDefault m r l l
  | inside {l c c' : Level} {s : State} {before after : List Vertex}
    (hl : l.vertices = before ++ .state s :: after) (hs : l.stateConstant s = entry r l)
    (hfirst : ∀ s', .state s' ∈ before → l.stateConstant s' ≠ entry r l)
    (hc : m.inner? s.id = some c) (hh : c.hasHistory = false) (h : EntersByDefault m r c c') :
    EntersByDefault m r l c'

/-- The levels inside composite states without history that are active in a level, and so on
    inwards. -/
inductive Awake (m : Machine) (σ : Store) : Level → Level → Prop where
  | inside {l c : Level} {s : State} (hs : .state s ∈ l.vertices)
    (ha : σ l.variableName = m.value (l.stateConstant s)) (hc : m.inner? s.id = some c)
    (hh : c.hasHistory = false) : Awake m σ l c
  | deeper {l c c' : Level} (h : Awake m σ l c) (h' : Awake m σ c c') : Awake m σ l c'

end Machine

section
variable {m : Machine} {r : Registry} {σ : Store} {l c c' : Level} {s s' : State}

theorem Machine.Within.trans (h : m.Within s c) (hs : .state s' ∈ c.vertices)
    (h' : m.Within s' c') : m.Within s c' := by
  induction h' with
  | inside hc => exact .deeper h hs hc
  | deeper _ hs' hc ih => exact .deeper ih hs' hc

theorem Machine.EntersByDefault.within (h : m.EntersByDefault r c c') (hc : m.Within s c) :
    m.Within s c' := by
  induction h with
  | here l => exact hc
  | inside hl _ _ hin _ _ ih => exact ih (.deeper hc (by simp [hl]) hin)

theorem Machine.Awake.within (h : m.Awake σ l c) : ∃ s, .state s ∈ l.vertices ∧ m.Within s c := by
  induction h with
  | inside hs _ hc _ => exact ⟨_, hs, .inside hc⟩
  | deeper _ _ ih ih' =>
    obtain ⟨s, hs, hwithin⟩ := ih
    obtain ⟨s', hs', hwithin'⟩ := ih'
    exact ⟨s, hs, hwithin.trans hs' hwithin'⟩

end

/-! ## Setting a level anew -/

section
variable {r : Registry} {sm : StateMachine} {m : Machine} {l c : Level} {s : State}

theorem mem_of_entryState? (h : Machine.entryState? r l = some s) : .state s ∈ l.vertices := by
  obtain ⟨v, hv, hs⟩ := List.exists_of_findSome?_eq_some h
  cases v with
  | pseudo p => cases hs
  | state s' =>
    simp only [Option.ite_none_right_eq_some, Option.some.injEq] at hs
    exact hs.2 ▸ hv

theorem entryState?_eq {before after : List Vertex} (hl : l.vertices = before ++ .state s :: after)
    (hs : l.stateConstant s = Machine.entry r l)
    (hfirst : ∀ s', .state s' ∈ before → l.stateConstant s' ≠ Machine.entry r l) :
    Machine.entryState? r l = some s := by
  rw [Machine.entryState?, hl, List.findSome?_append, List.findSome?_eq_none_iff.2]
  · simp [hs]
  · intro v hv
    cases v with
    | pseudo p => rfl
    | state s' => exact if_neg (hfirst s' hv)

/-- How many levels have a name no shorter than that of a level. -/
def nestingRank (m : Machine) (l : Level) : Nat :=
  (m.levels.filter fun k => l.name.length ≤ k.name.length).length

theorem nestingRank_pos (hl : l ∈ m.levels) : 0 < nestingRank m l :=
  List.length_pos_of_mem (List.mem_filter.2 ⟨hl, by simp⟩)

theorem nestingRank_le (m : Machine) (l : Level) : nestingRank m l ≤ m.levels.length :=
  List.length_filter_le _ _

theorem nestingRank_lt (hl : l ∈ m.levels) (h : l.name.length < c.name.length) :
    nestingRank m c < nestingRank m l := by
  have hsub : m.levels.filter (fun k => c.name.length ≤ k.name.length) =
      (m.levels.filter fun k => l.name.length ≤ k.name.length).filter
        fun k => c.name.length ≤ k.name.length := by
    rw [List.filter_filter]
    refine List.filter_congr fun k _ => ?_
    simp only [decide_eq_decide, ← Bool.decide_and]
    omega
  rw [nestingRank, nestingRank, hsub, List.length_filter_lt_length_iff_exists]
  exact ⟨l, List.mem_filter.2 ⟨hl, by simp⟩, by simpa using h⟩

variable (hr : r.WellNested) (hsm : .stateMachine sm ∈ r.elements)
include hr hsm

theorem length_lt_of_inner (hl : l ∈ levelsOf r sm) (hs : .state s ∈ l.vertices)
    (hc : (Machine.of r sm).inner? s.id = some c) : l.name.length < c.name.length := by
  obtain ⟨-, rfl, -⟩ := inner?_eq_some hr hsm hl hs hc
  exact l.length_lt_stateConstant s

/-- The level that a level enters by default ranks below it. -/
theorem nestingRank_entered (hl : l ∈ levelsOf r sm)
    (h : (Machine.entryState? r l).bind (fun s => (Machine.of r sm).inner? s.id) = some c) :
    c ∈ levelsOf r sm ∧ nestingRank (.of r sm) c < nestingRank (.of r sm) l := by
  obtain ⟨s, hs, hc⟩ := Option.bind_eq_some_iff.1 h
  have hs := mem_of_entryState? hs
  exact ⟨(inner?_eq_some hr hsm hl hs hc).1,
    nestingRank_lt (m := .of r sm) hl (length_lt_of_inner hr hsm hl hs hc)⟩

/-- Beyond the rank of a level the bound on the nesting does not matter. -/
theorem resetLevel_congr (hl : l ∈ levelsOf r sm) (d d' : Nat)
    (hd : nestingRank (.of r sm) l ≤ d) (hd' : nestingRank (.of r sm) l ≤ d') :
    (Machine.of r sm).resetLevel r d l = (Machine.of r sm).resetLevel r d' l := by
  induction d generalizing d' l with
  | zero => exact absurd (nestingRank_pos (m := .of r sm) hl) (by omega)
  | succ d ih =>
    cases d' with
    | zero => exact absurd (nestingRank_pos (m := .of r sm) hl) (by omega)
    | succ d' =>
      rw [Machine.resetLevel, Machine.resetLevel]
      congr 1
      cases hchild : (Machine.entryState? r l).bind fun s => (Machine.of r sm).inner? s.id with
      | none => rfl
      | some child =>
        obtain ⟨hmem, hlt⟩ := nestingRank_entered hr hsm hl hchild
        -- the rank falls with every level inwards, so both bounds stay above it
        simp only [ih hmem d' (by omega) (by omega)]

/-- **Setting a level anew**: first the level that it enters by default, then the level itself. -/
theorem reset_eq (hl : l ∈ levelsOf r sm) :
    (Machine.of r sm).reset r l =
      (match (Machine.entryState? r l).bind fun s => (Machine.of r sm).inner? s.id with
        | some child => if child.hasHistory then [] else (Machine.of r sm).reset r child
        | none => []) ++
      [.assign { var := l.variableName, enumerator := Machine.entry r l }] := by
  obtain ⟨n, hn⟩ := Nat.exists_eq_add_one_of_ne_zero
    (Nat.pos_iff_ne_zero.1 (List.length_pos_of_mem (l := (Machine.of r sm).levels) hl))
  have hunfold : (Machine.of r sm).reset r l = (Machine.of r sm).resetLevel r (n + 1) l := by
    rw [Machine.reset, hn]
  rw [hunfold, Machine.resetLevel]
  congr 1
  cases hchild : (Machine.entryState? r l).bind fun s => (Machine.of r sm).inner? s.id with
  | none => rfl
  | some child =>
    obtain ⟨hmem, hlt⟩ := nestingRank_entered hr hsm hl hchild
    have hle := nestingRank_le (.of r sm) l
    simp only [Machine.reset]
    rw [resetLevel_congr hr hsm hmem n (Machine.of r sm).levels.length (by omega) (by omega)]

theorem Machine.EntersByDefault.mem_and_length {c' : Level}
    (h : (Machine.of r sm).EntersByDefault r c c') (hc : c ∈ levelsOf r sm) :
    c' ∈ levelsOf r sm ∧ c.name.length ≤ c'.name.length := by
  induction h with
  | here l => exact ⟨hc, Nat.le_refl _⟩
  | @inside l c₁ c₂ s before after hl _ _ hin _ _ ih =>
    have hs : .state s ∈ l.vertices := by simp [hl]
    obtain ⟨hmem, hle⟩ := ih (inner?_eq_some hr hsm hc hs hin).1
    exact ⟨hmem, Nat.le_of_lt (Nat.lt_of_lt_of_le (length_lt_of_inner hr hsm hc hs hin) hle)⟩

/-- A level that was set anew stands at its entry, and so do the levels entered by default. -/
theorem reset_enters {c' : Level} (h : (Machine.of r sm).EntersByDefault r c c')
    (hc : c ∈ levelsOf r sm) (value : String → StateValue) (σ : Store) :
    applyMoves value ((Machine.of r sm).reset r c) σ c'.variableName =
      value (Machine.entry r c') := by
  induction h with
  | here l =>
    rw [reset_eq hr hsm hc, applyMoves_append]
    exact Function.update_self _ _ _
  | @inside l c₁ c₂ s before after hl hs hfirst hin hh h ih =>
    have hmem : .state s ∈ l.vertices := by simp [hl]
    have hc₁ := (inner?_eq_some hr hsm hc hmem hin).1
    have hlt := length_lt_of_inner hr hsm hc hmem hin
    have hle := (h.mem_and_length hr hsm hc₁).2
    -- the level is assigned behind the levels inside it, whose names are longer
    have hne : c₂.variableName ∉ assigned [.assign ⟨l.variableName, Machine.entry r l⟩] := by
      intro hx
      have hx : c₂.variableName = l.variableName := List.mem_singleton.1 hx
      exact Level.variableName_ne_of_length (Nat.lt_of_lt_of_le hlt hle) hx.symm
    rw [reset_eq hr hsm hc, entryState?_eq hl hs hfirst, Option.bind_some, hin, applyMoves_append,
      applyMoves_of_not_mem hne]
    simp only [hh, Bool.false_eq_true, if_false]
    exact ih hc₁

end

/-- Setting a level inside a state anew assigns variables of levels inside the state. -/
theorem assigned_resetLevel {m : Machine} {r : Registry} {s : State} {c : Level} {d : Nat}
    {x : String} (h : m.Within s c) (hx : x ∈ assigned (m.resetLevel r d c)) :
    ∃ c', m.Within s c' ∧ x = c'.variableName := by
  induction d generalizing c with
  | zero => cases hx
  | succ d ih =>
    rw [Machine.resetLevel, assigned_append, List.mem_append] at hx
    rcases hx with hx | hx
    · split at hx
      · next child hchild =>
        obtain ⟨s', hs', hc⟩ := Option.bind_eq_some_iff.1 hchild
        split_ifs at hx
        · cases hx
        · exact ih (.deeper h (mem_of_entryState? hs') hc) hx
      · cases hx
    · exact ⟨c, h, List.mem_singleton.1 hx⟩

/-! ## Entering -/

theorem assigned_restoreOf {r : Registry} {c : Level} {x : String}
    (hx : x ∈ assigned ((Machine.restoreOf r c).toList.map .restore)) : x = c.variableName := by
  unfold Machine.restoreOf at hx
  split_ifs at hx
  · exact List.mem_singleton.1 hx
  · cases hx

/-- Entering a state assigns its level, the levels around, and levels inside the state. -/
theorem assigned_enterState {m : Machine} {r : Registry} {l : Level} {s : State} {byHistory : Bool}
    {x : String} (hx : x ∈ assigned (m.enterState r l s byHistory)) :
    x = l.variableName ∨ (∃ y ∈ l.ascent, x = y.var) ∨ ∃ c, m.Within s c ∧ x = c.variableName := by
  rw [Machine.enterState, assigned_append, assigned_append, List.mem_append, List.mem_append] at hx
  rcases hx with (hx | hx) | hx
  · split at hx
    · next c hc =>
      split_ifs at hx
      · cases hx
      · exact Or.inr (Or.inr (assigned_resetLevel (.inside hc) hx))
    · cases hx
  · rw [assigned_map_assign, List.mem_map] at hx
    obtain ⟨y, hy, rfl⟩ := hx
    rcases List.mem_cons.1 hy with rfl | hy
    · exact Or.inl rfl
    · exact Or.inr (Or.inl ⟨y, hy, rfl⟩)
  · split at hx
    · next c hc =>
      split_ifs at hx
      · exact Or.inr (Or.inr ⟨c, .inside hc, assigned_restoreOf hx⟩)
      · cases hx
    · cases hx

section
variable {r : Registry} {sm : StateMachine} {l c : Level} {s : State} {v : Vertex}
  {byHistory : Bool} {value : String → StateValue} {σ : Store}

variable (hr : r.WellNested) (hsm : .stateMachine sm ∈ r.elements)
include hr hsm

theorem enter_eq (hd : destination r v = .state s byHistory) (hl : l ∈ levelsOf r sm)
    (hs : .state s ∈ l.vertices) :
    (Machine.of r sm).enter r v = (Machine.of r sm).enterState r l s byHistory := by
  have hlevel : (Machine.of r sm).levelOf? s.id = some l := levelOf?_eq hr hsm hl hs
  rw [Machine.enter, hd]
  simp only [hlevel]

/-- The variable of a level inside a state is none of those under which the state is active. -/
theorem not_assigned_of_within (hl : l ∈ levelsOf r sm) (hs : .state s ∈ l.vertices)
    (hc : (Machine.of r sm).Within s c) :
    c.variableName ∉ assigned ((l.activeSettings (.state s)).map .assign) := by
  rw [assigned_map_assign, List.mem_map]
  rintro ⟨x, hx, he⟩
  have hle := (hc.mem_and_length hr hsm hl hs).2
  have hlt := l.length_lt_stateConstant s
  have hshort : x.var.length ≤ l.variableName.length := by
    rcases List.mem_cons.1 hx with rfl | hx
    · exact Nat.le_refl _
    · exact Nat.le_of_lt ((List.pairwise_cons.1 (activeSettings_pairwise hl (.state s))).1 x hx)
  rw [he, c.length_variableName, l.length_variableName] at hshort
  omega

/-- A state that was entered is active. -/
theorem holds_of_enterState (hl : l ∈ levelsOf r sm) (hs : .state s ∈ l.vertices) {x : Setting}
    (hx : x ∈ l.activeSettings (.state s)) :
    x.Holds value (applyMoves value ((Machine.of r sm).enterState r l s byHistory) σ) := by
  rw [Setting.Holds, Machine.enterState, applyMoves_append, applyMoves_append]
  refine (applyMoves_of_not_mem ?_).trans (holds_of_assigned ?_ hx)
  · split
    · next c hc =>
      split_ifs
      · intro hmem
        refine not_assigned_of_within hr hsm hl hs (.inside hc) ?_
        rw [← assigned_restoreOf hmem, assigned_map_assign]
        exact List.mem_map_of_mem hx
      · exact List.not_mem_nil
    · exact List.not_mem_nil
  · exact (activeSettings_pairwise hl (.state s)).imp fun h he => by
      rw [he] at h
      exact absurd h (Nat.lt_irrefl _)

/-- Without history, what is entered by default stands at its entry. -/
theorem enterState_enters {c' : Level} (hl : l ∈ levelsOf r sm) (hs : .state s ∈ l.vertices)
    (hc : (Machine.of r sm).inner? s.id = some c) (h : (Machine.of r sm).EntersByDefault r c c') :
    applyMoves value ((Machine.of r sm).enterState r l s false) σ c'.variableName =
      value (Machine.entry r c') := by
  have hmem := (inner?_eq_some hr hsm hl hs hc).1
  have hwithin : (Machine.of r sm).Within s c' := h.within (.inside hc)
  have hmoves : (Machine.of r sm).enterState r l s false =
      (Machine.of r sm).reset r c ++ (l.activeSettings (.state s)).map .assign := by
    simp [Machine.enterState, hc]
  rw [hmoves, applyMoves_append,
    applyMoves_of_not_mem (not_assigned_of_within hr hsm hl hs hwithin)]
  exact reset_enters hr hsm h hmem value σ

/-- By history, the level directly inside is restored, and nothing deeper is assigned. -/
theorem enterState_byHistory (value : String → StateValue) (σ : Store) (hl : l ∈ levelsOf r sm)
    (hs : .state s ∈ l.vertices) (hh : s.hasHistory = true)
    (hc : (Machine.of r sm).inner? s.id = some c) :
    (applyMoves value ((Machine.of r sm).enterState r l s true) σ c.variableName =
      if σ c.variableName = value c.unset ∨ σ c.variableName = value c.terminal then
        value (Machine.entry r c)
      else σ c.variableName) ∧
    ∀ s' c', .state s' ∈ c.vertices → (Machine.of r sm).Within s' c' →
      applyMoves value ((Machine.of r sm).enterState r l s true) σ c'.variableName =
        σ c'.variableName := by
  obtain ⟨hmem, hin, -⟩ := inner?_eq_some hr hsm hl hs hc
  have hhistory : c.hasHistory = true := by rw [hin]; exact hh
  have hmoves : (Machine.of r sm).enterState r l s true =
      (l.activeSettings (.state s)).map .assign ++
        [.restore ⟨c.variableName, c.unset, c.terminal, Machine.entry r c⟩] := by
    simp [Machine.enterState, hc, Machine.restoreOf, hhistory]
  rw [hmoves]
  constructor
  · have hkept : applyMoves value ((l.activeSettings (.state s)).map .assign) σ c.variableName =
        σ c.variableName :=
      applyMoves_of_not_mem (not_assigned_of_within hr hsm hl hs (.inside hc))
    rw [applyMoves_append, ← hkept]
    exact Move.apply_restore _
  · intro s' c' hs' hc'
    have hlt : c.name.length < c'.name.length :=
      Nat.lt_of_lt_of_le (c.length_lt_stateConstant s') (hc'.mem_and_length hr hsm hmem hs').2
    rw [applyMoves_append, applyMoves_of_not_mem fun hmem =>
      Level.variableName_ne_of_length hlt (List.mem_singleton.1 hmem).symm]
    exact applyMoves_of_not_mem (not_assigned_of_within hr hsm hl hs (.trans (.inside hc) hs' hc'))

end

/-- **Entering a state.**  After the moves of a transition into a state of the machine, or into a
    pseudostate that stands for it, all settings under which the state is active hold, whatever the
    variables held before.  If the state is composite and was entered without history, the level
    inside it and all levels entered by default with it stand at their entries.  Only variables of
    the level of the state, of levels around it and of levels inside the state are assigned. -/
theorem enter_configures {r : Registry} {sm : StateMachine} {owner : String} {m : Machine}
    {v : Vertex} {s : State} {byHistory : Bool} {l : Level} {σ σ' : Store} (hr : r.Built)
    (hsm : sm ∈ (r.owned owner).machines) (hm : m = .of r sm)
    (hd : destination r v = .state s byHistory) (hl : l ∈ m.levels) (hs : .state s ∈ l.vertices)
    (hσ : σ' = applyMoves m.value (m.enter r v) σ) :
    (∀ x ∈ l.activeSettings (.state s), x.Holds m.value σ') ∧
    (∃ depth, m.Active σ' l (.state s) depth) ∧
    (byHistory = false → ∀ c c', m.inner? s.id = some c → m.EntersByDefault r c c' →
      σ' c'.variableName = m.value (Machine.entry r c')) ∧
    ∀ x ∈ assigned (m.enter r v), x = l.variableName ∨
      (∃ ls, m.Around l ls ∧ ∃ p ∈ ls, x = p.1.variableName) ∨
      ∃ c, m.Within s c ∧ x = c.variableName := by
  subst hm
  have hn := hr.wellNested
  have hmachine := hn.machines owner sm hsm
  rw [enter_eq hn hmachine hd hl hs] at hσ ⊢
  have hholds : ∀ x ∈ l.activeSettings (.state s), x.Holds (Machine.of r sm).value σ' :=
    fun x hx => hσ ▸ holds_of_enterState hn hmachine hl hs hx
  refine ⟨hholds, ⟨_, (active_iff hn hmachine hl _ _).2 ⟨rfl, hholds⟩⟩, ?_, fun x hx => ?_⟩
  · rintro rfl c c' hc henters
    rw [hσ]
    exact enterState_enters hn hmachine hl hs hc henters
  · rcases assigned_enterState hx with h | ⟨y, hy, rfl⟩ | h
    · exact Or.inl h
    · obtain ⟨ls, hls⟩ := exists_around hl
      rw [hls.ascent_eq hn hmachine] at hy
      obtain ⟨p, hp, rfl⟩ := List.mem_map.1 hy
      exact Or.inr (Or.inl ⟨ls, hls, p, hp, rfl⟩)
    · exact Or.inr (Or.inr h)

/-! A lamp is off or on.  It remembers whether it was white or red, but not whether white was dim or
    bright. -/

def lampMachine : StateMachine := { id := "m", name := "M", parent := "lamp" }

def lampOn : State := { id := "on", name := "On", parent := "m", hasHistory := true }

def lampWhite : State := { id := "white", name := "White", parent := "on" }

def lamp : Registry := Registry.prepare { elements := [
  .classifier { id := "lamp", name := "Lamp", stereotype := "SimObject" },
  .stateMachine lampMachine,
  .state { id := "off", name := "Off", parent := "m" },
  .state { lampOn with hasHistory := false },
  .pseudoState { id := "history", parent := "on", pseudoKind := .shallowHistory },
  .state lampWhite,
  .state { id := "dim", name := "Dim", parent := "white" },
  .state { id := "bright", name := "Bright", parent := "white" },
  .state { id := "red", name := "Red", parent := "on" }] }

/-- The level inside the lamp that is on. -/
def lampColours : Level := (topLevel lamp lampMachine).insideOf lamp lampOn

/-- The level inside the white lamp. -/
def lampShades : Level := lampColours.insideOf lamp lampWhite

/-- The lamp is off, and was white and bright before. -/
def darkLamp : Store := fun x => if x = "state_M_On_White" then .ordinal 1 else .ordinal 0

/-- The machine of the lamp with its levels written out. -/
def lampLevels : Machine := ⟨lampMachine, [topLevel lamp lampMachine, lampColours, lampShades]⟩

theorem lampLevels_eq : lampLevels = Machine.of lamp lampMachine := by
  have htrees : lamp.machineTrees lampMachine.id = [.state _ [], .state lampOn
      [.pseudo _, .state lampWhite [.state _ [], .state _ []], .state _ []]] := rfl
  rw [Machine.of, levelsOf_eq, htrees]
  simp only [nestedLevels]
  rfl

theorem lamp_enters_white :
    lamp.Built ∧ lampMachine ∈ (lamp.owned "lamp").machines ∧
    lampLevels = Machine.of lamp lampMachine ∧
    let σ := applyMoves lampLevels.value (lampLevels.enter lamp (.state lampWhite)) darkLamp
    σ "state_M" = lampLevels.value "M_On" ∧ σ "state_M_On" = lampLevels.value "M_On_White" ∧
      σ "state_M_On_White" = lampLevels.value "M_On_White_Dim" := by
  have hbuilt : lamp.Built := .prepare (.loaded (by decide +kernel))
  have hmachine : lampMachine ∈ (lamp.owned "lamp").machines := by decide +kernel
  obtain ⟨hholds, -, hdefault, -⟩ := enter_configures (v := .state lampWhite) (l := lampColours)
    (σ := darkLamp) hbuilt hmachine lampLevels_eq rfl (by decide +kernel) (by decide +kernel) rfl
  exact ⟨hbuilt, hmachine, lampLevels_eq, hholds ⟨"state_M", "M_On"⟩ (by decide +kernel),
    hholds ⟨"state_M_On", "M_On_White"⟩ (by decide +kernel),
    hdefault rfl lampShades lampShades (by decide +kernel) (.here _)⟩

/-- **Entering a state by its history** restores the level directly inside, which falls back to its
    entry if it was never entered or has terminated.  All levels further inside keep what they
    held: those of active composite states without history stand at their entries afterwards iff
    they stood there before. -/
theorem enter_byHistory {r : Registry} {sm : StateMachine} {owner : String} {m : Machine}
    {v : Vertex} {s : State} {l c : Level} {σ σ' : Store} (hr : r.Built)
    (hsm : sm ∈ (r.owned owner).machines) (hm : m = .of r sm)
    (hd : destination r v = .state s true) (hl : l ∈ m.levels) (hs : .state s ∈ l.vertices)
    (hh : s.hasHistory = true) (hc : m.inner? s.id = some c)
    (hσ : σ' = applyMoves m.value (m.enter r v) σ) :
    (σ' c.variableName =
      if σ c.variableName = m.value c.unset ∨ σ c.variableName = m.value c.terminal then
        m.value (Machine.entry r c)
      else σ c.variableName) ∧
    (∀ s' c', .state s' ∈ c.vertices → m.Within s' c' →
      σ' c'.variableName = σ c'.variableName) ∧
    ((∀ c', m.Awake σ' c c' → σ' c'.variableName = m.value (Machine.entry r c')) ↔
      ∀ c', m.Awake σ' c c' → σ c'.variableName = m.value (Machine.entry r c')) := by
  subst hm
  have hn := hr.wellNested
  have hmachine := hn.machines owner sm hsm
  rw [enter_eq hn hmachine hd hl hs] at hσ
  obtain ⟨hrestored, hkept⟩ :=
    hσ ▸ enterState_byHistory hn hmachine (Machine.of r sm).value σ hl hs hh hc
  have hawake : ∀ c', (Machine.of r sm).Awake σ' c c' → σ' c'.variableName = σ c'.variableName := by
    intro c' h
    obtain ⟨s', hs', hwithin⟩ := h.within
    exact hkept s' c' hs' hwithin
  refine ⟨hrestored, hkept, ?_⟩
  constructor
  · intro h c' hc'
    rw [← hawake c' hc', h c' hc']
  · intro h c' hc'
    rw [hawake c' hc', h c' hc']

theorem lamp_remembers :
    lamp.Built ∧ lampMachine ∈ (lamp.owned "lamp").machines ∧
    lampLevels = Machine.of lamp lampMachine ∧
    let σ := applyMoves lampLevels.value (lampLevels.enter lamp (.state lampOn)) darkLamp
    σ "state_M_On" = lampLevels.value "M_On_White" ∧
      σ "state_M_On_White" = lampLevels.value "M_On_White_Bright" := by
  have hbuilt : lamp.Built := .prepare (.loaded (by decide +kernel))
  have hmachine : lampMachine ∈ (lamp.owned "lamp").machines := by decide +kernel
  have hshades : lampLevels.Within lampWhite lampShades := .inside (by decide +kernel)
  obtain ⟨hrestored, hkept, -⟩ := enter_byHistory (v := .state lampOn) (s := lampOn)
    (l := topLevel lamp lampMachine) (c := lampColours) (σ := darkLamp) hbuilt hmachine
    lampLevels_eq rfl (by decide +kernel) (by decide +kernel) rfl (by decide +kernel) rfl
  exact ⟨hbuilt, hmachine, lampLevels_eq, hrestored.trans (by decide +kernel),
    (hkept lampWhite lampShades (by decide +kernel) hshades).trans (by decide +kernel)⟩

/-- A lamp that is switched on by history is bright again: the level inside white, which has no
    history and becomes active, is not set anew. -/
theorem lamp_shade_not_reset :
    lamp.Built ∧ lampMachine ∈ (lamp.owned "lamp").machines ∧
    lampLevels = Machine.of lamp lampMachine ∧ lampLevels.inner? lampOn.id = some lampColours ∧
    let σ := applyMoves lampLevels.value (lampLevels.enter lamp (.state lampOn)) darkLamp
    ¬ ∀ c, lampLevels.Awake σ lampColours c →
      σ c.variableName = lampLevels.value (Machine.entry lamp c) := by
  have hbuilt : lamp.Built := .prepare (.loaded (by decide +kernel))
  refine ⟨hbuilt, by decide +kernel, lampLevels_eq, by decide +kernel, fun h => ?_⟩
  have hshade := h lampShades (.inside (s := lampWhite) (by decide +kernel) (by decide +kernel)
    (by decide +kernel) rfl)
  exact absurd hshade (by decide +kernel)

end ObjectLowering.Lowering
