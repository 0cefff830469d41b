/-
  How the levels of a state machine nest.

  * `Registry.Built.wellNested`: in the registries that adding and preparing
    give, a vertex is listed below its parent only.
  * `levels_induction`: the levels of a machine are the top level and the
    insides of states that are listed in levels.  A vertex is listed in one
    level (`levelOf?_eq`), and a state has one inside (`inner?_eq_some`).
  * `Machine.Around m l ls`: the levels around `l`, innermost first, each with
    the composite state that `l` lies in.  A level knows how they stand
    (`Around.ascent_eq`).
  * Names grow inwards, so the variables of a level and of the levels around
    it are different (`activeSettings_pairwise`).
-/
import ObjectLowering.Lowering.Machine
import ObjectLowering.Proofs.Ownership

namespace ObjectLowering

namespace Model

/-- The element that a vertex is. -/
def Vertex.element : Vertex → Element
  | .state s => .state s
  | .pseudo p => .pseudoState p

theorem Vertex.element_injective : Function.Injective Vertex.element := by
  intro v w h
  cases v <;> cases w <;> simp_all [element]

theorem Vertex.element_id (v : Vertex) : v.element.id = v.id := by
  cases v <;> rfl

namespace Registry

/-! ## Vertices and machines by owner -/

/-- The vertex that an element is, if it belongs to the machine or state `x`. -/
def vertexIn (r : Registry) (x : String) : Element → Option Vertex
  | .state s => if s.parent = x ∧ r.ownsVertices x then some (.state s) else none
  | .pseudoState p => if p.parent = x ∧ r.ownsVertices x then some (.pseudo p) else none
  | _ => none

/-- The machine that an element is, if it belongs to the classifier `x`. -/
def machineIn (r : Registry) (x : String) : Element → Option StateMachine
  | .stateMachine m => if m.parent = x ∧ (r.classifier? x).isSome then some m else none
  | _ => none

section
variable {r : Registry} {x : String} {y : Element}

theorem vertexIn_eq_some {v : Vertex} (h : r.vertexIn x y = some v) :
    y = v.element ∧ v.identity.parent = x := by
  cases y <;> simp only [vertexIn, reduceCtorEq] at h
  all_goals
    split_ifs at h with hx
    obtain rfl := Option.some.inj h
    exact ⟨rfl, hx.1⟩

theorem machineIn_eq_some {m : StateMachine} (h : r.machineIn x y = some m) :
    y = .stateMachine m := by
  cases y <;> simp only [machineIn, reduceCtorEq] at h
  split_ifs at h
  exact congrArg _ (Option.some.inj h)

theorem attach_vertices (r : Registry) (l : Links) (e : Element) (x : String) :
    ((r.attach l e).of x).vertices = (l.of x).vertices ++ (r.vertexIn x e).toList := by
  match e with
  | .state _ | .pseudoState _ => exact Links.enter_append r.ownsVertices fun _ => rfl
  | .package _ | .classifier _ | .association _ | .event _ => simp [attach, vertexIn]
  | .attribute _ | .operation _ | .associationEnd _ | .generalization _ | .dependency _
  | .stateMachine _ | .transition _ | .action _ =>
    simp only [vertexIn, Option.toList_none, List.append_nil]
    exact Links.enter_same fun _ => rfl

theorem attach_machines (r : Registry) (l : Links) (e : Element) (x : String) :
    ((r.attach l e).of x).machines = (l.of x).machines ++ (r.machineIn x e).toList := by
  match e with
  | .stateMachine _ =>
    exact Links.enter_append (fun x => (r.classifier? x).isSome) fun _ => rfl
  | .package _ | .classifier _ | .association _ | .event _ => simp [attach, machineIn]
  | .attribute _ | .operation _ | .associationEnd _ | .generalization _ | .dependency _
  | .state _ | .pseudoState _ | .transition _ | .action _ =>
    simp only [machineIn, Option.toList_none, List.append_nil]
    exact Links.enter_same fun _ => rfl

theorem attachEnd_vertices (r : Registry) (l : Links) (p : AssociationEnd × AssociationEnd)
    (x : String) : ((r.attachEnd l p).of x).vertices = (l.of x).vertices :=
  Links.enter_same fun _ => rfl

theorem attachEnd_machines (r : Registry) (l : Links) (p : AssociationEnd × AssociationEnd)
    (x : String) : ((r.attachEnd l p).of x).machines = (l.of x).machines :=
  Links.enter_same fun _ => rfl

theorem linkAll_vertices (r : Registry) (x : String) :
    (r.linkAll.of x).vertices = r.elements.filterMap (r.vertexIn x) :=
  (foldl_keeps (fun l : Links => (l.of x).vertices) (r.attachEnd_vertices · · x) _ _).trans
    (foldl_extends (fun l : Links => (l.of x).vertices) (r.attach_vertices · · x) {} _)

theorem linkAll_machines (r : Registry) (x : String) :
    (r.linkAll.of x).machines = r.elements.filterMap (r.machineIn x) :=
  (foldl_keeps (fun l : Links => (l.of x).machines) (r.attachEnd_machines · · x) _ _).trans
    (foldl_extends (fun l : Links => (l.of x).machines) (r.attach_machines · · x) {} _)

end

/-- Vertices are listed below their parents only, and ids tell elements apart. -/
structure WellNested (r : Registry) : Prop where
  ids : (r.elements.map Element.id).Nodup
  vertices : ∀ x, ∀ v ∈ (r.owned x).vertices, v.element ∈ r.elements ∧ v.identity.parent = x
  machines : ∀ x, ∀ m ∈ (r.owned x).machines, .stateMachine m ∈ r.elements

/-- **Vertices have one parent.** -/
theorem Built.wellNested {r : Registry} (h : r.Built) : r.WellNested := by
  refine ⟨h.ids_nodup, ?_, ?_⟩
  · induction h with
    | loaded => intro x v hv; cases hv
    | add _ ha ih =>
      obtain ⟨-, rfl⟩ := add_eq_ok ha
      exact fun x v hv => ⟨List.mem_append_left _ (ih x v hv).1, (ih x v hv).2⟩
    | @prepare r _ ih =>
      unfold Registry.prepare
      split_ifs
      · exact ih
      · intro x v hv
        rw [owned, linkAll_vertices, List.mem_filterMap] at hv
        obtain ⟨y, hy, hv⟩ := hv
        obtain ⟨rfl, hx⟩ := vertexIn_eq_some hv
        exact ⟨hy, hx⟩
  · induction h with
    | loaded => intro x m hm; cases hm
    | add _ ha ih =>
      obtain ⟨-, rfl⟩ := add_eq_ok ha
      exact fun x m hm => List.mem_append_left _ (ih x m hm)
    | @prepare r _ ih =>
      unfold Registry.prepare
      split_ifs
      · exact ih
      · intro x m hm
        rw [owned, linkAll_machines, List.mem_filterMap] at hm
        obtain ⟨y, hy, hm⟩ := hm
        obtain rfl := machineIn_eq_some hm
        exact hy

end Registry
end Model

namespace Lowering

open Model Code

/-! ## Levels -/

/-- The level inside a state, with what the registry lists below the state. -/
def Level.insideOf (l : Level) (r : Registry) (s : State) : Level :=
  { l.inside s [] with vertices := (r.owned s.id).vertices }

/-- The top level of a machine. -/
def topLevel (r : Registry) (sm : StateMachine) : Level :=
  let name := if Text.isBlankText sm.name then "Machine" else ident sm.name
  { name, path := name, vertices := (r.machineTrees sm.id).map (·.vertex) }

theorem levelsOf_eq (r : Registry) (sm : StateMachine) :
    levelsOf r sm = topLevel r sm :: nestedLevels (topLevel r sm) (r.machineTrees sm.id) := rfl

section
variable {r : Registry} {sm : StateMachine}

theorem vertexTrees_vertices (r : Registry) (depth : Nat) (x : String) :
    (r.vertexTrees (depth + 1) x).map (·.vertex) = (r.owned x).vertices := by
  rw [Registry.vertexTrees, List.map_map]
  refine (List.map_congr_left fun v _ => ?_).trans (List.map_id _)
  cases v <;> rfl

theorem mem_vertexTrees {depth : Nat} {x : String} {s : State} {children : List VertexTree}
    (h : .state s children ∈ r.vertexTrees depth x) : ∃ d, children = r.vertexTrees d s.id := by
  cases depth with
  | zero => cases h
  | succ d =>
    obtain ⟨v, -, hv⟩ := List.mem_map.1 h
    cases v with
    | state s' => cases hv; exact ⟨d, rfl⟩
    | pseudo p => cases hv

/-- What holds of a level of `L`, and passes on from levels of `L` to the insides of their states,
    holds of all that is nested in the level. -/
theorem nestedLevels_induction {P : Level → Prop} {L : List Level}
    (inside : ∀ l s, l ∈ L → .state s ∈ l.vertices → s.isFinal = false →
      (r.owned s.id).vertices ≠ [] → l.insideOf r s ∈ L → P l → P (l.insideOf r s))
    {l : Level} {trees : List VertexTree} (hl : l ∈ L) (hP : P l)
    (hlisted : ∀ t ∈ trees, t.vertex ∈ l.vertices)
    (htrees : ∀ s children, .state s children ∈ trees → ∃ d, children = r.vertexTrees d s.id)
    (hsub : ∀ c ∈ nestedLevels l trees, c ∈ L) : ∀ c ∈ nestedLevels l trees, P c := by
  induction l, trees using nestedLevels.induct with
  | case1 l => simp [nestedLevels]
  | case2 l p rest ih =>
    rw [nestedLevels] at hsub ⊢
    exact ih hl hP (fun t ht => hlisted t (List.mem_cons_of_mem _ ht))
      (fun s children h => htrees s children (List.mem_cons_of_mem _ h)) hsub
  | case3 l s children rest ihin ihrest =>
    rw [nestedLevels] at hsub ⊢
    intro c hc
    rcases List.mem_append.1 hc with hc | hc
    · split_ifs at hc hsub with hskip
      · cases hc
      · obtain ⟨hfinal, hchildren⟩ : s.isFinal = false ∧ children ≠ [] := by simpa using hskip
        obtain ⟨d, hd⟩ := htrees s children List.mem_cons_self
        -- a state without children has no inside, so the trees go one level deeper here
        obtain ⟨d, rfl⟩ : ∃ d', d = d' + 1 := by
          cases d with
          | zero => exact absurd hd hchildren
          | succ d' => exact ⟨d', rfl⟩
        have hvertices : children.map (·.vertex) = (r.owned s.id).vertices := by
          rw [hd, vertexTrees_vertices]
        have hin : l.inside s children = l.insideOf r s := by
          rw [Level.insideOf, ← hvertices]; rfl
        have hmem : l.inside s children ∈ L :=
          hsub _ (List.mem_append_left _ List.mem_cons_self)
        have hPin : P (l.inside s children) := by
          rw [hin] at hmem ⊢
          refine inside l s hl (hlisted _ List.mem_cons_self) hfinal ?_ hmem hP
          rw [← hvertices]
          simpa using hchildren
        rcases List.mem_cons.1 hc with rfl | hc
        · exact hPin
        · refine ihin hmem hPin (fun t ht => List.mem_map_of_mem ht) (fun s' children' h => ?_)
            (fun c hc => hsub c (List.mem_append_left _ (List.mem_cons_of_mem _ hc))) c hc
          rw [hd] at h
          exact mem_vertexTrees h
    · exact ihrest hl hP (fun t ht => hlisted t (List.mem_cons_of_mem _ ht))
        (fun s children h => htrees s children (List.mem_cons_of_mem _ h))
        (fun c hc => hsub c (List.mem_append_right _ hc)) c hc

/-- **The levels of a machine** are the top level and the insides of states of levels. -/
theorem levels_induction {P : Level → Prop} (top : P (topLevel r sm))
    (inside : ∀ l s, l ∈ levelsOf r sm → .state s ∈ l.vertices → s.isFinal = false →
      (r.owned s.id).vertices ≠ [] → l.insideOf r s ∈ levelsOf r sm → P l → P (l.insideOf r s)) :
    ∀ l ∈ levelsOf r sm, P l := by
  intro l hl
  rw [levelsOf_eq] at hl
  rcases List.mem_cons.1 hl with rfl | hl
  · exact top
  · exact nestedLevels_induction inside List.mem_cons_self top
      (fun t ht => List.mem_map_of_mem ht) (fun s children h => mem_vertexTrees h)
      (fun c hc => List.mem_cons_of_mem _ hc) l hl

theorem levels_cases {l : Level} (h : l ∈ levelsOf r sm) :
    l = topLevel r sm ∨ ∃ p s, p ∈ levelsOf r sm ∧ .state s ∈ p.vertices ∧ s.isFinal = false ∧
      l = p.insideOf r s := by
  refine levels_induction (P := fun l => l = topLevel r sm ∨ ∃ p s, p ∈ levelsOf r sm ∧
    .state s ∈ p.vertices ∧ s.isFinal = false ∧ l = p.insideOf r s) (Or.inl rfl) ?_ l h
  intro l s hl hs hf _ _ _
  exact Or.inr ⟨l, s, hl, hs, hf, rfl⟩

end

/-! ## Names -/

section
variable {r : Registry} {sm : StateMachine} {l : Level}

theorem Level.length_lt_stateConstant (l : Level) (s : State) :
    l.name.length < (l.stateConstant s).length := by
  simp only [stateConstant, String.length_append]
  have : "_".length = 1 := rfl
  omega

theorem Level.length_variableName (l : Level) : l.variableName.length = 6 + l.name.length := by
  rw [variableName, String.length_append]
  rfl

theorem Level.variableName_ne_of_length {l l' : Level} (h : l.name.length < l'.name.length) :
    l.variableName ≠ l'.variableName := by
  intro he
  have hlength := congrArg String.length he
  rw [l.length_variableName, l'.length_variableName] at hlength
  omega

/-- The variables of the levels around a level have shorter names, and so on outwards. -/
theorem activeSettings_pairwise (hl : l ∈ levelsOf r sm) (v : Vertex) :
    (l.activeSettings v).Pairwise fun a b => b.var.length < a.var.length := by
  refine levels_induction (P := fun l => ∀ v, (l.activeSettings v).Pairwise
    fun a b => b.var.length < a.var.length) (fun v => List.pairwise_singleton _ _) ?_ l hl v
  intro l s _ _ _ _ _ ih v
  have hlt := l.length_lt_stateConstant s
  have hname : (l.insideOf r s).variableName.length = 6 + (l.stateConstant s).length :=
    (l.insideOf r s).length_variableName
  refine List.pairwise_cons.2 ⟨fun b hb => ?_, ih (.state s)⟩
  rcases List.mem_cons.1 hb with rfl | hb
  · rw [hname, l.length_variableName]
    omega
  · have hb := (List.pairwise_cons.1 (ih (.state s))).1 b hb
    rw [l.length_variableName] at hb
    rw [hname]
    omega

end

/-! ## Owners -/

section
variable {r : Registry} {sm : StateMachine} {l l' c : Level} {s : State} {v w : Vertex}

/-- The id of what a level lists the vertices of. -/
def Level.ownerId (l : Level) (sm : StateMachine) : String := (l.owner.map (·.id)).getD sm.id

variable (hr : r.WellNested) (hsm : .stateMachine sm ∈ r.elements)
include hsm

theorem vertices_eq (hl : l ∈ levelsOf r sm) : l.vertices = (r.owned (l.ownerId sm)).vertices := by
  rcases levels_cases hl with rfl | ⟨p, s, -, -, -, rfl⟩
  · obtain ⟨n, hn⟩ := Nat.exists_eq_add_one_of_ne_zero
      (Nat.pos_iff_ne_zero.1 (List.length_pos_of_mem hsm))
    have htop : (topLevel r sm).vertices = (r.vertexTrees r.elements.length sm.id).map (·.vertex) :=
      rfl
    rw [htop, hn, vertexTrees_vertices]
    rfl
  · rfl

include hr

theorem listed_element (hl : l ∈ levelsOf r sm) (hv : v ∈ l.vertices) :
    v.element ∈ r.elements ∧ v.identity.parent = l.ownerId sm := by
  rw [vertices_eq hsm hl] at hv
  exact hr.vertices _ v hv

/-- Vertices of levels are told apart by their ids. -/
theorem eq_of_listed_id (hl : l ∈ levelsOf r sm) (hl' : l' ∈ levelsOf r sm) (hv : v ∈ l.vertices)
    (hw : w ∈ l'.vertices) (h : v.id = w.id) : v = w := by
  refine Vertex.element_injective (Registry.eq_of_id hr.ids (listed_element hr hsm hl hv).1
    (listed_element hr hsm hl' hw).1 ?_)
  rw [v.element_id, w.element_id, h]

theorem listed_id_ne_machine (hl : l ∈ levelsOf r sm) (hs : .state s ∈ l.vertices) :
    s.id ≠ sm.id := by
  intro h
  have := Registry.eq_of_id hr.ids (listed_element hr hsm hl hs).1 hsm h
  cases this

/-- A level is determined by what it lists the vertices of. -/
theorem eq_of_ownerId (hl : l ∈ levelsOf r sm) (hl' : l' ∈ levelsOf r sm)
    (h : l.ownerId sm = l'.ownerId sm) : l = l' := by
  refine levels_induction (P := fun l => ∀ l' ∈ levelsOf r sm, l.ownerId sm = l'.ownerId sm →
    l = l') ?_ ?_ l hl l' hl' h
  · intro l' hl' h
    rcases levels_cases hl' with rfl | ⟨p, s, hp, hs, -, rfl⟩
    · rfl
    · exact absurd h.symm (listed_id_ne_machine hr hsm hp hs)
  · intro l s hl hs _ _ _ ih l' hl' h
    rcases levels_cases hl' with rfl | ⟨p, s', hp, hs', -, rfl⟩
    · exact absurd h (listed_id_ne_machine hr hsm hl hs)
    · have hss : Vertex.state s = .state s' := eq_of_listed_id hr hsm hl hp hs hs' h
      obtain rfl := Vertex.state.inj hss
      have hparent := (listed_element hr hsm hl hs).2
      rw [(listed_element hr hsm hp hs').2] at hparent
      rw [ih p hp hparent.symm]

/-- A vertex is listed in one level. -/
theorem eq_of_listed (hl : l ∈ levelsOf r sm) (hl' : l' ∈ levelsOf r sm) (hv : v ∈ l.vertices)
    (hw : w ∈ l'.vertices) (h : v.id = w.id) : l = l' ∧ v = w := by
  obtain rfl := eq_of_listed_id hr hsm hl hl' hv hw h
  refine ⟨eq_of_ownerId hr hsm hl hl' ?_, rfl⟩
  rw [← (listed_element hr hsm hl hv).2, (listed_element hr hsm hl' hw).2]

theorem levelOf?_eq (hl : l ∈ levelsOf r sm) (hv : v ∈ l.vertices) :
    (Machine.of r sm).levelOf? v.id = some l := by
  have hlists : l.lists v.id = true := List.any_eq_true.2 ⟨v, hv, beq_self_eq_true _⟩
  cases hf : (Machine.of r sm).levelOf? v.id with
  | none => exact absurd hlists (List.find?_eq_none.1 hf l hl)
  | some l' =>
    obtain ⟨w, hw, hid⟩ := List.any_eq_true.1
      (List.find?_some (p := fun l : Level => l.lists v.id) hf)
    rw [(eq_of_listed hr hsm (List.mem_of_find?_eq_some hf) hl hw hv (beq_iff_eq.1 hid)).1]

/-- The level inside a state that a level lists. -/
theorem inner?_eq_some (hl : l ∈ levelsOf r sm) (hs : .state s ∈ l.vertices)
    (hc : (Machine.of r sm).inner? s.id = some c) :
    c ∈ levelsOf r sm ∧ c = l.insideOf r s ∧ s.isFinal = false := by
  have hmem : c ∈ levelsOf r sm := List.mem_of_find?_eq_some hc
  have howner := List.find?_some (p := fun l : Level => (l.owner.map (·.id)) == some s.id) hc
  rcases levels_cases hmem with rfl | ⟨p, s', hp, hs', hf, rfl⟩
  · cases howner
  · have hid : s'.id = s.id := Option.some.inj (beq_iff_eq.1 howner)
    obtain ⟨rfl, hss⟩ := eq_of_listed hr hsm hp hl hs' hs hid
    obtain rfl := Vertex.state.inj hss
    exact ⟨hmem, rfl, hf⟩

theorem inner?_eq_of_owner (hc : c ∈ levelsOf r sm) (ho : c.owner = some s) :
    (Machine.of r sm).inner? s.id = some c := by
  have hp : ((c.owner.map (·.id)) == some s.id) = true := by rw [ho]; exact beq_self_eq_true _
  cases hf : (Machine.of r sm).inner? s.id with
  | none => exact absurd hp (List.find?_eq_none.1 hf c hc)
  | some c' =>
    have hc' : c' ∈ levelsOf r sm := List.mem_of_find?_eq_some hf
    have howner := List.find?_some (p := fun l : Level => (l.owner.map (·.id)) == some s.id) hf
    have hid : c'.owner.map (·.id) = c.owner.map (·.id) :=
      (beq_iff_eq.1 howner).trans (beq_iff_eq.1 hp).symm
    rw [eq_of_ownerId hr hsm hc' hc (by rw [Level.ownerId, hid, Level.ownerId])]

end

/-! ## Levels around a level -/

namespace Machine

/-- The levels around a level, innermost first, each with the composite state that the level
    lies in. -/
inductive Around (m : Machine) : Level → List (Level × State) → Prop where
  | top {l : Level} (hl : l ∈ m.levels) (ho : l.owner = none) : Around m l []
  | inside {l c : Level} {s : State} {ls : List (Level × State)} (h : Around m l ls)
    (hs : .state s ∈ l.vertices) (hc : c ∈ m.levels) (ho : c.owner = some s) :
    Around m c ((l, s) :: ls)

/-- The levels nested inside a state. -/
inductive Within (m : Machine) : State → Level → Prop where
  | inside {s : State} {c : Level} (hc : m.inner? s.id = some c) : Within m s c
  | deeper {s s' : State} {c c' : Level} (h : Within m s c) (hs : .state s' ∈ c.vertices)
    (hc : m.inner? s'.id = some c') : Within m s c'

end Machine

/-- The setting of a level that is in a state. -/
def settingAt (p : Level × State) : Setting :=
  { var := p.1.variableName, enumerator := p.1.stateConstant p.2 }

section
variable {r : Registry} {sm : StateMachine} {l c : Level} {s : State} {ls : List (Level × State)}

theorem exists_around (hl : l ∈ levelsOf r sm) : ∃ ls, (Machine.of r sm).Around l ls := by
  refine levels_induction (P := fun l => ∃ ls, (Machine.of r sm).Around l ls)
    ⟨[], .top List.mem_cons_self rfl⟩ ?_ l hl
  rintro l s - hs - - hin ⟨ls, hls⟩
  exact ⟨_, .inside hls hs hin rfl⟩

theorem Machine.Around.mem {m : Machine} (h : m.Around l ls) : l ∈ m.levels := by
  cases h with
  | top hl => exact hl
  | inside _ _ hc => exact hc

variable (hr : r.WellNested) (hsm : .stateMachine sm ∈ r.elements)
include hr hsm

/-- A level knows how the levels around it stand. -/
theorem Machine.Around.ascent_eq (h : (Machine.of r sm).Around l ls) :
    l.ascent = ls.map settingAt := by
  induction h with
  | top hl ho =>
    rcases levels_cases hl with rfl | ⟨p, s, -, -, -, rfl⟩
    · rfl
    · cases ho
  | @inside l c s ls h hs hc ho ih =>
    obtain ⟨-, rfl, -⟩ := inner?_eq_some hr hsm h.mem hs (inner?_eq_of_owner hr hsm hc ho)
    rw [List.map_cons, ← ih]
    rfl

/-- What is nested in a state has a name no shorter than the enumerator of the state. -/
theorem Machine.Within.mem_and_length (hl : l ∈ levelsOf r sm) (hs : .state s ∈ l.vertices)
    (h : (Machine.of r sm).Within s c) :
    c ∈ levelsOf r sm ∧ (l.stateConstant s).length ≤ c.name.length := by
  induction h with
  | inside hc =>
    obtain ⟨hmem, rfl, -⟩ := inner?_eq_some hr hsm hl hs hc
    exact ⟨hmem, Nat.le_refl _⟩
  | @deeper s' c c' _ hs' hc ih =>
    obtain ⟨hmem, hle⟩ := ih
    obtain ⟨hmem', rfl, -⟩ := inner?_eq_some hr hsm hmem hs' hc
    exact ⟨hmem', Nat.le_of_lt (Nat.lt_of_le_of_lt hle (c.length_lt_stateConstant s'))⟩

end

end Lowering
end ObjectLowering
