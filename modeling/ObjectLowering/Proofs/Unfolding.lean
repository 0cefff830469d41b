/-
  What lies below a state machine.

  The parents of vertices are arbitrary ids: vertices may name each other in
  circles, or name elements that hold no vertices.  A vertex is listed below
  its parent only, so from a machine downwards no circle is ever met, although
  nothing that walks over the vertices keeps track of where it was.

  * `Registry.Way`: the states on the way from a machine down to one of them.
    A way is unique (`Way.unique`) and meets no id twice (`Way.nodup`), so it
    is shorter than the registry.
  * `unfolds_vertexTrees`: the bound on the depth of trees is never reached.
    `Unfolds.mem_treeVertices` and `Unfolds.nodup` tell what trees list.
  * `Registry.Opens`: the states that are reached without a final state above
    them.  Those with an inside own the levels (`mem_owners`).
  * `machine_unfolds`: all of this for the machines of a registry.
-/
import ObjectLowering.Proofs.Entering
import ObjectLowering.Proofs.LevelNames

namespace ObjectLowering

namespace Model

mutual

/-- The vertex of a tree, and what is nested in it. -/
def VertexTree.vertices : VertexTree → List Vertex
  | .pseudo p => [.pseudo p]
  | .state s children => .state s :: treeVertices children

/-- The vertices of trees, each in front of what is nested in it. -/
def treeVertices : List VertexTree → List Vertex
  | [] => []
  | t :: rest => t.vertices ++ treeVertices rest

end

theorem mem_treeVertices {v : Vertex} {trees : List VertexTree} : v ∈ treeVertices trees ↔
    v ∈ trees.map (·.vertex) ∨
      ∃ s children, .state s children ∈ trees ∧ v ∈ treeVertices children := by
  induction trees with
  | nil => simp [treeVertices]
  | cons t rest ih =>
    simp only [treeVertices, List.mem_append, ih, List.map_cons, List.mem_cons]
    cases t with
    | pseudo p => simp [VertexTree.vertices, VertexTree.vertex, or_assoc]
    | state s children =>
      simp only [VertexTree.vertices, VertexTree.vertex, List.mem_cons]
      constructor
      · rintro ((h | h) | h | ⟨s', children', h, hv⟩)
        · exact Or.inl (Or.inl h)
        · exact Or.inr ⟨s, children, Or.inl rfl, h⟩
        · exact Or.inl (Or.inr h)
        · exact Or.inr ⟨s', children', Or.inr h, hv⟩
      · rintro ((h | h) | ⟨s', children', h | h, hv⟩)
        · exact Or.inl (Or.inl h)
        · exact Or.inr (Or.inl h)
        · cases h
          exact Or.inl (Or.inr hv)
        · exact Or.inr (Or.inr ⟨s', children', h, hv⟩)

namespace Registry

/-! ## Walking down -/

/-- The state with id `y` is listed below `x`. -/
def Lists (r : Registry) (y x : String) : Prop := ∃ s, .state s ∈ (r.owned x).vertices ∧ s.id = y

/-- A vertex is listed below `x`, or below a state that is reached from `x`. -/
inductive Reaches (r : Registry) (x : String) : Vertex → Prop where
  | listed {v : Vertex} (hv : v ∈ (r.owned x).vertices) : Reaches r x v
  | deeper {s : State} {v : Vertex} (hs : Reaches r x (.state s))
    (hv : v ∈ (r.owned s.id).vertices) : Reaches r x v

/-- A state is listed below `x`, or below a state that is not final and is itself so reached. -/
inductive Opens (r : Registry) (x : String) : State → Prop where
  | listed {s : State} (hs : .state s ∈ (r.owned x).vertices) : Opens r x s
  | deeper {s s' : State} (hs : Opens r x s) (hf : s.isFinal = false)
    (hs' : .state s' ∈ (r.owned s.id).vertices) : Opens r x s'

/-- Trees of all that is listed below `x`, down to vertices below which nothing is listed. -/
inductive Unfolds (r : Registry) : String → List VertexTree → Prop where
  | intro {x : String} {trees : List VertexTree}
    (hlists : trees.map (·.vertex) = (r.owned x).vertices)
    (hinside : ∀ s children, .state s children ∈ trees → Unfolds r s.id children) : Unfolds r x trees

/-- The ids of the states on the way from `m` down to `x`, innermost first. -/
inductive Way (r : Registry) (m : String) : List String → String → Prop where
  | top {x : String} (hx : x = m) : Way r m [] x
  | down {ids : List String} {x : String} {s : State} (h : Way r m ids x)
    (hs : .state s ∈ (r.owned x).vertices) : Way r m (s.id :: ids) s.id

section
variable {r : Registry} {x y : String} {v : Vertex} {s s' : State} {trees : List VertexTree}

theorem Reaches.trans (hs : r.Reaches x (.state s)) (h : r.Reaches s.id v) : r.Reaches x v := by
  induction h with
  | listed hv => exact .deeper hs hv
  | deeper _ hv ih => exact .deeper ih hv

/-- Trees that end show that following lists ends. -/
theorem Unfolds.acc (h : r.Unfolds x trees) : Acc r.Lists x := by
  induction h with
  | @intro x trees hlists _ ih =>
    refine Acc.intro x fun y hy => ?_
    obtain ⟨s, hs, rfl⟩ := hy
    rw [← hlists, List.mem_map] at hs
    obtain ⟨t, ht, hts⟩ := hs
    cases t with
    | pseudo p => cases hts
    | state s' children =>
      cases hts
      exact ih s children ht

/-- What a listed state lists is listed. -/
theorem Unfolds.closed (h : r.Unfolds x trees) (hs : .state s ∈ treeVertices trees)
    (hv : v ∈ (r.owned s.id).vertices) : v ∈ treeVertices trees := by
  induction h with
  | @intro x trees _ hinside ih =>
    rcases mem_treeVertices.1 hs with hs | ⟨s', children, ht, hs⟩
    · obtain ⟨t, ht, hts⟩ := List.mem_map.1 hs
      cases t with
      | pseudo p => cases hts
      | state s' children =>
        cases hts
        obtain ⟨hlists, -⟩ := hinside s children ht
        refine mem_treeVertices.2 (Or.inr ⟨s, children, ht, mem_treeVertices.2 (Or.inl ?_)⟩)
        rw [hlists]
        exact hv
    · exact mem_treeVertices.2 (Or.inr ⟨s', children, ht, ih s' children ht hs⟩)

/-- **Trees list what is reached.** -/
theorem Unfolds.mem_treeVertices (h : r.Unfolds x trees) :
    v ∈ treeVertices trees ↔ r.Reaches x v := by
  constructor
  · intro hv
    induction h with
    | @intro x trees hlists _ ih =>
      rcases Model.mem_treeVertices.1 hv with hv | ⟨s, children, ht, hv⟩
      · exact .listed (hlists ▸ hv)
      · have hs : .state s ∈ (r.owned x).vertices := by
          rw [← hlists]
          exact List.mem_map_of_mem ht
        exact (Reaches.listed hs).trans (ih s children ht hv)
  · intro hv
    induction hv with
    | listed hv =>
      obtain ⟨hlists, -⟩ := h
      exact Model.mem_treeVertices.2 (Or.inl (hlists ▸ hv))
    | deeper _ hv ih => exact h.closed ih hv

/-! ## Ways -/

variable {m : StateMachine} {ids ids' : List String}

/-- What is reached from a place on a way lies further down on a way. -/
theorem Way.extend (hw : r.Way m.id ids x) (h : r.Reaches x v) :
    ∃ inner y, r.Way m.id (inner ++ ids) y ∧ v ∈ (r.owned y).vertices := by
  induction h with
  | listed hv => exact ⟨[], x, hw, hv⟩
  | @deeper s v _ hv ih =>
    obtain ⟨inner, y, hy, hs⟩ := ih
    exact ⟨s.id :: inner, s.id, .down hy hs, hv⟩

/-- The places on a way have ways of their own. -/
theorem Way.suffix (hw : r.Way m.id ids x) (hy : y ∈ ids) :
    ∃ outer, r.Way m.id (y :: outer) y ∧ (y :: outer).length ≤ ids.length := by
  induction hw with
  | top => cases hy
  | @down ids x s hw hs ih =>
    rcases List.mem_cons.1 hy with rfl | hy
    · exact ⟨ids, .down hw hs, le_refl _⟩
    · obtain ⟨outer, houter, hlength⟩ := ih hy
      exact ⟨outer, houter, hlength.trans (by simp)⟩

variable (hr : r.WellNested) (hm : .stateMachine m ∈ r.elements)
include hr

theorem listed_once {v w : Vertex} (hv : v ∈ (r.owned x).vertices) (hw : w ∈ (r.owned y).vertices)
    (h : v.id = w.id) : v = w ∧ x = y := by
  obtain ⟨hve, hvx⟩ := hr.vertices x v hv
  obtain ⟨hwe, hwy⟩ := hr.vertices y w hw
  have hvw : v = w := by
    refine Vertex.element_injective (eq_of_id hr.ids hve hwe ?_)
    rw [v.element_id, w.element_id, h]
  exact ⟨hvw, by rw [← hvx, ← hwy, hvw]⟩

include hm

theorem state_id_ne (hs : .state s ∈ (r.owned x).vertices) : s.id ≠ m.id := by
  intro h
  have he := eq_of_id hr.ids (hr.vertices x _ hs).1 hm h
  cases he

/-- **There is one way to a place.** -/
theorem Way.unique (hw : r.Way m.id ids x) (hw' : r.Way m.id ids' x) : ids = ids' := by
  induction hw generalizing ids' with
  | top hx =>
    cases hw' with
    | top => rfl
    | down _ hs => exact absurd hx (state_id_ne hr hm hs)
  | @down ids x s _ hs ih =>
    generalize hy : s.id = y at hw'
    cases hw' with
    | top hx => exact absurd (hy.trans hx) (state_id_ne hr hm hs)
    | @down _ x' s' hw' hs' =>
      obtain ⟨-, rfl⟩ := listed_once hr hs hs' hy
      rw [ih hw']

/-- **A way meets no id twice.** -/
theorem Way.nodup (hw : r.Way m.id ids x) :
    (m.id :: ids).Nodup ∧ m.id :: ids ⊆ r.elements.map Element.id := by
  induction hw with
  | top => exact ⟨List.nodup_singleton _, by simpa using ⟨_, hm, rfl⟩⟩
  | @down ids x s hw hs ih =>
    obtain ⟨hnodup, hsub⟩ := ih
    rw [List.nodup_cons] at hnodup
    have hnew : s.id ∉ ids := by
      intro hmem
      obtain ⟨outer, houter, hlength⟩ := hw.suffix hmem
      have hlonger := congrArg List.length ((Way.down hw hs).unique hr hm houter)
      simp only [List.length_cons] at hlonger hlength
      omega
    have hid : s.id ∈ r.elements.map Element.id :=
      List.mem_map.2 ⟨_, (hr.vertices x _ hs).1, Vertex.element_id (.state s)⟩
    constructor
    · rw [List.nodup_cons, List.mem_cons, List.nodup_cons]
      exact ⟨not_or.2 ⟨(state_id_ne hr hm hs).symm, hnodup.1⟩, hnew, hnodup.2⟩
    · intro y hy
      rcases List.mem_cons.1 hy with rfl | hy
      · exact hsub List.mem_cons_self
      · rcases List.mem_cons.1 hy with rfl | hy
        · exact hid
        · exact hsub (List.mem_cons_of_mem _ hy)

theorem Way.length_lt (hw : r.Way m.id ids x) : ids.length < r.elements.length := by
  obtain ⟨hnodup, hsub⟩ := hw.nodup hr hm
  have hle := (hnodup.subperm hsub).length_le
  rwa [List.length_cons, List.length_map] at hle

/-- **Trees are complete**: on the way down, the bound on their depth is never reached. -/
theorem unfolds_vertexTrees {depth : Nat} (hw : r.Way m.id ids x)
    (hdepth : r.elements.length ≤ depth + ids.length) : r.Unfolds x (r.vertexTrees depth x) := by
  induction depth generalizing ids x with
  | zero =>
    have hlt := hw.length_lt hr hm
    omega
  | succ depth ih =>
    refine .intro (Lowering.vertexTrees_vertices r depth x) fun s children ht => ?_
    have hs : .state s ∈ (r.owned x).vertices := by
      rw [← Lowering.vertexTrees_vertices r depth x]
      exact List.mem_map_of_mem ht
    rw [vertexTrees, List.mem_map] at ht
    obtain ⟨w, -, hw'⟩ := ht
    cases w with
    | pseudo p => cases hw'
    | state s' =>
      cases hw'
      refine ih (.down hw hs) ?_
      simp only [List.length_cons]
      omega

/-- What is reached from a state is not listed beside it. -/
theorem Way.not_beside (hw : r.Way m.id ids x) (hs : .state s ∈ (r.owned x).vertices)
    (hv : v ∈ (r.owned x).vertices) : ¬ r.Reaches s.id v := by
  intro h
  obtain ⟨inner, y, hy, hvy⟩ := (Way.down hw hs).extend h
  obtain ⟨-, rfl⟩ := listed_once hr hv hvy rfl
  have hlength := congrArg List.length (hw.unique hr hm hy)
  simp only [List.length_append, List.length_cons] at hlength
  omega

/-- What is reached from two states that are listed side by side is reached from one. -/
theorem Way.same_side (hw : r.Way m.id ids x) (hs : .state s ∈ (r.owned x).vertices)
    (hs' : .state s' ∈ (r.owned x).vertices) (h : r.Reaches s.id v) (h' : r.Reaches s'.id v) :
    s = s' := by
  obtain ⟨inner, y, hy, hvy⟩ := (Way.down hw hs).extend h
  obtain ⟨inner', y', hy', hvy'⟩ := (Way.down hw hs').extend h'
  obtain ⟨-, rfl⟩ := listed_once hr hvy hvy' rfl
  have hids := hy.unique hr hm hy'
  have hlength := congrArg List.length hids
  simp only [List.length_append, List.length_cons] at hlength
  have htail := (List.append_inj hids (by omega)).2
  exact Vertex.state.inj (listed_once hr hs hs' (List.cons.inj htail).1).1

/-- Trees of vertices that are listed side by side share no vertex. -/
theorem nodup_treeVertices (hw : r.Way m.id ids x)
    (hlisted : ∀ t ∈ trees, t.vertex ∈ (r.owned x).vertices)
    (hroots : (trees.map (·.vertex)).Nodup)
    (hinside : ∀ s children, .state s children ∈ trees → (treeVertices children).Nodup ∧
      ∀ v ∈ treeVertices children, r.Reaches s.id v) : (treeVertices trees).Nodup := by
  induction trees with
  | nil => simp [treeVertices]
  | cons t rest ih =>
    rw [List.map_cons, List.nodup_cons] at hroots
    have hlisted' : ∀ u ∈ rest, u.vertex ∈ (r.owned x).vertices :=
      fun u hu => hlisted u (List.mem_cons_of_mem _ hu)
    have hinside' : ∀ s children, .state s children ∈ rest → (treeVertices children).Nodup ∧
        ∀ v ∈ treeVertices children, r.Reaches s.id v :=
      fun s children hu => hinside s children (List.mem_cons_of_mem _ hu)
    have ht : t.vertex ∈ (r.owned x).vertices := hlisted t List.mem_cons_self
    have hrest := ih hlisted' hroots.2 hinside'
    have hroot : t.vertex ∉ treeVertices rest := by
      intro hmem
      rcases Model.mem_treeVertices.1 hmem with hmem | ⟨s, children, hu, hmem⟩
      · exact hroots.1 hmem
      · exact hw.not_beside hr hm (hlisted' _ hu) ht ((hinside' s children hu).2 _ hmem)
    cases t with
    | pseudo p =>
      rw [treeVertices, VertexTree.vertices, List.singleton_append, List.nodup_cons]
      exact ⟨hroot, hrest⟩
    | state s children =>
      obtain ⟨hnodup, hreached⟩ := hinside s children List.mem_cons_self
      rw [treeVertices, VertexTree.vertices, List.cons_append, List.nodup_cons, List.mem_append,
        List.nodup_append']
      refine ⟨not_or.2 ⟨fun hmem => ?_, hroot⟩, hnodup, hrest, fun v hv hv' => ?_⟩
      · exact hw.not_beside hr hm ht ht (hreached _ hmem)
      · rcases Model.mem_treeVertices.1 hv' with hv' | ⟨s', children', hu, hv'⟩
        · obtain ⟨u, hu, rfl⟩ := List.mem_map.1 hv'
          exact hw.not_beside hr hm ht (hlisted' u hu) (hreached _ hv)
        · have hss := hw.same_side hr hm ht (hlisted' _ hu) (hreached v hv)
            ((hinside' s' children' hu).2 v hv')
          subst hss
          exact hroots.1 (List.mem_map_of_mem (f := (·.vertex)) hu)

end

/-- **No vertex is listed twice** below a machine. -/
theorem Unfolds.nodup {r : Registry} {m : StateMachine} {x : String} {ids : List String}
    {trees : List VertexTree} (h : r.Unfolds x trees) (hr : r.Built)
    (hm : .stateMachine m ∈ r.elements) (hw : r.Way m.id ids x) : (treeVertices trees).Nodup := by
  induction h generalizing ids with
  | @intro x trees hlists hinside ih =>
    have hlisted : ∀ t ∈ trees, t.vertex ∈ (r.owned x).vertices := by
      intro t ht
      rw [← hlists]
      exact List.mem_map_of_mem ht
    refine nodup_treeVertices hr.wellNested hm hw hlisted ?_ fun s children ht => ⟨?_, ?_⟩
    · rw [hlists]
      exact (hr.vertices_nodup x).of_map _
    · exact ih s children ht (.down hw (hlisted _ ht))
    · exact fun v hv => (hinside s children ht).mem_treeVertices.1 hv

end Registry

end Model

namespace Lowering

open Model

/-! ## Levels -/

section
variable {r : Registry} {sm : StateMachine} {l c : Level} {s : State} {trees : List VertexTree}

/-- The levels inside a state stand among the levels nested around it. -/
theorem inside_subset {children : List VertexTree} (ht : .state s children ∈ trees)
    (hf : s.isFinal = false) (hne : children ≠ []) :
    l.inside s children :: nestedLevels (l.inside s children) children ⊆ nestedLevels l trees := by
  induction trees with
  | nil => cases ht
  | cons t rest ih =>
    intro c hc
    rcases List.mem_cons.1 ht with rfl | hrest
    · rw [nestedLevels, if_neg (by simp [hf, hne])]
      exact List.mem_append_left _ hc
    · cases t with
      | pseudo p =>
        rw [nestedLevels]
        exact ih hrest hc
      | state s' children' =>
        rw [nestedLevels]
        exact List.mem_append_right _ (ih hrest hc)

/-- Trees of what a level lists. -/
structure Unrolled (r : Registry) (l : Level) (trees : List VertexTree) : Prop where
  lists : trees.map (·.vertex) = l.vertices
  inside : ∀ s children, .state s children ∈ trees → r.Unfolds s.id children

theorem Unrolled.inside_eq (h : Unrolled r l trees) {children : List VertexTree}
    (ht : .state s children ∈ trees) :
    l.inside s children = l.insideOf r s ∧ Unrolled r (l.inside s children) children := by
  obtain ⟨hlists, hinside⟩ := h.inside s children ht
  refine ⟨?_, rfl, hinside⟩
  rw [Level.insideOf, ← hlists]
  rfl

/-- What is nested in a level that is nested in `l` is nested in `l`. -/
theorem Unrolled.nested (h : Unrolled r l trees) (hc : c ∈ nestedLevels l trees) :
    ∃ inner, Unrolled r c inner ∧ nestedLevels c inner ⊆ nestedLevels l trees := by
  obtain ⟨-, hinside⟩ := h
  induction l, trees using nestedLevels.induct with
  | case1 l => simp [nestedLevels] at hc
  | case2 l p rest ih =>
    rw [nestedLevels] at hc ⊢
    exact ih hc fun s children ht => hinside s children (List.mem_cons_of_mem _ ht)
  | case3 l s children rest ihin ihrest =>
    rw [nestedLevels] at hc ⊢
    rcases List.mem_append.1 hc with hc | hc
    · split_ifs at hc ⊢ with hskip
      · cases hc
      · obtain ⟨-, hbelow⟩ := hinside s children List.mem_cons_self
        rcases List.mem_cons.1 hc with rfl | hc
        · exact ⟨children, ⟨rfl, hbelow⟩, fun d hd =>
            List.mem_append_left _ (List.mem_cons_of_mem _ hd)⟩
        · obtain ⟨inner, hinner, hsub⟩ := ihin hc hbelow
          exact ⟨inner, hinner, fun d hd =>
            List.mem_append_left _ (List.mem_cons_of_mem _ (hsub hd))⟩
    · obtain ⟨inner, hinner, hsub⟩ :=
        ihrest hc fun s children ht => hinside s children (List.mem_cons_of_mem _ ht)
      exact ⟨inner, hinner, fun d hd => List.mem_append_right _ (hsub hd)⟩

/-- The inside of a state that a level of the machine lists is a level of the machine. -/
theorem insideOf_mem (h : r.Unfolds sm.id (r.machineTrees sm.id)) (hl : l ∈ levelsOf r sm)
    (hs : .state s ∈ l.vertices) (hf : s.isFinal = false) (hne : (r.owned s.id).vertices ≠ []) :
    l.insideOf r s ∈ levelsOf r sm := by
  have htop : Unrolled r (topLevel r sm) (r.machineTrees sm.id) := by
    obtain ⟨-, hinside⟩ := h
    exact ⟨rfl, hinside⟩
  rw [levelsOf_eq] at hl ⊢
  obtain ⟨trees, htrees, hsub⟩ : ∃ trees, Unrolled r l trees ∧
      nestedLevels l trees ⊆ nestedLevels (topLevel r sm) (r.machineTrees sm.id) := by
    rcases List.mem_cons.1 hl with rfl | hl
    · exact ⟨_, htop, fun _ hc => hc⟩
    · exact htop.nested hl
  rw [← htrees.lists, List.mem_map] at hs
  obtain ⟨t, ht, hts⟩ := hs
  cases t with
  | pseudo p => cases hts
  | state s' children =>
    cases hts
    have hchildren : children ≠ [] := by
      obtain ⟨hlists, -⟩ := htrees.inside s children ht
      rintro rfl
      exact hne hlists.symm
    rw [← (htrees.inside_eq ht).1]
    exact List.mem_cons_of_mem _ (hsub (inside_subset ht hf hchildren List.mem_cons_self))

/-- The states whose insides are levels of a machine. -/
def levelOwners (r : Registry) (sm : StateMachine) : List State :=
  (levelsOf r sm).tail.filterMap (·.owner)

theorem map_owner_levels (r : Registry) (sm : StateMachine) :
    (levelsOf r sm).map (·.owner) = none :: (levelOwners r sm).map some := by
  have hnested : ∀ (l : Level) (trees : List VertexTree),
      (nestedLevels l trees).map (·.owner) =
        ((nestedLevels l trees).filterMap (·.owner)).map some := by
    intro l trees
    induction l, trees using nestedLevels.induct with
    | case1 l => simp [nestedLevels]
    | case2 l p rest ih =>
      rw [nestedLevels]
      exact ih
    | case3 l s children rest ihin ihrest =>
      have howner : (l.inside s children).owner = some s := rfl
      rw [nestedLevels]
      split_ifs
      · simpa using ihrest
      · simp [howner, ihin, ihrest]
  rw [levelOwners, levelsOf_eq, List.map_cons, List.tail_cons, hnested]
  rfl

theorem mem_owners : s ∈ levelOwners r sm ↔ ∃ l ∈ levelsOf r sm, l.owner = some s := by
  have hmem : some s ∈ (levelsOf r sm).map (·.owner) ↔ s ∈ levelOwners r sm := by
    rw [map_owner_levels, List.mem_cons, List.mem_map]
    simp
  rw [← hmem, List.mem_map]

/-- Levels list states that are reached without a final state above them, and lie in such states. -/
theorem opens_of_level (hl : l ∈ levelsOf r sm)
    (htop : (topLevel r sm).vertices = (r.owned sm.id).vertices) :
    (∀ s, .state s ∈ l.vertices → r.Opens sm.id s) ∧
      ∀ s, l.owner = some s →
        r.Opens sm.id s ∧ s.isFinal = false ∧ (r.owned s.id).vertices ≠ [] := by
  refine levels_induction (P := fun l => (∀ s, .state s ∈ l.vertices → r.Opens sm.id s) ∧
    ∀ s, l.owner = some s →
      r.Opens sm.id s ∧ s.isFinal = false ∧ (r.owned s.id).vertices ≠ []) ?_ ?_ l hl
  · exact ⟨fun s hs => .listed (htop ▸ hs), fun s hs => by cases hs⟩
  · intro l s _ hs hf hne _ ih
    refine ⟨fun s' hs' => .deeper (ih.1 s hs) hf hs', ?_⟩
    rintro s' ⟨⟩
    exact ⟨ih.1 s hs, hf, hne⟩

/-- A state that is reached without a final state above it is listed in a level. -/
theorem listed_of_opens (h : r.Unfolds sm.id (r.machineTrees sm.id)) (hs : r.Opens sm.id s) :
    ∃ l ∈ levelsOf r sm, .state s ∈ l.vertices := by
  induction hs with
  | listed hs =>
    obtain ⟨hlists, -⟩ := h
    refine ⟨topLevel r sm, List.mem_cons_self, ?_⟩
    rw [topLevel, hlists]
    exact hs
  | @deeper s s' _ hf hs' ih =>
    obtain ⟨l, hl, hs⟩ := ih
    exact ⟨l.insideOf r s, insideOf_mem h hl hs hf (List.ne_nil_of_mem hs'), hs'⟩

variable (hr : r.Built) (hsm : .stateMachine sm ∈ r.elements)
include hr hsm

/-- A state has one inside among the levels. -/
theorem levelOwners_nodup : (levelOwners r sm).Nodup := by
  have howners : ((levelsOf r sm).map (·.owner)).Nodup := by
    refine (levelsOf_nodup hr hsm).map_on fun l hl l' hl' howner => ?_
    refine eq_of_ownerId hr.wellNested hsm hl hl' ?_
    rw [Level.ownerId, Level.ownerId, howner]
  rw [map_owner_levels, List.nodup_cons] at howners
  exact howners.2.of_map _

/-- Fewer levels lie around a level than there are. -/
theorem around_length_lt {ls : List (Level × State)} (h : (Machine.of r sm).Around l ls) :
    ls.length < (levelsOf r sm).length := by
  -- variables grow inwards, so those of the level and of the levels around it are distinct
  have hnames : ∀ {l ls}, (Machine.of r sm).Around l ls →
      l.variableName :: ls.map (·.1.variableName) ⊆
        (levelsOf r sm).map Level.variableName := by
    intro l ls h
    induction h with
    | top hl ho =>
      rw [List.map_nil, List.cons_subset]
      exact ⟨List.mem_map_of_mem hl, List.nil_subset _⟩
    | inside h hs hc ho ih =>
      rw [List.map_cons, List.cons_subset]
      exact ⟨List.mem_map_of_mem hc, ih⟩
  have hsorted := activeSettings_pairwise h.mem (.pseudo {})
  rw [Level.activeSettings, h.ascent_eq hr.wellNested hsm] at hsorted
  have hnodup : (l.variableName :: ls.map (·.1.variableName)).Nodup := by
    have hvars : ((⟨l.variableName, l.constant (.pseudo {})⟩ :: ls.map settingAt).map
        Setting.var).Nodup := by
      rw [List.Nodup, List.pairwise_map]
      refine hsorted.imp fun {a b} hlt he => ?_
      rw [he] at hlt
      exact lt_irrefl _ hlt
    rwa [List.map_cons, List.map_map] at hvars
  have hle := (hnodup.subperm (hnames h)).length_le
  rwa [List.length_cons, List.length_map, List.length_map] at hle

end

/-- What lies below a machine is a finite tree, and the levels of the machine are its inner nodes
    that no final state hides. -/
structure Unfolded (r : Registry) (sm : StateMachine) : Prop where
  /-- Following the lists of vertices down from the machine ends. -/
  ends : Acc r.Lists sm.id
  /-- The trees of the machine, on which checking, outlining and building levels work, are cut off
      nowhere. -/
  trees : r.Unfolds sm.id (r.machineTrees sm.id)
  reached : ∀ v, v ∈ treeVertices (r.machineTrees sm.id) ↔ r.Reaches sm.id v
  once : ((treeVertices (r.machineTrees sm.id)).map (·.id)).Nodup
  /-- There is one level for the machine, and one for every state with an inside that is not final
      and is reached without passing through a final state. -/
  levels : ∃ states : List State, states.Nodup ∧
    (levelsOf r sm).map (·.owner) = none :: states.map some ∧
      ∀ s, s ∈ states ↔ r.Opens sm.id s ∧ s.isFinal = false ∧ (r.owned s.id).vertices ≠ []
  /-- A level lists what its owner lists, and is the level of all of that. -/
  listed : ∀ l ∈ levelsOf r sm, l.vertices = (r.owned (l.ownerId sm)).vertices ∧
    ∀ v ∈ l.vertices, (Machine.of r sm).levelOf? v.id = some l
  /-- Setting a level anew goes inwards no further than there are levels. -/
  resets : ∀ l ∈ levelsOf r sm, ∀ depth, (levelsOf r sm).length ≤ depth →
    (Machine.of r sm).resetLevel r depth l = (Machine.of r sm).reset r l
  /-- From a level the levels around it lead to the top. -/
  climbs : ∀ l ∈ levelsOf r sm, ∃ ls, (Machine.of r sm).Around l ls ∧
    l.ascent = ls.map settingAt ∧ ls.length < (levelsOf r sm).length

/-- **Below a machine there is a finite tree**, whatever the parents of vertices are. -/
theorem machine_unfolds {r : Registry} {sm : StateMachine} (hr : r.Built)
    (hsm : .stateMachine sm ∈ r.elements) : Unfolded r sm := by
  have hnested := hr.wellNested
  have htrees : r.Unfolds sm.id (r.machineTrees sm.id) :=
    Registry.unfolds_vertexTrees hnested hsm (.top rfl) (Nat.le_add_right _ _)
  have hreached : ∀ v, v ∈ treeVertices (r.machineTrees sm.id) ↔ r.Reaches sm.id v :=
    fun v => htrees.mem_treeVertices
  have htop : (topLevel r sm).vertices = (r.owned sm.id).vertices := by
    obtain ⟨hlists, -⟩ := htrees
    exact hlists
  refine ⟨htrees.acc, htrees, hreached, ?_, ⟨levelOwners r sm, levelOwners_nodup hr hsm,
    map_owner_levels r sm, fun s => ⟨?_, ?_⟩⟩, fun l hl => ⟨vertices_eq hsm hl, fun v hv => ?_⟩,
    fun l hl depth hdepth => ?_, fun l hl => ?_⟩
  · -- vertices with one id are one element
    refine (htrees.nodup hr hsm (.top rfl)).map_on fun v hv w hw hid => ?_
    obtain ⟨-, x, -, hvx⟩ := Registry.Way.extend (m := sm) (.top rfl) ((hreached v).1 hv)
    obtain ⟨-, y, -, hwy⟩ := Registry.Way.extend (m := sm) (.top rfl) ((hreached w).1 hw)
    exact (Registry.listed_once hnested hvx hwy hid).1
  · intro hs
    obtain ⟨l, hl, howner⟩ := mem_owners.1 hs
    exact (opens_of_level hl htop).2 s howner
  · rintro ⟨hopen, hf, hne⟩
    obtain ⟨l, hl, hs⟩ := listed_of_opens htrees hopen
    exact mem_owners.2 ⟨l.insideOf r s, insideOf_mem htrees hl hs hf hne, rfl⟩
  · exact levelOf?_eq hnested hsm hl hv
  · have hrank := nestingRank_le (.of r sm) l
    exact resetLevel_congr hnested hsm hl _ _ (hrank.trans hdepth) hrank
  · obtain ⟨ls, hls⟩ := exists_around hl
    exact ⟨ls, hls, hls.ascent_eq hnested hsm, around_length_lt hr hsm hls⟩

/-- The machine of a lift. -/
def liftMachine : StateMachine := { id := "lift", name := "Lift", parent := "cab" }

/-- A lift whose states lie in each other, with doors that lie in each other in a circle, a door
    that lies in its cab, and a final state with an inside. -/
def lift : Registry := { elements := [
  .state { id := "open", name := "Open", parent := "shut" },
  .state { id := "shut", name := "Shut", parent := "open" },
  .state { id := "ajar", name := "Ajar", parent := "cab" },
  .state { id := "fast", name := "Fast", parent := "up" },
  .pseudoState { id := "first", parent := "up", pseudoKind := .initial },
  .state { id := "up", name := "Up", parent := "lift" },
  .state { id := "broken", name := "Broken", parent := "lift", isFinal := true },
  .state { id := "hot", name := "Hot", parent := "broken" },
  .state { id := "red", name := "Red", parent := "hot" },
  .stateMachine liftMachine,
  .classifier { id := "cab", name := "Cab" }] }

theorem lift_unfolds :
    ((treeVertices (lift.prepare.machineTrees liftMachine.id)).map (·.id) =
        ["up", "fast", "first", "broken", "hot", "red"] ∧
      (levelOwners lift.prepare liftMachine).map (·.id) = ["up"] ∧
      (lift.prepare.owned "open").vertices.map (·.id) = ["shut"] ∧
      (lift.prepare.owned "shut").vertices.map (·.id) = ["open"]) ∧
    .stateMachine liftMachine ∈ lift.prepare.elements ∧ Unfolded lift.prepare liftMachine := by
  have hmem : .stateMachine liftMachine ∈ lift.prepare.elements := by decide +kernel
  have hbuilt : lift.prepare.Built := .prepare (.loaded (by decide))
  have hlevels : (levelOwners lift.prepare liftMachine).map (·.id) = ["up"] := by
    have htrees : lift.prepare.machineTrees liftMachine.id = [.state _ [.state _ [], .pseudo _],
        .state _ [.state _ [.state _ []]]] := rfl
    rw [levelOwners, levelsOf_eq, htrees]
    simp only [nestedLevels]
    rfl
  exact ⟨⟨by decide +kernel, hlevels, by decide +kernel, by decide +kernel⟩, hmem,
    machine_unfolds hbuilt hmem⟩

end Lowering

end ObjectLowering
