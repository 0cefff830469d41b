/-
  The names of the levels of a class, and of their enumerators.

  A level is named by the identifiers of its machine and of the composite
  states around it, joined by `_`; its path joins the same identifiers by
  dots.  When the id of a level is claimed, the path stands for the owner.

  * `levelsOf_nodup`: no level is listed twice.
  * `paths_nodup_iff`: paths are distinct iff identifiers are, of machines and
    of the composite states that stand side by side.
  * `enumerators_nodup_iff`: what it takes for enumerators to be distinct.
  * `lowerClass_level_names`: a class is lowered only if levels of one name
    have one path.  Paths that are the same are not noticed, and enumerators
    are not looked at (`hangar_doors_share_names`).
-/
import ObjectLowering.Proofs.Completion
import ObjectLowering.Proofs.Locations

namespace ObjectLowering

namespace Code

open Text

theorem IsIdentifier.append {a b : String} (h : IsIdentifier a)
    (hb : ∀ c ∈ b.toList, isNameChar c = true) : IsIdentifier (a ++ b) := by
  obtain ⟨c, cs, hs, hd⟩ := h.head
  refine ⟨fun x hx => ?_, c, cs ++ b.toList, by rw [String.toList_append, hs]; rfl, hd⟩
  rw [String.toList_append, List.mem_append] at hx
  exact hx.elim (h.chars x) (hb x)

/-- Two identifiers joined by `_` are an identifier. -/
theorem IsIdentifier.join {a b : String} (h : IsIdentifier a) (hb : IsIdentifier b) :
    IsIdentifier (a ++ "_" ++ b) :=
  (h.append fun c hc => by rw [show c = '_' by simpa using hc]; rfl).append hb.chars

theorem IsIdentifier.no_dot {a : String} (h : IsIdentifier a) : '.' ∉ a.toList := by
  intro hm
  have hdot : isNameChar '.' = false := by decide +kernel
  exact absurd (h.chars '.' hm) (by simp [hdot])

end Code

namespace Model.Registry

/-- The vertices below an owner are listed once. -/
theorem Built.vertices_nodup {r : Registry} (h : r.Built) (x : String) :
    ((r.owned x).vertices.map (·.id)).Nodup := by
  induction h with
  | loaded => exact List.nodup_nil
  | add _ ha ih =>
    obtain ⟨-, rfl⟩ := add_eq_ok ha
    exact ih
  | @prepare r h ih =>
    have hids := h.prepare.ids_nodup
    unfold Registry.prepare at hids ⊢
    split_ifs at hids ⊢
    · exact ih
    · rw [owned, linkAll_vertices]
      refine filterMap_ids_nodup hids fun y v hv => ?_
      rw [(vertexIn_eq_some hv).1, v.element_id]

end Model.Registry

namespace Lowering

open Model Code Text

section
variable {r : Registry} {sm : StateMachine} {l l' : Level} {s : State}

/-! ## Names and paths -/

theorem isIdentifier_topLevel (r : Registry) (sm : StateMachine) :
    IsIdentifier (topLevel r sm).name := by
  have hname : (topLevel r sm).name = if isBlankText sm.name then "Machine" else ident sm.name :=
    rfl
  rw [hname]
  split_ifs
  · exact ⟨List.all_eq_true.1 (by decide +kernel), 'M', "achine".toList, rfl, by decide⟩
  · exact isIdentifier_ident _

/-- The name of a level is an identifier. -/
theorem isIdentifier_name (hl : l ∈ levelsOf r sm) : IsIdentifier l.name := by
  refine levels_induction (P := fun l => IsIdentifier l.name) (isIdentifier_topLevel r sm) ?_ l hl
  intro l s _ _ _ _ _ ih
  exact ih.join (isIdentifier_ident s.name)

/-- The name of a level is its path with `_` for the dots. -/
theorem name_eq_of_path (hl : l ∈ levelsOf r sm) :
    l.name.toList = l.path.toList.map fun c => if c = '.' then '_' else c := by
  have hkept : ∀ {a : String}, IsIdentifier a →
      a.toList = a.toList.map fun c => if c = '.' then '_' else c := by
    intro a ha
    refine (List.map_congr_left fun c hc => if_neg fun he => ?_).trans (List.map_id _) |>.symm
    exact ha.no_dot (he ▸ hc)
  refine levels_induction (P := fun l => l.name.toList = l.path.toList.map fun c =>
    if c = '.' then '_' else c) (hkept (isIdentifier_topLevel r sm)) ?_ l hl
  intro l s _ _ _ _ _ ih
  have hname : (l.insideOf r s).name = l.name ++ "_" ++ ident s.name := rfl
  have hpath : (l.insideOf r s).path = l.path ++ "." ++ ident s.name := rfl
  rw [hname, hpath]
  simp only [String.toList_append, List.map_append, ← ih, ← hkept (isIdentifier_ident s.name)]
  rfl

/-! ## Levels are listed once -/

/-- The chain of a level inside `s`, or nested there, leads through `s`. -/
theorem around_of_inside {children : List VertexTree} {ls : List (Level × State)}
    (hl : (Machine.of r sm).Around l ls) (hs : .state s ∈ l.vertices)
    (hchildren : ∃ d, children = r.vertexTrees d s.id)
    (hsub : ∀ c ∈ l.inside s children :: nestedLevels (l.inside s children) children,
      c ∈ levelsOf r sm) :
    ∀ c ∈ l.inside s children :: nestedLevels (l.inside s children) children,
      ∃ inner, (Machine.of r sm).Around c (inner ++ (l, s) :: ls) := by
  have hin : l.inside s children ∈ levelsOf r sm := hsub _ List.mem_cons_self
  have hinside : ∃ inner, (Machine.of r sm).Around (l.inside s children) (inner ++ (l, s) :: ls) :=
    ⟨[], .inside hl hs hin rfl⟩
  obtain ⟨d, rfl⟩ := hchildren
  refine List.forall_mem_cons.2 ⟨hinside, ?_⟩
  refine nestedLevels_induction (L := levelsOf r sm) ?_ hin hinside
    (fun t ht => List.mem_map_of_mem ht) (fun s' children' h => mem_vertexTrees h)
    fun c hc => hsub c (List.mem_cons_of_mem _ hc)
  rintro l' s' - hs' - - hc ⟨inner, ha⟩
  exact ⟨(l', s') :: inner, .inside ha hs' hc rfl⟩

/-- The chain of a level that is nested in `l` leads through a state of `l`. -/
theorem around_of_nested {trees : List VertexTree} {ls : List (Level × State)}
    (hl : (Machine.of r sm).Around l ls) (hlisted : ∀ t ∈ trees, t.vertex ∈ l.vertices)
    (htrees : ∀ s children, .state s children ∈ trees → ∃ d, children = r.vertexTrees d s.id)
    (hsub : ∀ c ∈ nestedLevels l trees, c ∈ levelsOf r sm) :
    ∀ c ∈ nestedLevels l trees, ∃ s inner, .state s ∈ trees.map (·.vertex) ∧
      (Machine.of r sm).Around c (inner ++ (l, s) :: ls) := by
  induction trees with
  | nil => simp [nestedLevels]
  | cons t trees ih =>
    have hrest : (∀ c ∈ nestedLevels l trees, c ∈ levelsOf r sm) →
        ∀ c ∈ nestedLevels l trees, ∃ s inner, .state s ∈ (t :: trees).map (·.vertex) ∧
          (Machine.of r sm).Around c (inner ++ (l, s) :: ls) := by
      intro hsub c hc
      obtain ⟨s, inner, hs, ha⟩ := ih (fun t ht => hlisted t (List.mem_cons_of_mem _ ht))
        (fun s children h => htrees s children (List.mem_cons_of_mem _ h)) hsub c hc
      exact ⟨s, inner, List.mem_cons_of_mem _ hs, ha⟩
    cases t with
    | pseudo p =>
      rw [nestedLevels] at hsub ⊢
      exact hrest hsub
    | state s children =>
      rw [nestedLevels] at hsub ⊢
      intro c hc
      rcases List.mem_append.1 hc with hc | hc
      · split_ifs at hc hsub
        · cases hc
        · obtain ⟨inner, ha⟩ := around_of_inside hl (hlisted _ List.mem_cons_self)
            (htrees s children List.mem_cons_self)
            (fun c hc => hsub c (List.mem_append_left _ hc)) c hc
          exact ⟨s, inner, List.mem_cons_self, ha⟩
      · exact hrest (fun c hc => hsub c (List.mem_append_right _ hc)) c hc

variable (hr : r.Built)
include hr

theorem vertexTrees_nodup (d : Nat) (x : String) :
    ((r.vertexTrees d x).map (·.vertex)).Nodup := by
  cases d with
  | zero => exact List.nodup_nil
  | succ d => rw [vertexTrees_vertices]; exact (hr.vertices_nodup x).of_map _

variable (hsm : .stateMachine sm ∈ r.elements)
include hsm

/-- A level has one chain of levels around it. -/
theorem Machine.Around.unique {ls ls' : List (Level × State)} (h : (Machine.of r sm).Around l ls)
    (h' : (Machine.of r sm).Around l ls') : ls = ls' := by
  induction h generalizing ls' with
  | top hl ho =>
    cases h' with
    | top => rfl
    | inside _ _ _ ho' => rw [ho] at ho'; cases ho'
  | @inside l c s ls h hs hc ho ih =>
    cases h' with
    | top _ ho' => rw [ho] at ho'; cases ho'
    | @inside l' _ s' ls' h' hs' _ ho' =>
      obtain rfl := Option.some.inj (ho.symm.trans ho')
      obtain ⟨rfl, -⟩ := eq_of_listed hr.wellNested hsm h.mem h'.mem hs hs' rfl
      rw [ih h']

theorem nestedLevels_nodup {trees : List VertexTree} {ls : List (Level × State)}
    (hl : (Machine.of r sm).Around l ls) (hlisted : ∀ t ∈ trees, t.vertex ∈ l.vertices)
    (htrees : ∀ s children, .state s children ∈ trees → ∃ d, children = r.vertexTrees d s.id)
    (hroots : (trees.map (·.vertex)).Nodup)
    (hsub : ∀ c ∈ nestedLevels l trees, c ∈ levelsOf r sm) : (nestedLevels l trees).Nodup := by
  induction l, trees using nestedLevels.induct generalizing ls with
  | case1 l => simp [nestedLevels]
  | case2 l p rest ih =>
    rw [nestedLevels] at hsub ⊢
    exact ih hl (fun t ht => hlisted t (List.mem_cons_of_mem _ ht))
      (fun s children h => htrees s children (List.mem_cons_of_mem _ h)) hroots.of_cons hsub
  | case3 l s children rest ihin ihrest =>
    rw [List.map_cons, List.nodup_cons] at hroots
    have hlisted' : ∀ t ∈ rest, t.vertex ∈ l.vertices :=
      fun t ht => hlisted t (List.mem_cons_of_mem _ ht)
    have htrees' : ∀ s children, .state s children ∈ rest → ∃ d, children = r.vertexTrees d s.id :=
      fun s children h => htrees s children (List.mem_cons_of_mem _ h)
    rw [nestedLevels] at hsub ⊢
    have hsubrest : ∀ c ∈ nestedLevels l rest, c ∈ levelsOf r sm :=
      fun c hc => hsub c (List.mem_append_right _ hc)
    have hrest : (nestedLevels l rest).Nodup := ihrest hl hlisted' htrees' hroots.2 hsubrest
    split_ifs at hsub ⊢
    · exact hrest
    · have hsubin : ∀ c ∈ l.inside s children :: nestedLevels (l.inside s children) children,
          c ∈ levelsOf r sm := fun c hc => hsub c (List.mem_append_left _ hc)
      have hinside : (Machine.of r sm).Around (l.inside s children) ((l, s) :: ls) :=
        .inside hl (hlisted _ List.mem_cons_self) (hsubin _ List.mem_cons_self) rfl
      have hbelow := around_of_inside hl (hlisted _ List.mem_cons_self)
        (htrees s children List.mem_cons_self) hsubin
      obtain ⟨d, rfl⟩ := htrees s children List.mem_cons_self
      have hnested := fun c hc => hsubin c (List.mem_cons_of_mem _ hc)
      refine List.nodup_append'.2 ⟨List.nodup_cons.2 ⟨fun hc => ?_, ?_⟩, hrest, fun c hc hc' => ?_⟩
      · -- the chain of a level further inside is longer
        obtain ⟨s', inner, -, ha⟩ := around_of_nested hinside
          (fun t ht => List.mem_map_of_mem ht) (fun s' children' h => mem_vertexTrees h)
          hnested _ hc
        have hlength := congrArg List.length (ha.unique hr hsm hinside)
        simp only [List.length_append, List.length_cons] at hlength
        omega
      · exact ihin hinside (fun t ht => List.mem_map_of_mem ht)
          (fun s' children' h => mem_vertexTrees h) (vertexTrees_nodup hr d s.id) hnested
      · -- chains through different states of a level differ
        obtain ⟨s', inner', hs', ha'⟩ := around_of_nested hl hlisted' htrees' hsubrest c hc'
        obtain ⟨inner, ha⟩ := hbelow c hc
        have heq := ha.unique hr hsm ha'
        have hlength := congrArg List.length heq
        simp only [List.length_append, List.length_cons] at hlength
        have hss := (List.append_inj heq (by omega)).2
        simp only [List.cons.injEq, Prod.mk.injEq, and_true, true_and] at hss
        exact hroots.1 (hss ▸ hs')

/-- **No level is listed twice.** -/
theorem levelsOf_nodup : (levelsOf r sm).Nodup := by
  have hnested : ∀ c ∈ nestedLevels (topLevel r sm) (r.machineTrees sm.id), c ∈ levelsOf r sm :=
    fun c hc => List.mem_cons_of_mem _ hc
  have htop : (Machine.of r sm).Around (topLevel r sm) [] := .top List.mem_cons_self rfl
  have hlisted : ∀ t ∈ r.machineTrees sm.id, t.vertex ∈ (topLevel r sm).vertices :=
    fun t ht => List.mem_map_of_mem ht
  rw [levelsOf_eq]
  refine List.nodup_cons.2 ⟨fun hc => ?_, nestedLevels_nodup hr hsm htop hlisted
    (fun s children h => mem_vertexTrees h) (vertexTrees_nodup hr _ _) hnested⟩
  obtain ⟨s, inner, -, ha⟩ := around_of_nested htop hlisted (fun s children h => mem_vertexTrees h)
    hnested _ hc
  exact absurd (ha.unique hr hsm htop) (by simp)

/-! ## Paths -/

omit hr hsm in
theorem path_topLevel_no_dot (r : Registry) (sm : StateMachine) :
    '.' ∉ (topLevel r sm).path.toList :=
  (isIdentifier_topLevel r sm).no_dot

/-- Two composite states of one level have different identifiers. -/
def Level.CompositesApart (l : Level) (m : Machine) : Prop :=
  ∀ s s', .state s ∈ l.vertices → .state s' ∈ l.vertices → (m.inner? s.id).isSome →
    (m.inner? s'.id).isSome → ident s.name = ident s'.name → s = s'

/-- The paths of the levels of a machine are distinct iff composite states side by side have
    different identifiers. -/
theorem machine_paths_nodup_iff :
    ((levelsOf r sm).map (·.path)).Nodup ↔
      ∀ l ∈ levelsOf r sm, l.CompositesApart (Machine.of r sm) := by
  have hn := hr.wellNested
  rw [List.nodup_map_iff_inj_on (levelsOf_nodup hr hsm)]
  constructor
  · intro hinj l hl s s' hs hs' hi hi' hname
    obtain ⟨c, hc⟩ := Option.isSome_iff_exists.1 hi
    obtain ⟨c', hc'⟩ := Option.isSome_iff_exists.1 hi'
    obtain ⟨hmem, rfl, -⟩ := inner?_eq_some hn hsm hl hs hc
    obtain ⟨hmem', rfl, -⟩ := inner?_eq_some hn hsm hl hs' hc'
    have hpath : (l.insideOf r s).path = (l.insideOf r s').path := by
      have hp : ∀ x, (l.insideOf r x).path = l.path ++ "." ++ ident x.name := fun _ => rfl
      rw [hp, hp, hname]
    have howner := congrArg Level.owner (hinj _ hmem _ hmem' hpath)
    exact Option.some.inj howner
  · intro happart l hl
    refine levels_induction (P := fun l => ∀ l' ∈ levelsOf r sm, l.path = l'.path → l = l')
      ?_ ?_ l hl
    · intro l' hl' hpath
      rcases levels_cases hl' with rfl | ⟨p, s, -, -, -, rfl⟩
      · rfl
      · refine absurd ?_ (path_topLevel_no_dot r sm)
        rw [hpath]
        simp [Level.insideOf, Level.inside]
    · intro l s hl hs hf _ hin ih l' hl' hpath
      rcases levels_cases hl' with rfl | ⟨p, s', hp, hs', hf', rfl⟩
      · refine absurd ?_ (path_topLevel_no_dot r sm)
        rw [← hpath]
        simp [Level.insideOf, Level.inside]
      · have hp' : l.path ++ "." ++ ident s.name = p.path ++ "." ++ ident s'.name := hpath
        have hname := suffix_of_no_dot (isIdentifier_ident _).no_dot (isIdentifier_ident _).no_dot
          hp'
        rw [hname] at hp'
        have houter : l.path = p.path := by
          simpa only [← String.toList_inj, String.toList_append, List.append_cancel_right_eq]
            using hp'
        obtain rfl := ih p hp houter
        have hss : s = s' := happart l hl s s' hs hs'
          (by rw [inner?_eq_of_owner hn hsm hin rfl]; rfl)
          (by rw [inner?_eq_of_owner hn hsm hl' rfl]; rfl) hname
        rw [hss]

end

/-! ## The levels of a class -/

/-- The levels of all machines of a class, machine by machine. -/
def classLevels (r : Registry) (c : Classifier) : List Level :=
  (r.owned c.id).machines.flatMap (levelsOf r)

/-- The machines of a class have different identifiers, and so have the composite states of every
    level. -/
structure NamedApart (r : Registry) (c : Classifier) : Prop where
  machines : ((r.owned c.id).machines.map fun sm => (topLevel r sm).name).Nodup
  states : ∀ sm ∈ (r.owned c.id).machines, ∀ l ∈ levelsOf r sm,
    l.CompositesApart (Machine.of r sm)

section
variable {r : Registry} {c : Classifier} {l l' : Level}

theorem takeWhile_append_dot (p q : List Char) :
    (p ++ '.' :: q).takeWhile (· != '.') = p.takeWhile (· != '.') := by
  induction p with
  | nil => rfl
  | cons c p ih =>
    by_cases hc : c = '.'
    · simp [hc]
    · simp [hc, ih]

/-- A path begins with the name of the top level. -/
theorem path_takeWhile {sm : StateMachine} (hl : l ∈ levelsOf r sm) :
    l.path.toList.takeWhile (· != '.') = (topLevel r sm).name.toList := by
  refine levels_induction (P := fun l => l.path.toList.takeWhile (· != '.') =
    (topLevel r sm).name.toList) ?_ ?_ l hl
  · refine List.takeWhile_eq_self_iff.2 fun x hx => bne_iff_ne.2 fun he => ?_
    exact path_topLevel_no_dot r sm (he ▸ hx)
  · intro l s _ _ _ _ _ ih
    have hpath : (l.insideOf r s).path.toList = l.path.toList ++ '.' :: (ident s.name).toList := by
      simp [Level.insideOf, Level.inside]
    rw [hpath, takeWhile_append_dot, ih]

/-- **The paths of the levels of a class are distinct** iff machines, and composite states side by
    side, have different identifiers. -/
theorem paths_nodup_iff (hr : r.Built) :
    ((classLevels r c).map (·.path)).Nodup ↔ NamedApart r c := by
  have hmachine : ∀ sm ∈ (r.owned c.id).machines, .stateMachine sm ∈ r.elements :=
    hr.wellNested.machines c.id
  have hdisjoint : ∀ sm sm' : StateMachine,
      List.Disjoint ((levelsOf r sm).map (·.path)) ((levelsOf r sm').map (·.path)) ↔
        (topLevel r sm).name ≠ (topLevel r sm').name := by
    refine fun sm sm' => ⟨fun h he => ?_, fun hne p hp hp' => ?_⟩
    · have htop : ∀ sm, (topLevel r sm).name ∈ (levelsOf r sm).map (·.path) :=
        fun sm => List.mem_map.2 ⟨topLevel r sm, List.mem_cons_self, rfl⟩
      exact h (htop sm) (he ▸ htop sm')
    · obtain ⟨l, hl, rfl⟩ := List.mem_map.1 hp
      obtain ⟨l', hl', hpath⟩ := List.mem_map.1 hp'
      refine hne (String.toList_inj.1 ?_)
      rw [← path_takeWhile hl, ← path_takeWhile hl', hpath]
  rw [classLevels, List.map_flatMap, List.nodup_flatMap]
  constructor
  · rintro ⟨hin, hpair⟩
    refine ⟨?_, fun sm hsm => (machine_paths_nodup_iff hr (hmachine sm hsm)).1 (hin sm hsm)⟩
    rw [List.Nodup, List.pairwise_map]
    exact hpair.imp fun h => (hdisjoint _ _).1 h
  · rintro ⟨hnames, hstates⟩
    refine ⟨fun sm hsm => (machine_paths_nodup_iff hr (hmachine sm hsm)).2 (hstates sm hsm), ?_⟩
    rw [List.Nodup, List.pairwise_map] at hnames
    exact hnames.imp fun h => (hdisjoint _ _).2 h

theorem mem_classLevels :
    l ∈ classLevels r c ↔ ∃ sm ∈ (r.owned c.id).machines, l ∈ levelsOf r sm := List.mem_flatMap

/-- Levels of one path have one name. -/
theorem name_eq_of_path_eq (hl : l ∈ classLevels r c) (hl' : l' ∈ classLevels r c)
    (h : l.path = l'.path) : l.name = l'.name := by
  obtain ⟨sm, -, hl⟩ := mem_classLevels.1 hl
  obtain ⟨sm', -, hl'⟩ := mem_classLevels.1 hl'
  rw [← String.toList_inj, name_eq_of_path hl, name_eq_of_path hl', h]

/-- The claims of a class: its features, its levels, and what its structs hold. -/
theorem classClaims_eq (r : Registry) (stems : Stems) (c : Classifier) :
    classClaims r stems c = claimsOf (flatten r c stems.feature) ++
      (classLevels r c).map (fun l => (keyOf stems.state l.name, "state machine " ++ l.path)) ++
      (survey r c (.ofFlattened (flatten r c stems.feature))).claims := by
  simp only [classClaims, Plan.claims, Plan.of, Plan.machineClaims, classLevels, List.map_append,
    List.map_map, List.map_flatMap, List.flatMap_map]
  exact congrArg₂ (· ++ ·) (congrArg (· ++ _) (List.map_id _)) (List.map_id _)

/-- Once the claims of a class are granted, levels of one key have one path. -/
theorem path_eq_of_key {stems : Stems} {t t' : IdTable}
    (hgranted : t.Granted t' c.id (classClaims r stems c)) (hl : l ∈ classLevels r c)
    (hl' : l' ∈ classLevels r c) (h : keyOf stems.state l.name = keyOf stems.state l'.name) :
    l.path = l'.path := by
  have hclaim : ∀ l ∈ classLevels r c,
      (keyOf stems.state l.name, "state machine " ++ l.path) ∈ classClaims r stems c := by
    intro l hl
    rw [classClaims_eq]
    exact List.mem_append_left _ (List.mem_append_right _ (List.mem_map.2 ⟨l, hl, rfl⟩))
  have hne : ∀ p : String, "state machine " ++ p ≠ "" := by
    intro p he
    have := congrArg String.length he
    simp at this
  have hclaim' := hclaim l' hl'
  rw [← h] at hclaim'
  have howner := hgranted.owner_eq (hclaim l hl) hclaim' (hne _) (hne _)
  simpa only [← String.toList_inj, String.toList_append, List.append_cancel_left_eq] using howner

end

/-! ## Enumerators -/

namespace Level

/-- What the name of a level is continued by in its enumerators. -/
def suffixes (l : Level) : List String :=
  (l.vertices.filterMap fun
    | .state s => if s.isFinal then none else some (ident s.name)
    | .pseudo p =>
      if l.isInitial p then some (ident (if isBlankText p.name then "Initial" else p.name))
      else none) ++
  ["COUNT", "UNSET", "TERMINAL"] ++
  l.vertices.filterMap fun
    | .state s => if s.isFinal then some (ident s.name) else none
    | .pseudo _ => none

/-- An enumerator of a level reads like one of a level with a longer name. -/
def Clashes (l l' : Level) : Prop :=
  ∃ d, l'.name = l.name ++ "_" ++ d ∧ ∃ b ∈ l'.suffixes, d ++ "_" ++ b ∈ l.suffixes

theorem enumerators_eq_suffixes (l : Level) :
    l.enumerators.map (·.1) = l.suffixes.map (l.name ++ "_" ++ ·) := by
  have hordinals : l.ordinals = (l.vertices.filterMap fun
      | .state s => if s.isFinal then none else some (ident s.name)
      | .pseudo p =>
        if l.isInitial p then some (ident (if isBlankText p.name then "Initial" else p.name))
        else none).map (l.name ++ "_" ++ ·) := by
    rw [ordinals, List.map_filterMap]
    refine congrArg (List.filterMap · l.vertices) (funext fun v => ?_)
    cases v with
    | state s => by_cases hf : s.isFinal <;> simp [hf, stateConstant]
    | pseudo p => by_cases hp : l.isInitial p <;> simp [hp, initialConstant]
  have hfinals : l.finals = (l.vertices.filterMap fun
      | .state s => if s.isFinal then some (ident s.name) else none
      | .pseudo _ => none).map (l.name ++ "_" ++ ·) := by
    rw [finals, List.map_filterMap]
    refine congrArg (List.filterMap · l.vertices) (funext fun v => ?_)
    cases v with
    | state s => by_cases hf : s.isFinal <;> simp [hf, stateConstant]
    | pseudo p => rfl
  have hreserved : [l.count, l.unset, l.terminal] =
      ["COUNT", "UNSET", "TERMINAL"].map (l.name ++ "_" ++ ·) := by
    simp [count, unset, terminal, ← String.toList_inj]
  rw [l.enumerators_names, suffixes, List.map_append, List.map_append, hordinals, hreserved,
    hfinals]

end Level

theorem joined_cases {n n' a b : String} (h : n ++ "_" ++ a = n' ++ "_" ++ b) :
    (n = n' ∧ a = b) ∨ (∃ d, n' = n ++ "_" ++ d ∧ a = d ++ "_" ++ b) ∨
      ∃ d, n = n' ++ "_" ++ d ∧ b = d ++ "_" ++ a := by
  have hdash : ("_" : String).toList = ['_'] := rfl
  simp only [← String.toList_inj, String.toList_append, hdash, List.append_assoc,
    List.singleton_append] at h ⊢
  have longer : ∀ {m m' x y : List Char} (d : List Char), m' = m ++ d →
      '_' :: x = d ++ '_' :: y → (m = m' ∧ x = y) ∨
        ∃ d : String, m' = m ++ '_' :: d.toList ∧ x = d.toList ++ '_' :: y := by
    rintro m m' x y (- | ⟨c, d⟩) hm hx
    · exact Or.inl ⟨by simp [hm], (List.cons.inj hx).2⟩
    · obtain ⟨rfl, rfl⟩ := List.cons.inj hx
      exact Or.inr ⟨String.ofList d, by simp [hm], by simp⟩
  rcases List.append_eq_append_iff.1 h with ⟨d, hn, ha⟩ | ⟨d, hn, hb⟩
  · rcases longer d hn ha with h | h
    · exact Or.inl h
    · exact Or.inr (Or.inl h)
  · rcases longer d hn hb with h | h
    · exact Or.inl ⟨h.1.symm, h.2.symm⟩
    · exact Or.inr (Or.inr h)

/-- **The enumerators of levels are distinct** iff the names of the levels are, the enumerators of
    every level are, and none reads like one of a level with a longer name. -/
theorem enumerators_nodup_iff (ls : List Level) :
    ((ls.flatMap Level.enumerators).map (·.1)).Nodup ↔
      (ls.map (·.name)).Nodup ∧ (∀ l ∈ ls, l.suffixes.Nodup) ∧
        ∀ l ∈ ls, ∀ l' ∈ ls, ¬ l.Clashes l' := by
  have hlevel : ∀ l : Level, (l.enumerators.map (·.1)).Nodup ↔ l.suffixes.Nodup := by
    intro l
    rw [l.enumerators_eq_suffixes]
    refine List.nodup_map_iff fun a b h => ?_
    simpa only [← String.toList_inj, String.toList_append, List.append_cancel_left_eq] using h
  have hcount : ∀ l : Level, l.name ++ "_" ++ "COUNT" ∈ l.enumerators.map (·.1) := by
    intro l
    rw [l.enumerators_eq_suffixes]
    exact List.mem_map.2 ⟨_, by simp [Level.suffixes], rfl⟩
  have hnames : (ls.map (·.name)).Nodup ↔ ls.Pairwise fun l l' => l.name ≠ l'.name :=
    List.pairwise_map
  rw [List.map_flatMap, List.nodup_flatMap, hnames]
  constructor
  · rintro ⟨hin, hpair⟩
    refine ⟨hpair.imp fun {l l'} h he => ?_, fun l hl => (hlevel l).1 (hin l hl), ?_⟩
    · have hc := hcount l'
      rw [← he] at hc
      exact h (hcount l) hc
    · rintro l hl l' hl' ⟨d, hname, b, hb, ha⟩
      have hne : l ≠ l' := by
        rintro rfl
        have hlength := congrArg List.length (String.toList_inj.2 hname)
        simp at hlength
      have : Std.Symm (Function.onFun List.Disjoint fun l : Level => l.enumerators.map (·.1)) :=
        ⟨fun _ _ h _ he he' => h he' he⟩
      have he : l'.name ++ "_" ++ b ∈ l.enumerators.map (·.1) := by
        rw [l.enumerators_eq_suffixes, hname]
        exact List.mem_map.2 ⟨_, ha, by simp only [String.append_assoc]⟩
      have he' : l'.name ++ "_" ++ b ∈ l'.enumerators.map (·.1) := by
        rw [l'.enumerators_eq_suffixes]
        exact List.mem_map.2 ⟨_, hb, rfl⟩
      exact hpair.forall hl hl' hne he he'
  · rintro ⟨hpair, hsuffixes, hclash⟩
    refine ⟨fun l hl => (hlevel l).2 (hsuffixes l hl), ?_⟩
    refine hpair.imp_of_mem fun {l l'} hl hl' hne e he he' => ?_
    simp only [Level.enumerators_eq_suffixes, List.mem_map] at he he'
    obtain ⟨a, ha, rfl⟩ := he
    obtain ⟨b, hb, heq⟩ := he'
    rcases joined_cases heq with ⟨hn, -⟩ | ⟨d, hd, rfl⟩ | ⟨d, hd, rfl⟩
    · exact hne hn.symm
    · exact hclash l' hl' l hl ⟨d, hd, a, ha, hb⟩
    · exact hclash l hl l' hl' ⟨d, hd, b, hb, ha⟩

/-! ## Lowered classes -/

theorem nodup_map_congr {α β γ : Type} {xs : List α} {f : α → β} {g : α → γ}
    (h : ∀ x ∈ xs, ∀ y ∈ xs, f x = f y ↔ g x = g y) : (xs.map f).Nodup ↔ (xs.map g).Nodup := by
  rw [List.Nodup, List.Nodup, List.pairwise_map, List.pairwise_map]
  exact List.Pairwise.iff_of_mem fun hx hy => not_congr (h _ hx _ hy)

/-- **Names of levels and of enumerators.**  Levels with one key and different paths are refused.
    In a class that is lowered, the names of the levels, their variables, keys, case labels and step
    functions are all distinct iff the machines and the composite states side by side have different
    identifiers.  The enumerators are distinct iff, moreover, those of every level are and none
    reads like one of a level with a longer name. -/
theorem lowerClass_level_names {r : Registry} {hash : String → UInt64} {ops : List IdOperation}
    {feature state : String} {stems : Stems} {c : Classifier} {p : Plan} (hr : r.Built)
    (hs : stems = .ofTexts feature state) (hf : family r c = .simObject)
    (hp : p = .of r stems c) :
    (∀ l ∈ classLevels r c, ∀ l' ∈ classLevels r c,
      keyOf stems.state l.name = keyOf stems.state l'.name → l.path ≠ l'.path →
        ∃ t e, lowerClass r stems (.run { hash } ops) c = (t, .error e)) ∧
    ∀ t u, lowerClass r stems (.run { hash } ops) c = (t, .ok u) →
      (∀ names ∈ [(classLevels r c).map (·.name), (p.stateVariables stems).map (·.name),
          (p.stateVariables stems).map (·.key), (p.stateVariables stems).map (ident ·.key),
          (p.machines.flatMap (·.stepFunctions r)).map (·.level.name)],
        names.Nodup ↔ NamedApart r c) ∧
      ((((p.machines.flatMap (·.levels)).flatMap Level.enumerators).map (·.1)).Nodup ↔
        NamedApart r c ∧ (∀ l ∈ classLevels r c, l.suffixes.Nodup) ∧
          ∀ l ∈ classLevels r c, ∀ l' ∈ classLevels r c, ¬ l.Clashes l') := by
  have hstem : IsIdentifier stems.state := hs ▸ (isIdentifier_ofTexts feature state).2
  have hvalid := (IdTable.valid_empty hash).run ops
  have hmachines : p.machines = (r.owned c.id).machines.map (Machine.of r) := by rw [hp]; rfl
  have hpath : ∀ t u, lowerClass r stems (.run { hash } ops) c = (t, .ok u) →
      ∀ l ∈ classLevels r c, ∀ l' ∈ classLevels r c,
        keyOf stems.state l.name = keyOf stems.state l'.name → l.path = l'.path :=
    fun t u hl l hm l' hm' => path_eq_of_key (lowerClass_ok hf hvalid hl).2 hm hm'
  refine ⟨fun l hm l' hm' hk hne => ?_, fun t u hl => ?_⟩
  · rcases lowerClass_cases hf stems (.run { hash } ops) with
      ⟨t, n, -, hok⟩ | ⟨t, n, claimant, collision, -, herr⟩
    · exact absurd (hpath t _ hok l hm l' hm' hk) hne
    · exact ⟨t, _, herr⟩
  · -- what is made from the name of a level, and what its key is made from, decide on its path
    have hnodup : ∀ f : Level → String, (∀ l l', l.name = l'.name → f l = f l') →
        (∀ l l', f l = f l' → keyOf stems.state l.name = keyOf stems.state l'.name) →
        (((classLevels r c).map f).Nodup ↔ NamedApart r c) := by
      intro f hname hkey
      rw [← paths_nodup_iff hr]
      refine nodup_map_congr fun l hm l' hm' => ⟨fun h => ?_, fun h => ?_⟩
      · exact hpath t u hl l hm l' hm' (hkey l l' h)
      · exact hname l l' (name_eq_of_path_eq hm hm' h)
    have hnames := hnodup (·.name) (fun _ _ h => h) fun _ _ h => congrArg _ h
    have hlevels : p.machines.flatMap (·.levels) = classLevels r c := by
      rw [hmachines, List.flatMap_map]
      rfl
    have hvariables : p.stateVariables stems = (classLevels r c).map fun l =>
        { key := keyOf stems.state l.name, name := l.variableName } := by
      rw [← hlevels, List.map_flatMap]
      rfl
    have hsteps : (p.machines.flatMap (·.stepFunctions r)).map (·.level.name) =
        (classLevels r c).map (·.name) := by
      rw [← hlevels, List.map_flatMap, List.map_flatMap]
      refine List.flatMap_congr fun m _ => ?_
      rw [Machine.stepFunctions, List.map_map]
      rfl
    refine ⟨?_, ?_⟩
    · simp only [List.forall_mem_cons, hsteps, hvariables, List.map_map]
      refine ⟨hnames, hnodup _ ?_ ?_, hnodup _ ?_ ?_, hnodup _ ?_ ?_, hnames, by simp⟩
      · exact fun l l' h => congrArg ("state_" ++ ·) h
      · intro l l' h
        have h : "state_" ++ l.name = "state_" ++ l'.name := h
        simp only [← String.toList_inj, String.toList_append, List.append_cancel_left_eq] at h
        rw [String.toList_inj.1 h]
      · exact fun l l' h => congrArg (keyOf stems.state) h
      · exact fun l l' h => h
      · exact fun l l' h => congrArg (fun n => ident (keyOf stems.state n)) h
      · intro l l' h
        have h : ident (keyOf stems.state l.name) = ident (keyOf stems.state l'.name) := h
        rwa [(isIdentifier_keyOf hstem _).ident_eq, (isIdentifier_keyOf hstem _).ident_eq] at h
    · rw [hlevels, enumerators_nodup_iff, hnames]

/-! A crane drives, to the left or to the right, and has a hook. -/

def crane : Classifier := { id := "crane", name := "Crane", stereotype := "SimObject" }

def craneDrive : StateMachine := { id := "drive", name := "Drive", parent := "crane" }

def craneMove : State := { id := "move", name := "Move", parent := "drive" }

def craneHook : StateMachine := { id := "hook", name := "Hook", parent := "crane" }

def dockyard : Registry := Registry.prepare { elements := [
  .classifier crane,
  .stateMachine craneDrive,
  .state { id := "idle", name := "Idle", parent := "drive" },
  .state craneMove,
  .state { id := "left", name := "Left", parent := "move" },
  .state { id := "right", name := "Right", parent := "move" },
  .stateMachine craneHook,
  .state { id := "up", name := "Up", parent := "hook" },
  .state { id := "down", name := "Down", parent := "hook", isFinal := true }] }

/-- The levels of the crane written out. -/
theorem crane_levels : classLevels dockyard crane =
    [topLevel dockyard craneDrive, (topLevel dockyard craneDrive).insideOf dockyard craneMove,
      topLevel dockyard craneHook] := by
  have hmachines : (dockyard.owned crane.id).machines = [craneDrive, craneHook] := rfl
  have hdrive : dockyard.machineTrees craneDrive.id =
      [.state _ [], .state craneMove [.state _ [], .state _ []]] := rfl
  have hhook : dockyard.machineTrees craneHook.id = [.state _ [], .state _ []] := rfl
  rw [classLevels, hmachines, List.flatMap_cons, List.flatMap_singleton, levelsOf_eq, levelsOf_eq,
    hdrive, hhook]
  simp only [nestedLevels]
  rfl

theorem crane_names_apart :
    dockyard.Built ∧ family dockyard crane = .simObject ∧
    ∃ t u, lowerClass dockyard (.ofTexts "" "") (.run { hash := Digest.XxHash.hash } []) crane =
      (t, .ok u) ∧ ((classLevels dockyard crane).map (·.name)).Nodup ∧
      NamedApart dockyard crane := by
  have hbuilt : dockyard.Built := .prepare (.loaded (by decide +kernel))
  have hf : family dockyard crane = .simObject := by decide +kernel
  have hgranted : (((IdTable.run { hash := Digest.XxHash.hash } []).withScope crane.id).claimAll
      crane.id (classClaims dockyard (.ofTexts "" "") crane)).2.2 = none := by
    rw [classClaims_eq, crane_levels]
    decide +kernel
  have hnames : ((classLevels dockyard crane).map (·.name)).Nodup := by
    rw [crane_levels]
    decide +kernel
  obtain ⟨t, u, hl⟩ := lowerClass_of_granted hf hgranted
  have happart := ((lowerClass_level_names hbuilt rfl hf rfl).2 t u hl).1 _ List.mem_cons_self
  exact ⟨hbuilt, hf, t, u, hl, hnames, happart.1 hnames⟩

/-! Two doors of one hangar, each with a machine named `Door`. -/

def hangar : Classifier := { id := "hangar", name := "Hangar", stereotype := "SimObject" }

def hangarFront : StateMachine := { id := "front", name := "Door", parent := "hangar" }

def hangarBack : StateMachine := { id := "back", name := "Door", parent := "hangar" }

def airfield : Registry := Registry.prepare { elements := [
  .classifier hangar,
  .stateMachine hangarFront,
  .state { id := "s1", name := "Open", parent := "front" },
  .stateMachine hangarBack,
  .state { id := "s2", name := "Open", parent := "back" }] }

/-- The hangar is lowered although both its levels, and all their enumerators, have the same
    names. -/
theorem hangar_doors_share_names :
    airfield.Built ∧ family airfield hangar = .simObject ∧
    (∃ t u, lowerClass airfield (.ofTexts "" "") (.run { hash := Digest.XxHash.hash } []) hangar =
      (t, .ok u)) ∧
    ¬ ((classLevels airfield hangar).map (·.name)).Nodup ∧
    ¬ (((classLevels airfield hangar).flatMap Level.enumerators).map (·.1)).Nodup := by
  have hlevels : classLevels airfield hangar =
      [topLevel airfield hangarFront, topLevel airfield hangarBack] := by
    have hmachines : (airfield.owned hangar.id).machines = [hangarFront, hangarBack] := rfl
    have hfront : airfield.machineTrees hangarFront.id = [.state _ []] := rfl
    have hback : airfield.machineTrees hangarBack.id = [.state _ []] := rfl
    rw [classLevels, hmachines, List.flatMap_cons, List.flatMap_singleton, levelsOf_eq, levelsOf_eq,
      hfront, hback]
    simp only [nestedLevels]
    rfl
  have hf : family airfield hangar = .simObject := by decide +kernel
  have hgranted : (((IdTable.run { hash := Digest.XxHash.hash } []).withScope hangar.id).claimAll
      hangar.id (classClaims airfield (.ofTexts "" "") hangar)).2.2 = none := by
    rw [classClaims_eq, hlevels]
    decide +kernel
  refine ⟨.prepare (.loaded (by decide +kernel)), hf, lowerClass_of_granted hf hgranted, ?_⟩
  rw [hlevels]
  decide +kernel

end Lowering
end ObjectLowering
