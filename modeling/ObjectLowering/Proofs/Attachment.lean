/-
  Where preparing a model puts its elements.

  * `Registry.ownedBy`: the elements that name an owner, by the table of what
    can own what (`Element.canOwn`).
  * `Linked.owned_eq`: the lists of an owner are what it owns, by kind and in
    registration order, and the ends that face it.
  * `prepare_attaches`: for every registry, an element stands in the list of
    one owner, once, or is reported.
-/
import ObjectLowering.Proofs.Nesting

namespace ObjectLowering.Model

/-! ## Owners -/

/-- The id under which an element names its owner; the others are owned by nothing. -/
def Element.owner? : Element → Option String
  | .attribute x => some x.parent
  | .associationEnd x => some x.parent
  | .operation x => some x.parent
  | .generalization x => some x.parent
  | .dependency x => some x.parent
  | .stateMachine x => some x.parent
  | .state x => some x.parent
  | .pseudoState x => some x.parent
  | .transition x => some x.source
  | .action x => some x.parent
  | .package _ | .classifier _ | .association _ | .event _ => none

/-- Which elements can own which. -/
def Element.canOwn : Element → Element → Bool
  | .classifier _, .attribute _ => true
  | .classifier _, .operation _ => true
  | .classifier _, .generalization _ => true
  | .classifier _, .dependency _ => true
  | .classifier _, .stateMachine _ => true
  | .association _, .associationEnd _ => true
  | .stateMachine _, .state _ => true
  | .stateMachine _, .pseudoState _ => true
  | .state _, .state _ => true
  | .state _, .pseudoState _ => true
  | .state _, .transition _ => true
  | .pseudoState _, .transition _ => true
  | .state _, .action _ => true
  | .transition _, .action _ => true
  | _, _ => false

namespace Owned

/-- The lists of an owner with one more element. -/
def push (o : Owned) : Element → Owned
  | .attribute x => { o with attributes := o.attributes ++ [x] }
  | .associationEnd x => { o with members := o.members ++ [x] }
  | .operation x => { o with operations := o.operations ++ [x] }
  | .generalization x => { o with generalizations := o.generalizations ++ [x] }
  | .dependency x => { o with dependencies := o.dependencies ++ [x] }
  | .stateMachine x => { o with machines := o.machines ++ [x] }
  | .state x => { o with vertices := o.vertices ++ [.state x] }
  | .pseudoState x => { o with vertices := o.vertices ++ [.pseudo x] }
  | .transition x => { o with outgoing := o.outgoing ++ [x] }
  | .action x => { o with actions := o.actions ++ [x] }
  | .package _ | .classifier _ | .association _ | .event _ => o

/-- Elements by kind, in their order. -/
def ofElements (es : List Element) : Owned where
  attributes := es.filterMap fun | .attribute x => some x | _ => none
  operations := es.filterMap fun | .operation x => some x | _ => none
  generalizations := es.filterMap fun | .generalization x => some x | _ => none
  dependencies := es.filterMap fun | .dependency x => some x | _ => none
  machines := es.filterMap fun | .stateMachine x => some x | _ => none
  vertices := es.filterMap fun
    | .state x => some (.state x)
    | .pseudoState x => some (.pseudo x)
    | _ => none
  outgoing := es.filterMap fun | .transition x => some x | _ => none
  actions := es.filterMap fun | .action x => some x | _ => none
  members := es.filterMap fun | .associationEnd x => some x | _ => none

/-- All elements in the lists of an owner. Ends that face a classifier belong to their
    associations. -/
def elements (o : Owned) : List Element :=
  o.attributes.map .attribute ++ o.operations.map .operation ++
    o.generalizations.map .generalization ++ o.dependencies.map .dependency ++
    o.machines.map .stateMachine ++ o.vertices.map Vertex.element ++
    o.outgoing.map .transition ++ o.actions.map .action ++ o.members.map .associationEnd

theorem ofElements_concat (es : List Element) (e : Element) :
    ofElements (es ++ [e]) = (ofElements es).push e := by
  simp only [ofElements, List.filterMap_append, List.filterMap_cons, List.filterMap_nil]
  cases e <;> simp only [push, List.append_nil]

theorem foldl_push (es : List Element) : es.foldl push {} = ofElements es := by
  induction es using List.reverseRecOn with
  | nil => rfl
  | append_singleton es e ih => rw [List.foldl_append, ih, ofElements_concat]; rfl

theorem elements_push (o : Owned) {e : Element} (he : e.owner? ≠ none) :
    (o.push e).elements.Perm (e :: o.elements) := by
  rw [List.perm_iff_count]
  intro y
  cases e
  case package | classifier | association | event => exact absurd rfl he
  all_goals
    simp only [push, elements, Vertex.element, List.map_append, List.map_cons, List.map_nil,
      List.count_append, List.count_cons, List.count_nil]
    omega

theorem elements_ofElements {es : List Element} (hes : ∀ e ∈ es, e.owner? ≠ none) :
    (ofElements es).elements.Perm es := by
  induction es using List.reverseRecOn with
  | nil => exact .nil
  | append_singleton es e ih =>
    rw [ofElements_concat]
    refine (elements_push _ (hes e (by simp))).trans ?_
    refine (List.Perm.cons e (ih fun y hy => hes y (by simp [hy]))).trans ?_
    exact (List.perm_append_singleton e es).symm

end Owned

theorem Links.of_enter (l : Links) (ok : String → Bool) (id x : String) (f : Owned → Owned) :
    (if ok id then l.update id f else l).of x = if id = x ∧ ok x then f (l.of x) else l.of x := by
  by_cases hx : id = x
  · subst hx
    by_cases hok : ok id = true <;> simp [hok, of_update]
  · have hx' : ¬x = id := fun h => hx h.symm
    by_cases hok : ok id = true <;> simp [hok, hx, hx', of_update]

namespace Registry

/-- An element names `x` as its owner, and `x` can own it. -/
def ownedIn (r : Registry) (x : String) (e : Element) : Bool :=
  e.owner? == some x && (r.lookup x).any (·.canOwn e)

/-- The elements that an owner owns, in registration order. -/
def ownedBy (r : Registry) (x : String) : List Element := r.elements.filter (r.ownedIn x)

/-- The ends that face a classifier: the navigable ends of two-ended associations whose opposite
    ends are typed by it, by association and then by end. -/
def endsFacing (r : Registry) (x : String) : List AssociationEnd :=
  r.associations.flatMap fun a => (r.owned a.id).members.filter fun e =>
    e.isNavigable && (r.otherEnd? a.id e.id).any fun o =>
      o.typed.type == x && (r.classifier? x).isSome

section
variable {r : Registry} {x : String} {e : Element}

/-! ## Lists -/

/-- What can own an element, by look-ups of the owner. -/
theorem any_canOwn (r : Registry) (x : String) (e : Element) :
    (r.lookup x).any (·.canOwn e) = match e with
      | .attribute _ | .operation _ | .generalization _ | .dependency _ | .stateMachine _ =>
        (r.classifier? x).isSome
      | .associationEnd _ => (r.association? x).isSome
      | .state _ | .pseudoState _ => r.ownsVertices x
      | .transition _ => (r.vertex? x).isSome
      | .action _ => r.ownsActions x
      | .package _ | .classifier _ | .association _ | .event _ => false := by
  simp only [classifier?, association?, ownsVertices, vertex?, ownsActions]
  cases r.lookup x with
  | none => cases e <;> rfl
  | some y => cases e <;> cases y <;> rfl

/-- An element is entered into a list of the owner that it names, if that one can own it. -/
theorem attach_owned (r : Registry) (l : Links) (e : Element) (x : String) :
    (r.attach l e).of x = if r.ownedIn x e then (l.of x).push e else l.of x := by
  have enter : ∀ (ok : String → Bool) (id : String) (f : Owned → Owned),
      (if ok id then l.update id f else l).of x =
        if (some id == some x && ok x) = true then f (l.of x) else l.of x := by
    intro ok id f
    rw [Links.of_enter]
    simp
  rw [ownedIn, any_canOwn]
  match e with
  | .attribute _ | .operation _ | .generalization _ | .dependency _ | .stateMachine _ =>
    exact enter (fun x => (r.classifier? x).isSome) _ _
  | .associationEnd _ => exact enter (fun x => (r.association? x).isSome) _ _
  | .state _ | .pseudoState _ => exact enter r.ownsVertices _ _
  | .transition _ => exact enter (fun x => (r.vertex? x).isSome) _ _
  | .action _ => exact enter r.ownsActions _ _
  | .package _ | .classifier _ | .association _ | .event _ => rfl

theorem attachAll_of (r : Registry) (x : String) :
    r.attachAll.of x = Owned.ofElements (r.ownedBy x) := by
  have run : ∀ (es : List Element) (l : Links),
      (es.foldl r.attach l).of x = (es.filter (r.ownedIn x)).foldl Owned.push (l.of x) := by
    intro es
    induction es with
    | nil => intro l; rfl
    | cons e es ih =>
      intro l
      rw [List.foldl_cons, ih, attach_owned]
      by_cases he : r.ownedIn x e = true <;> simp [he]
  rw [← Owned.foldl_push]
  exact run r.elements {}

/-- Ends are given to classifiers without touching other lists. -/
theorem linkAll_of (r : Registry) (x : String) :
    r.linkAll.of x = { r.attachAll.of x with
      ends := (r.navigableEnds r.attachAll).filterMap (r.endIn x) } := by
  have run : ∀ (ps : List (AssociationEnd × AssociationEnd)) (l : Links),
      (ps.foldl r.attachEnd l).of x =
        { l.of x with ends := (l.of x).ends ++ ps.filterMap (r.endIn x) } := by
    intro ps
    induction ps with
    | nil => intro l; simp
    | cons p ps ih =>
      intro l
      rw [List.foldl_cons, ih, attachEnd, Links.of_enter l (fun x => (r.classifier? x).isSome)]
      by_cases hp : p.2.typed.type = x ∧ (r.classifier? x).isSome = true <;> simp [endIn, hp]
  have hends : (r.attachAll.of x).ends = [] := by rw [attachAll_of]; rfl
  have h := run (r.navigableEnds r.attachAll) r.attachAll
  rw [hends, List.nil_append] at h
  exact h

/-- The lists and the report of a registry are those of its elements. -/
structure Linked (r : Registry) : Prop where
  ids : (r.elements.map Element.id).Nodup
  links : r.links = r.linkAll
  diagnostics : r.diagnostics = r.elements.flatMap r.findings ++
    r.associations.flatMap (r.associationFindings r.links)

namespace Linked

variable (h : r.Linked)
include h

theorem members_eq (x : String) : (r.owned x).members = (r.attachAll.of x).members := by
  rw [owned, h.links, linkAll_of]

/-- The opposite of an end is the other one of two. -/
theorem otherEnd?_eq_some {a : String} {u v : AssociationEnd}
    (hm : (r.owned a).members = [u, v]) :
    r.otherEnd? a u.id = some v ∧ r.otherEnd? a v.id = some u := by
  have hne := members_ids_nodup h.ids a
  rw [← h.members_eq, hm] at hne
  have huv : u.id ≠ v.id := by simpa using hne
  simp [otherEnd?, hm, huv]

theorem endsAt_facing (a : Association) :
    (r.endsAt (.association a)).filterMap (r.endIn x) = (r.owned a.id).members.filter fun e =>
      e.isNavigable && (r.otherEnd? a.id e.id).any fun o =>
        o.typed.type == x && (r.classifier? x).isSome := by
  rw [endsAt, ← h.members_eq]
  rcases hm : (r.owned a.id).members with _ | ⟨u, _ | ⟨v, _ | ⟨w, rest⟩⟩⟩
  · rfl
  · simp [otherEnd?, hm]
  · obtain ⟨hu, hv⟩ := h.otherEnd?_eq_some hm
    have enter : ∀ p ps, List.filterMap (r.endIn x) (p :: ps) =
        if p.2.typed.type = x ∧ (r.classifier? x).isSome = true then p.1 :: ps.filterMap (r.endIn x)
        else ps.filterMap (r.endIn x) := by
      intro p ps
      rw [List.filterMap_cons, endIn]
      split_ifs <;> rfl
    simp only [List.filter_cons, List.filter_nil, hu, hv, Option.any_some]
    cases u.isNavigable <;> cases v.isNavigable <;> simp [enter]
  · simp [otherEnd?, hm]

theorem facing_eq : (r.navigableEnds r.attachAll).filterMap (r.endIn x) = r.endsFacing x := by
  rw [navigableEnds_eq, endsFacing, associations]
  induction r.elements with
  | nil => rfl
  | cons e es ih =>
    rw [List.flatMap_cons, List.filterMap_append, ih]
    match e with
    | .association a => rw [h.endsAt_facing]; rfl
    | .package _ | .classifier _ | .event _ | .attribute _ | .operation _ | .associationEnd _
    | .generalization _ | .dependency _ | .stateMachine _ | .state _ | .pseudoState _
    | .transition _ | .action _ => rfl

/-- **The lists of an owner** are what it owns, by kind, and the ends that face it. -/
theorem owned_eq (x : String) :
    r.owned x = { Owned.ofElements (r.ownedBy x) with ends := r.endsFacing x } := by
  rw [← h.facing_eq, owned, h.links, linkAll_of, attachAll_of]

/-- An element stands once in the lists of its owner, and nowhere else. -/
theorem count_elements (he : e ∈ r.elements) :
    (r.owned x).elements.count e = if r.ownedIn x e then 1 else 0 := by
  have howned : ∀ y ∈ r.ownedBy x, y.owner? ≠ none := by
    intro y hy hnone
    have hin := (List.mem_filter.1 hy).2
    simp [ownedIn, hnone] at hin
  have hperm : (r.owned x).elements.Perm (r.ownedBy x) := by
    rw [h.owned_eq]
    exact Owned.elements_ofElements howned
  rw [hperm.count_eq, ownedBy]
  split_ifs with hin
  · rw [List.count_filter hin]
    exact List.count_eq_one_of_mem h.ids.of_map he
  · exact List.count_eq_zero.2 fun hmem => hin (List.mem_filter.1 hmem).2

end Linked

/-! ## Reports -/

/-- An element is reported for want of an owner. -/
def Strays (r : Registry) (e : Element) : Prop :=
  ∃ d ∈ r.diagnostics, d.element = e.id ∧ (d.code = .orphan ∨ d.code = .unresolvedReference)

theorem findings_of_not_owned {y : String} (ho : e.owner? = some y) (hn : r.ownedIn y e = false) :
    ∃ d ∈ r.findings e, d.element = e.id ∧ (d.code = .orphan ∨ d.code = .unresolvedReference) := by
  have hno : (r.lookup y).any (·.canOwn e) = false := by simpa [ownedIn, ho] using hn
  rw [any_canOwn] at hno
  match e with
  | .attribute _ | .operation _ | .generalization _ | .dependency _ | .stateMachine _ =>
    obtain rfl := Option.some.inj ho
    simp only [findings, ownerFindings, Element.identity, hno]
    simp
  | .associationEnd _ =>
    obtain rfl := Option.some.inj ho
    simp only [findings, hno]
    simp [Element.id, Element.identity]
  | .state _ | .pseudoState _ =>
    obtain rfl := Option.some.inj ho
    simp only [findings, vertexFindings, Element.identity, hno]
    simp
  | .transition _ | .action _ =>
    obtain rfl := Option.some.inj ho
    simp only [findings, hno]
    simp [Element.id, Element.identity]

/-- `e` stands in the list of one owner, once. -/
def ListedOnce {α : Type} [BEq α] (list : String → List α) (e : α) : Prop :=
  ∃ x, (list x).count e = 1 ∧ ∀ y ≠ x, (list y).count e = 0

/-- An element stands in the list of one owner, once, or in none and is reported. -/
theorem Linked.placed (h : r.Linked) (he : e ∈ r.elements) (ho : e.owner? ≠ none) :
    ListedOnce (fun x => (r.owned x).elements) e ∨
      ((∀ x, e ∉ (r.owned x).elements) ∧ r.Strays e) := by
  obtain ⟨y, hy⟩ := Option.ne_none_iff_exists'.1 ho
  have elsewhere : ∀ z ≠ y, r.ownedIn z e = false := by
    intro z hz
    simp [ownedIn, hy, Ne.symm hz]
  by_cases hin : r.ownedIn y e = true
  · refine Or.inl ⟨y, ?_, fun z hz => ?_⟩
    · rw [h.count_elements he, if_pos hin]
    · rw [h.count_elements he, elsewhere z hz]
      rfl
  · rw [Bool.not_eq_true] at hin
    refine Or.inr ⟨fun x => ?_, ?_⟩
    · rw [← List.count_eq_zero, h.count_elements he]
      by_cases hx : x = y
      · rw [hx, hin]; rfl
      · rw [elsewhere x hx]; rfl
    · obtain ⟨d, hd, hd'⟩ := findings_of_not_owned hy hin
      refine ⟨d, ?_, hd'⟩
      rw [h.diagnostics]
      exact List.mem_append_left _ (List.mem_flatMap.2 ⟨e, he, hd⟩)

section
variable {u o : AssociationEnd}

theorem association_of_members (h : r.Linked) (hm : u ∈ (r.owned x).members) :
    .associationEnd u ∈ r.elements ∧ u.parent = x ∧
      ∃ a, .association a ∈ r.elements ∧ a.id = x := by
  rw [h.members_eq, attachAll_members, List.mem_filterMap] at hm
  obtain ⟨y, hy, hu⟩ := hm
  obtain ⟨rfl, rfl⟩ := memberIn_eq_some hu
  refine ⟨hy, rfl, ?_⟩
  rw [memberIn] at hu
  split_ifs at hu with hx
  obtain ⟨a, ha⟩ := Option.isSome_iff_exists.1 hx.2
  unfold association? at ha
  split at ha
  · next b hb =>
    have hid := List.find?_some hb
    exact ⟨b, List.mem_of_find?_eq_some hb, beq_iff_eq.1 hid⟩
  · cases ha

/-- An end with an opposite is one of the two ends of its association. -/
theorem association_of_otherEnd? (h : r.Linked) (hu : .associationEnd u ∈ r.elements)
    (ho : r.otherEnd? u.parent u.id = some o) :
    ∃ a, .association a ∈ r.elements ∧ a.id = u.parent ∧
      ((r.owned a.id).members = [u, o] ∨ (r.owned a.id).members = [o, u]) := by
  have same : ∀ v ∈ (r.owned u.parent).members, v.id = u.id → v = u := by
    intro v hv hid
    exact Element.associationEnd.inj (eq_of_id h.ids (association_of_members h hv).1 hu hid)
  have hboth : (r.owned u.parent).members = [u, o] ∨ (r.owned u.parent).members = [o, u] := by
    unfold otherEnd? at ho
    split at ho
    · next v w hm =>
      rw [hm] at same ⊢
      split_ifs at ho with hv hw
      · obtain rfl := same v (by simp) hv
        exact Or.inl (by rw [Option.some.inj ho])
      · obtain rfl := same w (by simp) hw
        exact Or.inr (by rw [Option.some.inj ho])
    · cases ho
  have hu : u ∈ (r.owned u.parent).members := by
    rcases hboth with hm | hm <;> rw [hm] <;> simp
  obtain ⟨-, -, a, ha, hid⟩ := association_of_members h hu
  exact ⟨a, ha, hid, hid ▸ hboth⟩

theorem Linked.mem_ends (h : r.Linked) (hu : .associationEnd u ∈ r.elements)
    (hn : u.isNavigable = true) (ho : r.otherEnd? u.parent u.id = some o) :
    u ∈ (r.owned x).ends ↔ o.typed.type = x ∧ (r.classifier? x).isSome = true := by
  have hends : (r.owned x).ends = r.endsFacing x := by rw [h.owned_eq]
  rw [hends, endsFacing, List.mem_flatMap]
  constructor
  · rintro ⟨a, -, hm⟩
    obtain ⟨hm, hface⟩ := List.mem_filter.1 hm
    rw [← (association_of_members h hm).2.1, ho] at hface
    simpa [hn] using hface
  · intro hx
    obtain ⟨a, ha, hid, hboth⟩ := association_of_otherEnd? h hu ho
    refine ⟨a, List.mem_filterMap.2 ⟨_, ha, rfl⟩, List.mem_filter.2 ⟨?_, ?_⟩⟩
    · rcases hboth with hm | hm <;> rw [hm] <;> simp
    · simp [hn, hid, ho, hx]

/-- An end that could be a feature is one of one classifier, once, or of none and is reported. -/
theorem Linked.faces (h : r.Linked) (hu : .associationEnd u ∈ r.elements)
    (hn : u.isNavigable = true) (ho : r.otherEnd? u.parent u.id = some o) :
    ListedOnce (fun x => (r.owned x).ends) u ∨
      ((∀ x, u ∉ (r.owned x).ends) ∧ r.Strays (.associationEnd u)) := by
  have hnodup : ∀ x, (r.owned x).ends.Nodup := by
    intro x
    have hdeclared := linkAll_ids_nodup h.ids x
    rw [← h.links, Owned.declared, List.append_assoc] at hdeclared
    exact (hdeclared.of_map.of_append_right.of_append_left).of_map
  by_cases hc : (r.classifier? o.typed.type).isSome = true
  · refine Or.inl ⟨o.typed.type, ?_, fun y hy => ?_⟩
    · exact List.count_eq_one_of_mem (hnodup _) ((h.mem_ends hu hn ho).2 ⟨rfl, hc⟩)
    · exact List.count_eq_zero.2 fun hm => hy ((h.mem_ends hu hn ho).1 hm).1.symm
  · refine Or.inr ⟨fun x hx => ?_, ?_⟩
    · obtain ⟨rfl, hc'⟩ := (h.mem_ends hu hn ho).1 hx
      exact hc hc'
    · obtain ⟨a, ha, hid, hboth⟩ := association_of_otherEnd? h hu ho
      have hnone : (r.classifier? o.typed.type).isNone = true := by simpa using hc
      have hd : ∃ d ∈ r.associationFindings r.links a,
          d.element = u.id ∧ d.code = .unresolvedReference := by
        rw [associationFindings]
        rw [owned] at hboth
        rcases hboth with hm | hm <;> rw [hm] <;>
          refine ⟨_, List.mem_map_of_mem (List.mem_filter.2 ⟨(?_ : (u, o) ∈ _), ?_⟩), rfl, rfl⟩ <;>
          simp [hn, hnone]
      obtain ⟨d, hd, hid, hcode⟩ := hd
      refine ⟨d, ?_, hid, Or.inr hcode⟩
      rw [h.diagnostics]
      exact List.mem_append_right _
        (List.mem_flatMap.2 ⟨a, List.mem_filterMap.2 ⟨_, ha, rfl⟩, hd⟩)

end

end

/-! ## Preparing -/

section
variable {r : Registry}

theorem settle_owner? (r : Registry) (e : Element) : (r.settle e).owner? = e.owner? := by
  cases e <;> rfl

theorem settle_canOwn (r : Registry) (e f : Element) :
    (r.settle e).canOwn (r.settle f) = e.canOwn f := by
  cases e <;> cases f <;> rfl

theorem prepare_elements (hp : r.isPrepared = false) :
    r.prepare.elements = r.elements.map r.settle := by
  simp [Registry.prepare, hp]

theorem prepare_isPrepared (r : Registry) : r.prepare.isPrepared = true := by
  unfold Registry.prepare
  split_ifs with hp
  · exact hp
  · rfl

theorem lookup_prepare (hp : r.isPrepared = false) (x : String) :
    r.prepare.lookup x = (r.lookup x).map r.settle := by
  rw [lookup, prepare_elements hp, List.find?_map, lookup]
  congr 2
  funext e
  exact congrArg (· == x) (r.settle_id e)

/-- Who owns what does not change. -/
theorem ownedBy_prepare (hp : r.isPrepared = false) (x : String) :
    r.prepare.ownedBy x = (r.ownedBy x).map r.settle := by
  rw [ownedBy, prepare_elements hp, List.filter_map, ownedBy]
  congr 2
  funext e
  simp only [Function.comp_apply, ownedIn, settle_owner?, lookup_prepare hp]
  cases r.lookup x <;> simp [settle_canOwn]

theorem prepare_linked (h : r.Built) (hp : r.isPrepared = false) : r.prepare.Linked := by
  refine ⟨h.prepare.ids_nodup, ?_, ?_⟩ <;>
  · rw [Registry.prepare, if_neg (by simp [hp])]
    rfl

/-- Every element has its place: lists are what their owners own, and what is in no list is
    reported. -/
structure Attached (r : Registry) : Prop where
  lists : ∀ x, r.owned x = { Owned.ofElements (r.ownedBy x) with ends := r.endsFacing x }
  placed : ∀ e ∈ r.elements, e.owner? ≠ none →
    ListedOnce (fun x => (r.owned x).elements) e ∨
      ((∀ x, e ∉ (r.owned x).elements) ∧ r.Strays e)
  faces : ∀ u o, .associationEnd u ∈ r.elements → u.isNavigable = true →
    r.otherEnd? u.parent u.id = some o →
    ListedOnce (fun x => (r.owned x).ends) u ∨
      ((∀ x, u ∉ (r.owned x).ends) ∧ r.Strays (.associationEnd u))

/-- **Preparing attaches every element** to the owner that it names, in registration order, or
    reports it; preparing again, whatever was added since, changes nothing. -/
theorem prepare_attaches (h : r.Built) (hp : r.isPrepared = false) :
    r.prepare.elements = r.elements.map r.settle ∧
    (∀ x, r.prepare.ownedBy x = (r.ownedBy x).map r.settle) ∧
    r.prepare.Attached ∧
    ∀ later, Registry.prepare { r.prepare with elements := r.prepare.elements ++ later } =
      { r.prepare with elements := r.prepare.elements ++ later } := by
  have hlinked := prepare_linked h hp
  refine ⟨prepare_elements hp, ownedBy_prepare hp, ⟨hlinked.owned_eq, ?_, ?_⟩, ?_⟩
  · exact fun e he ho => hlinked.placed he ho
  · exact fun u o hu hn ho => hlinked.faces hu hn ho
  · intro later
    rw [Registry.prepare, if_pos r.prepare_isPrepared]

end

/-- A yard with an attribute in front of its class, states inside each other, an operation of an
    association, and ends towards the class and towards nothing. -/
def yard : Registry := { elements := [
  .attribute { id := "size", name := "size", parent := "yard" },
  .state { id := "open", name := "Open", parent := "shut" },
  .state { id := "shut", name := "Shut", parent := "open" },
  .transition { id := "closing", source := "open", target := "shut" },
  .action { id := "ring", name := "ring", parent := "closing" },
  .action { id := "stray", name := "stray", parent := "size" },
  .operation { id := "enter", name := "Enter", parent := "fence" },
  .associationEnd {
    id := "gates", name := "gates", parent := "fence", isNavigable := true
    typed := { type := "nowhere" } },
  .associationEnd {
    id := "home", name := "home", parent := "fence", isNavigable := true
    typed := { type := "yard" } },
  .association { id := "fence", name := "Fence" },
  .classifier { id := "yard", name := "Yard" }] }

theorem yard_attaches :
    ((yard.prepare.owned "yard").ends.map (·.id) = ["gates"] ∧
      (yard.prepare.owned "open").vertices.map (·.id) = ["shut"] ∧
      yard.prepare.diagnostics.map (fun d => (d.code, d.element)) =
        [(.orphan, "stray"), (.orphan, "enter"), (.unresolvedReference, "gates"),
          (.unresolvedReference, "home")]) ∧
    yard.prepare.elements = yard.elements.map yard.settle ∧
    (∀ x, yard.prepare.ownedBy x = (yard.ownedBy x).map yard.settle) ∧
    yard.prepare.Attached ∧
    ∀ later, Registry.prepare { yard.prepare with elements := yard.prepare.elements ++ later } =
      { yard.prepare with elements := yard.prepare.elements ++ later } :=
  ⟨by decide +kernel, prepare_attaches (.loaded (by decide)) rfl⟩

end Registry

end ObjectLowering.Model
