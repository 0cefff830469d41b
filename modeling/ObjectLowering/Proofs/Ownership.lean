/-
  What belongs to whom in a prepared registry.

  * `linkAll_attributes`, `linkAll_operations`, `linkAll_ends`: the owned
    lists of a classifier, read off the elements of the registry.
  * `Registry.Built`: the registries that adding elements and preparing can
    give.  Their elements have ids of their own, and no feature belongs to
    two classifiers or twice to one (`Registry.Built.wellOwned`).
-/
import Mathlib.Data.List.Nodup
import ObjectLowering.Model.Prepare
import ObjectLowering.Proofs.Entries

namespace ObjectLowering.Model

namespace Links

variable {β : Type} {l : Links} {id x : String} {f : Owned → Owned} {list : Owned → List β}

theorem of_update (l : Links) (id x : String) (f : Owned → Owned) :
    (l.update id f).of x = if x = id then f (l.of id) else l.of x := by
  rw [Links.of, Links.update]
  split_ifs with h
  · rw [h, List.lookup_cons_self]
    rfl
  · rw [List.lookup_cons, beq_false_of_ne h, lookup_filter_ne h]
    rfl

/-- Entering an item leaves the other lists as they are. -/
theorem enter_same {ok : Bool} (h : ∀ o, list (f o) = list o) :
    list ((if ok then l.update id f else l).of x) = list (l.of x) := by
  split_ifs
  · rw [of_update]
    split_ifs with hx
    · rw [h, hx]
    · rfl
  · rfl

/-- Entering an item appends it to the list of its owner. -/
theorem enter_append (ok : String → Bool) {b : β} (h : ∀ o, list (f o) = list o ++ [b]) :
    list ((if ok id then l.update id f else l).of x) =
      list (l.of x) ++ (if id = x ∧ ok x then some b else none).toList := by
  by_cases hx : id = x
  · subst hx
    split_ifs with hok hx hx
    · rw [of_update, if_pos rfl, h]
      rfl
    · exact absurd ⟨rfl, hok⟩ hx
    · exact absurd hx.2 hok
    · exact (List.append_nil _).symm
  · rw [if_neg (c := id = x ∧ ok x) fun h => hx h.1, Option.toList_none, List.append_nil]
    split_ifs
    · rw [of_update, if_neg fun h => hx h.symm]
    · rfl

end Links

namespace Registry

variable {r : Registry} {l : Links} {x : String}

/-! ## Owned lists -/

/-- The attribute that an element is, if it belongs to the classifier `x`. -/
def attributeIn (r : Registry) (x : String) : Element → Option Attribute
  | .attribute a => if a.parent = x ∧ (r.classifier? x).isSome then some a else none
  | _ => none

/-- The operation that an element is, if it belongs to the classifier `x`. -/
def operationIn (r : Registry) (x : String) : Element → Option Operation
  | .operation o => if o.parent = x ∧ (r.classifier? x).isSome then some o else none
  | _ => none

/-- The end that an element is, if it belongs to the association `x`. -/
def memberIn (r : Registry) (x : String) : Element → Option AssociationEnd
  | .associationEnd e => if e.parent = x ∧ (r.association? x).isSome then some e else none
  | _ => none

/-- The first of two ends, if the second one is typed by the classifier `x`. -/
def endIn (r : Registry) (x : String) (p : AssociationEnd × AssociationEnd) :
    Option AssociationEnd :=
  if p.2.typed.type = x ∧ (r.classifier? x).isSome then some p.1 else none

/-- An element is entered at the end of its list, and changes no other list. -/
theorem attach_of (r : Registry) (l : Links) (e : Element) (x : String) :
    ((r.attach l e).of x).attributes = (l.of x).attributes ++ (r.attributeIn x e).toList ∧
    ((r.attach l e).of x).operations = (l.of x).operations ++ (r.operationIn x e).toList ∧
    ((r.attach l e).of x).members = (l.of x).members ++ (r.memberIn x e).toList ∧
    ((r.attach l e).of x).ends = (l.of x).ends := by
  match e with
  | .attribute _ =>
    simp only [operationIn, memberIn, Option.toList_none, List.append_nil]
    exact ⟨Links.enter_append (fun x => (r.classifier? x).isSome) fun _ => rfl,
      Links.enter_same fun _ => rfl, Links.enter_same fun _ => rfl, Links.enter_same fun _ => rfl⟩
  | .operation _ =>
    simp only [attributeIn, memberIn, Option.toList_none, List.append_nil]
    exact ⟨Links.enter_same fun _ => rfl,
      Links.enter_append (fun x => (r.classifier? x).isSome) fun _ => rfl,
      Links.enter_same fun _ => rfl, Links.enter_same fun _ => rfl⟩
  | .associationEnd _ =>
    simp only [attributeIn, operationIn, Option.toList_none, List.append_nil]
    exact ⟨Links.enter_same fun _ => rfl, Links.enter_same fun _ => rfl,
      Links.enter_append (fun x => (r.association? x).isSome) fun _ => rfl,
      Links.enter_same fun _ => rfl⟩
  | .package _ | .classifier _ | .association _ | .event _ =>
    simp [attach, attributeIn, operationIn, memberIn]
  | .generalization _ | .dependency _ | .stateMachine _ | .state _ | .pseudoState _
  | .transition _ | .action _ =>
    simp only [attributeIn, operationIn, memberIn, Option.toList_none, List.append_nil]
    exact ⟨Links.enter_same fun _ => rfl, Links.enter_same fun _ => rfl,
      Links.enter_same fun _ => rfl, Links.enter_same fun _ => rfl⟩

theorem attachEnd_of (r : Registry) (l : Links) (p : AssociationEnd × AssociationEnd) (x : String) :
    ((r.attachEnd l p).of x).attributes = (l.of x).attributes ∧
    ((r.attachEnd l p).of x).operations = (l.of x).operations ∧
    ((r.attachEnd l p).of x).ends = (l.of x).ends ++ (r.endIn x p).toList :=
  ⟨Links.enter_same fun _ => rfl, Links.enter_same fun _ => rfl,
    Links.enter_append (fun x => (r.classifier? x).isSome) fun _ => rfl⟩

/-- A list that every step of a fold extends has all the extensions at the end. -/
theorem foldl_extends {α β σ : Type} {step : σ → α → σ} {f : α → Option β} (list : σ → List β)
    (h : ∀ s a, list (step s a) = list s ++ (f a).toList) (s : σ) (as : List α) :
    list (as.foldl step s) = list s ++ as.filterMap f := by
  induction as generalizing s with
  | nil => simp
  | cons a as ih =>
    rw [List.foldl_cons, ih, h, List.append_assoc]
    cases hf : f a <;> simp [hf]

theorem foldl_keeps {α β σ : Type} {step : σ → α → σ} (list : σ → List β)
    (h : ∀ s a, list (step s a) = list s) (s : σ) (as : List α) :
    list (as.foldl step s) = list s := by
  induction as generalizing s with
  | nil => rfl
  | cons a as ih => rw [List.foldl_cons, ih, h]

/-- The owned lists before ends are given to classifiers. -/
def attachAll (r : Registry) : Links := r.elements.foldl r.attach {}

theorem attachAll_members (r : Registry) (x : String) :
    (r.attachAll.of x).members = r.elements.filterMap (r.memberIn x) :=
  foldl_extends (fun l : Links => (l.of x).members) (fun l e => (r.attach_of l e x).2.2.1) {}
    r.elements

theorem linkAll_attributes (r : Registry) (x : String) :
    (r.linkAll.of x).attributes = r.elements.filterMap (r.attributeIn x) :=
  (foldl_keeps (fun l : Links => (l.of x).attributes)
      (fun l p => (r.attachEnd_of l p x).1) _ _).trans
    (foldl_extends (fun l : Links => (l.of x).attributes) (fun l e => (r.attach_of l e x).1) {} _)

theorem linkAll_operations (r : Registry) (x : String) :
    (r.linkAll.of x).operations = r.elements.filterMap (r.operationIn x) :=
  (foldl_keeps (fun l : Links => (l.of x).operations) (fun l p => (r.attachEnd_of l p x).2.1)
    _ _).trans
    (foldl_extends (fun l : Links => (l.of x).operations) (fun l e => (r.attach_of l e x).2.1) {} _)

theorem linkAll_ends (r : Registry) (x : String) :
    (r.linkAll.of x).ends = (r.navigableEnds r.attachAll).filterMap (r.endIn x) := by
  have hnone : (r.attachAll.of x).ends = [] :=
    foldl_keeps (fun l : Links => (l.of x).ends) (fun l e => (r.attach_of l e x).2.2.2) {}
      r.elements
  have hends := foldl_extends (fun l : Links => (l.of x).ends)
    (fun l p => (r.attachEnd_of l p x).2.2) r.attachAll (r.navigableEnds r.attachAll)
  rw [hnone, List.nil_append] at hends
  exact hends

/-! ## Ids -/

section
variable {a : Attribute} {o : Operation} {e : AssociationEnd} {y : Element}

theorem attributeIn_eq_some (h : r.attributeIn x y = some a) : y = .attribute a ∧ a.parent = x := by
  cases y <;> simp [attributeIn] at h
  grind

theorem operationIn_eq_some (h : r.operationIn x y = some o) : y = .operation o ∧ o.parent = x := by
  cases y <;> simp [operationIn] at h
  grind

theorem memberIn_eq_some (h : r.memberIn x y = some e) : y = .associationEnd e ∧ e.parent = x := by
  cases y <;> simp [memberIn] at h
  grind

end

section
variable {e : AssociationEnd} {p q : AssociationEnd × AssociationEnd}

theorem mem_attachAll_members (h : e ∈ (r.attachAll.of x).members) :
    .associationEnd e ∈ r.elements ∧ e.parent = x := by
  rw [attachAll_members, List.mem_filterMap] at h
  obtain ⟨y, hy, he⟩ := h
  obtain ⟨rfl, hx⟩ := memberIn_eq_some he
  exact ⟨hy, hx⟩

/-- The navigable ends that an element gives. -/
def endsAt (r : Registry) (y : Element) : List (AssociationEnd × AssociationEnd) :=
  match y with
  | .association a =>
    match (r.attachAll.of a.id).members with
    | [u, v] => [(u, v), (v, u)].filter fun p => p.1.isNavigable
    | _ => []
  | _ => []

theorem navigableEnds_eq (r : Registry) :
    r.navigableEnds r.attachAll = r.elements.flatMap r.endsAt := rfl

/-- Navigable ends are the two members of an association, in one order or the other. -/
theorem mem_endsAt {y : Element} (h : p ∈ r.endsAt y) :
    .associationEnd p.1 ∈ r.elements ∧ p.1.parent = y.id := by
  unfold endsAt at h
  split at h
  · next a =>
    split at h
    · next u v hm =>
      have hmember : p.1 ∈ (r.attachAll.of a.id).members := by
        rw [hm]
        rcases List.mem_pair.1 (List.mem_of_mem_filter h) with rfl | rfl <;> simp
      exact mem_attachAll_members hmember
    · cases h
  · cases h

variable (hids : (r.elements.map Element.id).Nodup)
include hids

theorem eq_of_id {y z : Element} (hy : y ∈ r.elements) (hz : z ∈ r.elements) (h : y.id = z.id) :
    y = z := List.inj_on_of_nodup_map hids hy hz h

theorem lookup_of_mem {y : Element} (hy : y ∈ r.elements) : r.lookup y.id = some y := by
  rw [lookup]
  cases hf : r.elements.find? (fun e => e.id == y.id) with
  | none => exact absurd (beq_self_eq_true y.id) (List.find?_eq_none.1 hf _ hy)
  | some z =>
    have hid := List.find?_some hf
    rw [eq_of_id hids (List.mem_of_find?_eq_some hf) hy (beq_iff_eq.1 hid)]

/-- What elements are read as has ids of its own, if it has those of the elements. -/
theorem filterMap_ids_nodup {β : Type} {f : Element → Option β} {id : β → String}
    (hf : ∀ y b, f y = some b → id b = y.id) : ((r.elements.filterMap f).map id).Nodup := by
  rw [List.Nodup, List.pairwise_map, List.pairwise_filterMap]
  rw [List.Nodup, List.pairwise_map] at hids
  refine hids.imp fun {y z} hne b hb b' hb' => ?_
  rw [hf y b hb, hf z b' hb']
  exact hne

theorem members_ids_nodup (x : String) :
    (((r.attachAll.of x).members).map fun e => e.id).Nodup := by
  rw [attachAll_members]
  refine filterMap_ids_nodup hids fun y e he => ?_
  rw [(memberIn_eq_some he).1]
  rfl

theorem endsAt_pairwise (y : Element) : (r.endsAt y).Pairwise fun p q => p.1.id ≠ q.1.id := by
  unfold endsAt
  split
  · next a =>
    split
    · next u v hm =>
      have hne := members_ids_nodup hids a.id
      rw [hm] at hne
      have huv : u.id ≠ v.id := by simpa using hne
      exact List.Pairwise.filter _ (by simp [huv])
    · exact List.Pairwise.nil
  · exact List.Pairwise.nil

/-- No end is navigable twice. -/
theorem navigableEnds_ids_nodup : ((r.navigableEnds r.attachAll).map fun p => p.1.id).Nodup := by
  rw [navigableEnds_eq, List.Nodup, List.pairwise_map, List.pairwise_flatMap]
  refine ⟨fun y _ => endsAt_pairwise hids y, ?_⟩
  have hpair := hids
  rw [List.Nodup, List.pairwise_map] at hpair
  refine hpair.imp fun {y z} hne p hp q hq he => hne ?_
  obtain ⟨hpe, hpy⟩ := mem_endsAt hp
  obtain ⟨hqe, hqz⟩ := mem_endsAt hq
  have hends : Element.associationEnd p.1 = .associationEnd q.1 := eq_of_id hids hpe hqe he
  rw [← hpy, ← hqz, Element.associationEnd.inj hends]

end

end Registry

/-! ## Features of classifiers -/

/-- The features among what belongs to an element: attributes, ends, operations. -/
def Owned.declared (o : Owned) : List Element :=
  o.attributes.map Element.attribute ++ o.ends.map Element.associationEnd ++
    o.operations.map Element.operation

namespace Registry

/-- No feature belongs to two elements, or twice to one. -/
structure WellOwned (r : Registry) : Prop where
  ids : ∀ x, ((r.owned x).declared.map Element.id).Nodup
  owner : ∀ x y, ∀ e ∈ (r.owned x).declared, ∀ f ∈ (r.owned y).declared, e.id = f.id → x = y

/-- The registries that adding elements and preparing can give. -/
inductive Built : Registry → Prop where
  | loaded {elements : List Element} (h : (elements.map Element.id).Nodup) : Built { elements }
  | add {r r' : Registry} {e : Element} (h : Built r) (ha : r.add e = .ok r') : Built r'
  | prepare {r : Registry} (h : Built r) : Built r.prepare

section
variable {r : Registry} {x : String} {e f : Element}

/-- Why a feature belongs to a classifier. -/
def Belongs (r : Registry) (x : String) : Element → Prop
  | .attribute a => a.parent = x
  | .operation o => o.parent = x
  | .associationEnd u => ∃ v, (u, v) ∈ r.navigableEnds r.attachAll ∧ v.typed.type = x
  | _ => False

theorem belongs_of_mem (h : e ∈ (r.linkAll.of x).declared) : e ∈ r.elements ∧ r.Belongs x e := by
  simp only [Owned.declared, List.mem_append, List.mem_map, linkAll_attributes, linkAll_operations,
    linkAll_ends, List.mem_filterMap] at h
  rcases h with (⟨a, ⟨y, hy, ha⟩, rfl⟩ | ⟨u, ⟨p, hp, hu⟩, rfl⟩) | ⟨o, ⟨y, hy, ho⟩, rfl⟩
  · obtain ⟨rfl, hx⟩ := attributeIn_eq_some ha
    exact ⟨hy, hx⟩
  · unfold endIn at hu
    split_ifs at hu with hx
    obtain rfl := Option.some.inj hu
    rw [navigableEnds_eq, List.mem_flatMap] at hp
    obtain ⟨y, hy, hpy⟩ := hp
    refine ⟨(mem_endsAt hpy).1, p.2, ?_, hx.1⟩
    rw [navigableEnds_eq]
    exact List.mem_flatMap.2 ⟨y, hy, hpy⟩
  · obtain ⟨rfl, hx⟩ := operationIn_eq_some ho
    exact ⟨hy, hx⟩

variable (hids : (r.elements.map Element.id).Nodup)
include hids

theorem Belongs.unique {y : String} (hx : r.Belongs x e) (hy : r.Belongs y e) : x = y := by
  match e with
  | .attribute _ => exact hx.symm.trans hy
  | .operation _ => exact hx.symm.trans hy
  | .associationEnd u =>
    obtain ⟨v, hv, rfl⟩ := hx
    obtain ⟨w, hw, rfl⟩ := hy
    have hvw := List.inj_on_of_nodup_map (navigableEnds_ids_nodup hids) hv hw rfl
    rw [(Prod.mk.inj hvw).2]
  | .package _ | .classifier _ | .association _ | .event _ | .generalization _ | .dependency _
  | .stateMachine _ | .state _ | .pseudoState _ | .transition _ | .action _ => exact hx.elim

theorem linkAll_ids_nodup (x : String) : ((r.linkAll.of x).declared.map Element.id).Nodup := by
  have same : ∀ e ∈ (r.linkAll.of x).declared, ∀ f ∈ (r.linkAll.of x).declared,
      e.id = f.id → e = f :=
    fun e he f hf => eq_of_id hids (belongs_of_mem he).1 (belongs_of_mem hf).1
  have hattributes : ((r.linkAll.of x).attributes.map fun a => a.id).Nodup := by
    rw [linkAll_attributes]
    refine filterMap_ids_nodup hids fun y a ha => ?_
    rw [(attributeIn_eq_some ha).1]
    rfl
  have hoperations : ((r.linkAll.of x).operations.map fun o => o.id).Nodup := by
    rw [linkAll_operations]
    refine filterMap_ids_nodup hids fun y o ho => ?_
    rw [(operationIn_eq_some ho).1]
    rfl
  have hends : ((r.linkAll.of x).ends.map fun u => u.id).Nodup := by
    have hnodup := navigableEnds_ids_nodup hids
    rw [List.Nodup, List.pairwise_map] at hnodup
    rw [linkAll_ends, List.Nodup, List.pairwise_map, List.pairwise_filterMap]
    refine hnodup.imp fun {p q} hne u hu v hv => ?_
    unfold endIn at hu hv
    split_ifs at hu hv
    rwa [← Option.some.inj hu, ← Option.some.inj hv]
  simp only [Owned.declared, List.map_append, List.map_map, List.mem_append, List.mem_map] at same ⊢
  refine List.nodup_append'.2 ⟨List.nodup_append'.2 ⟨hattributes, hends, fun k hk hk' => ?_⟩,
    hoperations, fun k hk hk' => ?_⟩
  · obtain ⟨a, ha, rfl⟩ := List.mem_map.1 hk
    obtain ⟨u, hu, he⟩ := List.mem_map.1 hk'
    cases same _ (Or.inl (Or.inl ⟨a, ha, rfl⟩)) _ (Or.inl (Or.inr ⟨u, hu, rfl⟩)) he.symm
  · obtain ⟨o, ho, rfl⟩ := List.mem_map.1 hk'
    rcases List.mem_append.1 hk with hk | hk
    · obtain ⟨a, ha, he⟩ := List.mem_map.1 hk
      cases same _ (Or.inl (Or.inl ⟨a, ha, rfl⟩)) _ (Or.inr ⟨o, ho, rfl⟩) he
    · obtain ⟨u, hu, he⟩ := List.mem_map.1 hk
      cases same _ (Or.inl (Or.inr ⟨u, hu, rfl⟩)) _ (Or.inr ⟨o, ho, rfl⟩) he

end

section
variable {r r' : Registry} {e : Element}

theorem settle_id (r : Registry) (e : Element) : (r.settle e).id = e.id := by
  cases e <;> rfl

theorem add_eq_ok (h : r.add e = .ok r') :
    e.id ∉ r.elements.map Element.id ∧ r' = { r with elements := r.elements ++ [e] } := by
  unfold add at h
  split_ifs at h
  split at h
  · cases h
  · next hn =>
    refine ⟨fun hm => ?_, (Except.ok.inj h).symm⟩
    obtain ⟨y, hy, hid⟩ := List.mem_map.1 hm
    exact absurd (beq_iff_eq.2 hid) (List.find?_eq_none.1 hn y hy)

/-- Elements have ids of their own. -/
theorem Built.ids_nodup (h : r.Built) : (r.elements.map Element.id).Nodup := by
  induction h with
  | loaded h => exact h
  | add _ ha ih =>
    obtain ⟨hnew, rfl⟩ := add_eq_ok ha
    rw [List.map_append, List.nodup_append_comm]
    exact List.nodup_cons.2 ⟨hnew, ih⟩
  | @prepare r _ ih =>
    unfold Registry.prepare
    split_ifs
    · exact ih
    · have hmap : (r.elements.map r.settle).map Element.id = r.elements.map Element.id := by
        rw [List.map_map]
        exact List.map_congr_left fun e _ => r.settle_id e
      exact hmap ▸ ih

/-- **Features have one owner.** -/
theorem Built.wellOwned (h : r.Built) : r.WellOwned := by
  have unlinked : ∀ elements, WellOwned { elements } := fun elements =>
    ⟨fun x => List.nodup_nil, fun x y e he => by cases he⟩
  induction h with
  | loaded => exact unlinked _
  | add _ ha ih =>
    obtain ⟨-, rfl⟩ := add_eq_ok ha
    exact ⟨ih.ids, ih.owner⟩
  | @prepare r h ih =>
    have hids := h.prepare.ids_nodup
    unfold Registry.prepare at hids ⊢
    split_ifs at hids ⊢
    · exact ih
    · refine ⟨linkAll_ids_nodup hids, fun x y e he f hf hid => ?_⟩
      obtain ⟨hme, hbe⟩ := belongs_of_mem he
      obtain ⟨hmf, hbf⟩ := belongs_of_mem hf
      obtain rfl := eq_of_id hids hme hmf hid
      exact hbe.unique hids hbf

end

end Registry
end ObjectLowering.Model
