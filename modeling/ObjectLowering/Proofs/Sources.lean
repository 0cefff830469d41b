/-
  The transitions of a registry and their sources.

  * `Registry.Built.source_eq`: a transition is listed at its source only, so
    it belongs to one vertex of one level of one machine (`eq_of_outgoing`).
  * A trigger that does not resolve is reported when the model is prepared
    (`Registry.Built.trigger_reported`).
  * What a class reports under the id of a transition, it reports on a chain
    of branches (`named_iff`): all other reports name features or
    pseudostates.
-/
import ObjectLowering.Proofs.Branches
import ObjectLowering.Proofs.Collecting

namespace ObjectLowering

namespace Model.Registry

/-! ## Transitions by source -/

/-- The transition that an element is, if it leaves the vertex `x`. -/
def transitionIn (r : Registry) (x : String) : Element → Option Transition
  | .transition t => if t.source = x ∧ (r.vertex? x).isSome then some t else none
  | _ => none

section
variable {r : Registry} {x : String} {y : Element} {t : Transition}

theorem transitionIn_eq_some (h : r.transitionIn x y = some t) :
    y = .transition t ∧ t.source = x ∧ (r.vertex? x).isSome := by
  cases y <;> simp only [transitionIn, reduceCtorEq] at h
  split_ifs at h with hx
  obtain rfl := Option.some.inj h
  exact ⟨rfl, hx⟩

theorem attach_outgoing (r : Registry) (l : Links) (e : Element) (x : String) :
    ((r.attach l e).of x).outgoing = (l.of x).outgoing ++ (r.transitionIn x e).toList := by
  match e with
  | .transition _ => exact Links.enter_append (fun x => (r.vertex? x).isSome) fun _ => rfl
  | .package _ | .classifier _ | .association _ | .event _ => simp [attach, transitionIn]
  | .attribute _ | .operation _ | .associationEnd _ | .generalization _ | .dependency _
  | .stateMachine _ | .state _ | .pseudoState _ | .action _ =>
    simp only [transitionIn, Option.toList_none, List.append_nil]
    exact Links.enter_same fun _ => rfl

theorem attachEnd_outgoing (r : Registry) (l : Links) (p : AssociationEnd × AssociationEnd)
    (x : String) : ((r.attachEnd l p).of x).outgoing = (l.of x).outgoing :=
  Links.enter_same fun _ => rfl

theorem linkAll_outgoing (r : Registry) (x : String) :
    (r.linkAll.of x).outgoing = r.elements.filterMap (r.transitionIn x) :=
  (foldl_keeps (fun l : Links => (l.of x).outgoing) (r.attachEnd_outgoing · · x) _ _).trans
    (foldl_extends (fun l : Links => (l.of x).outgoing) (r.attach_outgoing · · x) {} _)

theorem mem_linkAll_outgoing (h : t ∈ (r.linkAll.of x).outgoing) :
    .transition t ∈ r.elements ∧ t.source = x ∧ (r.vertex? x).isSome := by
  rw [linkAll_outgoing, List.mem_filterMap] at h
  obtain ⟨y, hy, ht⟩ := h
  obtain ⟨rfl, hx⟩ := transitionIn_eq_some ht
  exact ⟨hy, hx⟩

/-- Transitions are listed at their sources. -/
theorem Built.source_eq (h : r.Built) (ht : t ∈ (r.owned x).outgoing) :
    .transition t ∈ r.elements ∧ t.source = x := by
  induction h with
  | loaded => cases ht
  | add _ ha ih =>
    obtain ⟨-, rfl⟩ := add_eq_ok ha
    exact ⟨List.mem_append_left _ (ih ht).1, (ih ht).2⟩
  | @prepare r _ ih =>
    unfold Registry.prepare at ht ⊢
    split_ifs at ht ⊢
    · exact ih ht
    · obtain ⟨hmem, hx, -⟩ := mem_linkAll_outgoing ht
      exact ⟨hmem, hx⟩

theorem event?_of_append {es : List Element} {id : String} {ev : Event}
    (h : r.event? id = some ev) : event? { r with elements := r.elements ++ es } id = some ev := by
  unfold event? at h ⊢
  split at h
  · next ev' hev =>
    have hlookup : lookup { r with elements := r.elements ++ es } id = some (.event ev') := by
      rw [lookup, List.find?_append, ← lookup, hev]
      rfl
    rw [hlookup]
    exact h
  · cases h

theorem trigger_mem_findings (hs : (r.vertex? t.source).isSome) {e : String} (he : e ∈ t.triggers)
    (hn : r.event? e = none) : ∃ d ∈ r.findings (.transition t), d.element = t.id := by
  rw [findings, if_pos hs]
  refine ⟨_, List.mem_append_right _ (List.mem_map_of_mem (List.mem_filter.2 ⟨he, ?_⟩)), rfl⟩
  exact Option.isNone_iff_eq_none.2 hn

/-- **A trigger that does not resolve is reported** under the id of its transition. -/
theorem Built.trigger_reported (h : r.Built) (ht : t ∈ (r.owned x).outgoing) {e : String}
    (he : e ∈ t.triggers) (hn : r.event? e = none) : ∃ d ∈ r.diagnostics, d.element = t.id := by
  induction h with
  | loaded => cases ht
  | add _ ha ih =>
    obtain ⟨-, rfl⟩ := add_eq_ok ha
    refine ih ht (Option.eq_none_iff_forall_ne_some.2 fun ev hev => ?_)
    rw [event?_of_append hev] at hn
    cases hn
  | @prepare r _ ih =>
    unfold Registry.prepare at ht hn ⊢
    split_ifs at ht hn ⊢
    · exact ih ht hn
    · obtain ⟨hmem, rfl, hsource⟩ := mem_linkAll_outgoing ht
      obtain ⟨d, hd, hid⟩ := trigger_mem_findings hsource he hn
      exact ⟨d, List.mem_append_left _ (List.mem_flatMap.2 ⟨_, hmem, hd⟩), hid⟩

/-- Features are elements. -/
theorem Built.declared_mem (h : r.Built) (hy : y ∈ (r.owned x).declared) : y ∈ r.elements := by
  induction h with
  | loaded => cases hy
  | add _ ha ih =>
    obtain ⟨-, rfl⟩ := add_eq_ok ha
    exact List.mem_append_left _ (ih hy)
  | @prepare r _ ih =>
    unfold Registry.prepare at hy ⊢
    split_ifs at hy ⊢
    · exact ih hy
    · exact (belongs_of_mem hy).1

theorem Built.declared_id_ne (h : r.Built) (hy : y ∈ (r.owned x).declared)
    (ht : .transition t ∈ r.elements) : y.id ≠ t.id := by
  intro hid
  obtain rfl := eq_of_id h.ids_nodup (h.declared_mem hy) ht hid
  simp [Owned.declared] at hy

end

end Model.Registry

namespace Lowering

open Model Code

/-! ## Sources -/

/-- The vertices whose transitions belong in the code of a level: its states that are not final, and
    its initial pseudostate. -/
def Level.IsSource (l : Level) (v : Vertex) : Prop :=
  v ∈ l.vertices ∧ match v with
    | .state s => s.isFinal = false
    | .pseudo p => l.isInitial p = true

section
variable {r : Registry} {sm sm' : StateMachine} {l l' : Level} {v w : Vertex} {t : Transition}

/-- The levels of different machines list the vertices of different owners. -/
theorem machine_eq_of_ownerId (hr : r.WellNested) (hsm : .stateMachine sm ∈ r.elements)
    (hsm' : .stateMachine sm' ∈ r.elements) (hl : l ∈ levelsOf r sm) (hl' : l' ∈ levelsOf r sm')
    (h : l.ownerId sm = l'.ownerId sm') : sm = sm' := by
  refine levels_induction (P := fun l => ∀ l' ∈ levelsOf r sm', l.ownerId sm = l'.ownerId sm' →
    sm = sm') ?_ ?_ l hl l' hl' h
  · intro l' hl' h
    rcases levels_cases hl' with rfl | ⟨p, s, hp, hs, -, rfl⟩
    · exact Element.stateMachine.inj (Registry.eq_of_id hr.ids hsm hsm' h)
    · cases Registry.eq_of_id hr.ids hsm (listed_element hr hsm' hp hs).1 h
  · intro l s hl hs _ _ _ ih l' hl' h
    rcases levels_cases hl' with rfl | ⟨p, s', hp, hs', -, rfl⟩
    · cases Registry.eq_of_id hr.ids (listed_element hr hsm hl hs).1 hsm' h
    · obtain ⟨hmem, hparent⟩ := listed_element hr hsm hl hs
      obtain ⟨hmem', hparent'⟩ := listed_element hr hsm' hp hs'
      obtain rfl := Element.state.inj (Registry.eq_of_id hr.ids hmem hmem' h)
      exact ih p hp (hparent.symm.trans hparent')

/-- A transition has one source. -/
theorem eq_of_outgoing (hr : r.Built) (hsm : .stateMachine sm ∈ r.elements)
    (hsm' : .stateMachine sm' ∈ r.elements) (hl : l ∈ levelsOf r sm) (hl' : l' ∈ levelsOf r sm')
    (hv : v ∈ l.vertices) (hw : w ∈ l'.vertices) (ht : t ∈ (r.owned v.id).outgoing)
    (ht' : t ∈ (r.owned w.id).outgoing) : sm = sm' ∧ l = l' ∧ v = w := by
  have hn := hr.wellNested
  have hid : v.id = w.id := (hr.source_eq ht).2.symm.trans (hr.source_eq ht').2
  obtain ⟨hmem, hparent⟩ := listed_element hn hsm hl hv
  obtain ⟨hmem', hparent'⟩ := listed_element hn hsm' hl' hw
  obtain rfl : v = w := by
    refine Vertex.element_injective (Registry.eq_of_id hn.ids hmem hmem' ?_)
    rw [v.element_id, w.element_id, hid]
  obtain rfl := machine_eq_of_ownerId hn hsm hsm' hl hl' (hparent.symm.trans hparent')
  exact ⟨rfl, eq_of_listed hn hsm hl hl' hv hw rfl⟩

end

/-! ## Reports -/

/-- The id of a feature. -/
def IsFeatureId (r : Registry) (id : String) : Prop := ∃ x, ∃ y ∈ (r.owned x).declared, y.id = id

section
variable {r : Registry} {c : Classifier} {stem : String} {d : Diagnostic}

theorem isFeatureId_of_mem_declarations {e : Declaration} (h : e ∈ declarations r c) :
    IsFeatureId r e.declared.identity.id := by
  obtain ⟨a, -, he⟩ := List.mem_flatMap.1 h
  have hmem := List.mem_map_of_mem (f := fun e : Declaration => e.declared.identity.id) he
  rw [a.declarations_ids] at hmem
  obtain ⟨y, hy, hid⟩ := List.mem_map.1 hmem
  exact ⟨_, y, hy, hid⟩

theorem isFeatureId_of_mem_dataOf {m : Member} (h : m ∈ dataOf r c stem) :
    IsFeatureId r m.feature.id := by
  obtain ⟨e, f, he, hf, rfl⟩ := mem_membersOf_flatten.1 (mem_dataOf.1 h)
  have hid := isFeatureId_of_mem_declarations (mem_declarations_of_mem_firstWins he)
  rwa [hf] at hid

theorem isFeatureId_of_mem_notesOf (h : d ∈ notesOf (flatten r c stem)) :
    IsFeatureId r d.element := by
  obtain ⟨-, e, he, hd⟩ := note_of_flatten h
  rw [hd]
  exact isFeatureId_of_mem_declarations he

theorem isFeatureId_of_mem_innerNotes {l : Location} {root : String} (hl : Reached r c stem l)
    (h : d ∈ l.innerNotes r root) : IsFeatureId r d.element := by
  have hmember : IsFeatureId r l.member.feature.id := by
    cases hl with
    | top hm => exact isFeatureId_of_mem_dataOf hm
    | inside _ _ hx => exact isFeatureId_of_mem_dataOf hx
  rw [Location.innerNotes] at h
  split at h
  · exact isFeatureId_of_mem_notesOf h
  · split_ifs at h
    · cases h
    · rw [List.mem_singleton.1 h]
      exact hmember
    · obtain ⟨x, -, rfl⟩ := List.mem_map.1 h
      exact hmember

end

section
variable {r : Registry} {stems : Stems} {c : Classifier} {t : Transition} {m : Machine}
  {events : List String} {b : Branch} {bs : List Branch}

/-- The branches of a chain are made from transitions of sources. -/
theorem source_of_mem_chain (hbs : bs ∈ m.chains r events) (hb : b ∈ bs) :
    ∃ l ∈ m.levels, ∃ v, l.IsSource v ∧ b.transition ∈ (r.owned v.id).outgoing := by
  have completion : ∀ id, b ∈ m.completionBranches r id →
      b.transition ∈ (r.owned id).outgoing := by
    intro id h
    obtain ⟨t, ht, rfl⟩ := List.mem_map.1 h
    exact (List.mem_filter.1 ht).1
  rcases mem_chains.1 hbs with ⟨l, hl, p, hp, hi, rfl⟩ | ⟨l, hl, s, hs, hf, -, rfl⟩ |
    ⟨e, -, x, -, rfl⟩
  · exact ⟨l, hl, _, ⟨hp, hi⟩, completion p.id hb⟩
  · exact ⟨l, hl, _, ⟨hs, hf⟩, completion s.id hb⟩
  · obtain ⟨⟨l, s, t⟩, hx, hy⟩ := mem_rivals.1 hb
    obtain ⟨hl, hs, hf, ht, -⟩ := mem_candidates.1 hx
    obtain ⟨label, tests, hbranch, -⟩ := exists_branchAt m r l s t
    rw [hbranch] at hy
    exact ⟨l, hl, .state s, ⟨hs, hf⟩, (Prod.mk.inj hy).2 ▸ ht⟩

variable (hr : r.Built) (ht : .transition t ∈ r.elements)
include hr ht

/-- A chain reports a transition if it reports on taking it, or cuts it off. -/
theorem named_on_chain (hbs : bs ∈ m.chains r events) :
    (∃ d ∈ Branch.chainNotes bs, d.element = t.id) ↔
      (∃ b ∈ Branch.reachable bs, b.transition = t ∧ b.notes ≠ []) ∨
        ∃ b, Branch.cutOff? bs = some b ∧ b.transition = t := by
  have same : ∀ b ∈ bs, b.transition.id = t.id → b.transition = t := by
    intro b hb hid
    obtain ⟨l, -, v, -, hout⟩ := source_of_mem_chain hbs hb
    exact Element.transition.inj
      (Registry.eq_of_id hr.ids_nodup (hr.source_eq hout).1 ht hid)
  have hnotes : ∀ b ∈ bs, ∀ d ∈ b.notes, d.element = b.transition.id := by
    intro b hb d hd
    obtain ⟨tests, t, rfl, -⟩ := branch_of_mem_chain hbs hb
    exact (note_of_branch hd).2
  simp only [Branch.chainNotes_eq, List.mem_append, List.mem_flatMap, List.mem_map,
    Option.mem_toList]
  constructor
  · rintro ⟨d, ⟨b, hb, hd⟩ | ⟨b, hb, rfl⟩, hid⟩
    · have hmem := Branch.mem_of_mem_reachable hb
      refine Or.inl ⟨b, hb, same b hmem ?_, List.ne_nil_of_mem hd⟩
      rw [← hnotes b hmem d hd, hid]
    · exact Or.inr ⟨b, hb, same b (Branch.mem_of_cutOff? hb) hid⟩
  · rintro (⟨b, hb, rfl, hne⟩ | ⟨b, hb, rfl⟩)
    · obtain ⟨d, hd⟩ := List.exists_mem_of_ne_nil _ hne
      exact ⟨d, Or.inl ⟨b, hb, hd⟩, hnotes b (Branch.mem_of_mem_reachable hb) d hd⟩
    · exact ⟨_, Or.inr ⟨b, hb, rfl⟩, rfl⟩

/-- What a class reports under the id of a transition, it reports on a chain. -/
theorem named_iff :
    (∃ d ∈ (Plan.of r stems c).notes r, d.element = t.id) ↔
      ∃ m ∈ (Plan.of r stems c).machines, ∃ bs ∈ m.chains r ((Plan.of r stems c).events r),
        ∃ d ∈ Branch.chainNotes bs, d.element = t.id := by
  have feature : ∀ {id}, IsFeatureId r id → id ≠ t.id := by
    rintro id ⟨x, y, hy, rfl⟩
    exact hr.declared_id_ne hy ht
  constructor
  · rintro ⟨d, hd, hid⟩
    rcases mem_notes.1 hd with h | ⟨m, hm, l, hl, h⟩ | h | ⟨m, hm, bs, hbs, h⟩
    · exact absurd hid (feature (isFeatureId_of_mem_notesOf h))
    · obtain ⟨sm, hsm, rfl⟩ := List.mem_map.1 hm
      obtain ⟨-, p, hp, hdp⟩ := note_of_level h
      have hw := hr.wellNested
      have hmem := (listed_element hw (hw.machines _ sm hsm) hl hp).1
      cases Registry.eq_of_id hw.ids hmem ht (hdp.symm.trans hid)
    · obtain ⟨tr, hw, -, -, hnotes⟩ := survey_depthFirst r c stems.feature
      have h : d ∈ tr.flatMap (·.innerNotes r c.id) := hnotes ▸ h
      obtain ⟨l, hl, h⟩ := List.mem_flatMap.1 h
      exact absurd hid (feature (isFeatureId_of_mem_innerNotes (reached_of_mem_trace hw hl) h))
    · exact ⟨m, hm, bs, hbs, d, h, hid⟩
  · rintro ⟨m, hm, bs, hbs, d, h, hid⟩
    exact ⟨d, mem_notes.2 (Or.inr (Or.inr (Or.inr ⟨m, hm, bs, hbs, h⟩))), hid⟩

end

end Lowering

end ObjectLowering
