/-
  Collecting the features of a classifier.

  * `mem_ancestry`: the classifiers whose features count are those that the
    classifier leads to over bases that resolve and over imported suppliers
    of its own family; they are met depth first (`ancestry_depthFirst`).
  * `collect_correct`: the result has the first declaration of every name, in
    the order of the search, and each of the other declarations is reported
    once.
-/
import Mathlib.Logic.Relation
import ObjectLowering.Proofs.DepthFirst
import ObjectLowering.Proofs.Flattening
import ObjectLowering.Proofs.MemberPaths
import ObjectLowering.Proofs.Ownership

namespace ObjectLowering.Lowering

open Model Code

/-! ## Ancestors -/

/-- `y` is a base of `x` that resolves, or a supplier of the given family that `x` imports. -/
def Inherits (r : Registry) (root : Family) (x y : Classifier) : Prop :=
  (∃ g ∈ (r.owned x.id).generalizations, r.classifier? g.general = some y) ∨
  ∃ d ∈ (r.owned x.id).dependencies, d.isImport = true ∧ r.classifier? d.supplier = some y ∧
    family r y = root

section
variable {r : Registry} {root : Family} {a : Ancestor} {c x y : Classifier}

theorem classifier?_self {id : String} (h : r.classifier? id = some x) :
    r.classifier? x.id = some x := by
  have hid : x.id = id := by
    unfold Registry.classifier? at h
    split at h
    · next z hz =>
      obtain rfl := Option.some.inj h
      have hid := List.find?_some (p := fun e : Element => e.id == id) hz
      exact beq_iff_eq.1 hid
    · cases h
  rw [hid, h]

theorem classifier?_of_mem (hr : r.Built) (hx : x ∈ r.classifiers) :
    r.classifier? x.id = some x := by
  obtain ⟨e, he, hex⟩ := List.mem_filterMap.1 hx
  have hclassifier : e = .classifier x := by cases e <;> simp_all
  subst hclassifier
  have hlookup : r.lookup x.id = some (.classifier x) := Registry.lookup_of_mem hr.ids_nodup he
  rw [Registry.classifier?, hlookup]

theorem exists_mem_next :
    (∃ b ∈ a.next r root, b.classifier = y) ↔ Inherits r root a.classifier y := by
  simp only [Ancestor.next, Registry.bases, Inherits, List.mem_append, List.mem_map,
    List.mem_filterMap, List.mem_filter, Option.filter_eq_some_iff, beq_iff_eq]
  constructor
  · rintro ⟨b, ⟨z, hz, rfl⟩ | ⟨z, ⟨d, ⟨hd, hi⟩, hs, hf⟩, rfl⟩, rfl⟩
    · exact Or.inl hz
    · exact Or.inr ⟨d, hd, hi, hs, hf⟩
  · rintro (hg | ⟨d, hd, hi, hs, hf⟩)
    · exact ⟨_, Or.inl ⟨y, hg, rfl⟩, rfl⟩
    · exact ⟨_, Or.inr ⟨y, ⟨d, ⟨hd, hi⟩, hs, hf⟩, rfl⟩, rfl⟩

theorem Inherits.classifier?_eq (h : Inherits r root x y) : r.classifier? y.id = some y := by
  rcases h with ⟨g, -, hy⟩ | ⟨d, -, -, hy, -⟩
  · exact classifier?_self hy
  · exact classifier?_self hy

/-- Ancestors are met depth first: bases in order, then suppliers in order. -/
theorem ancestry_depthFirst (r : Registry) (c : Classifier) :
    DepthFirst (fun a : Ancestor => a.classifier.id) (Ancestor.next r (family r c)) []
      [{ classifier := c, isForeign := false }] (ancestry r c) := by
  refine preorder_depthFirst (c.id :: r.classifiers.map (·.id)) _ [] _ List.nodup_nil
    (List.nil_subset _) (by simp) (by simp) fun a b hb => ?_
  have hb : Inherits r (family r c) a.classifier b.classifier := exists_mem_next.1 ⟨b, hb, rfl⟩
  exact List.mem_cons_of_mem _ (List.mem_map.2 ⟨_, mem_classifiers hb.classifier?_eq, rfl⟩)

/-- **The classifiers whose features count** are those that are reached. -/
theorem mem_ancestry (hc : r.classifier? c.id = some c) :
    x ∈ (ancestry r c).map (·.classifier) ↔
      Relation.ReflTransGen (Inherits r (family r c)) c x := by
  have hsearch := ancestry_depthFirst r c
  have hknown : ∀ a ∈ ancestry r c, r.classifier? a.classifier.id = some a.classifier := by
    refine hsearch.forall_mem (fun a ha => ?_) fun a _ b hb => ?_
    · rw [List.mem_singleton.1 ha]; exact hc
    · exact (exists_mem_next.1 ⟨b, hb, rfl⟩).classifier?_eq
  rw [List.mem_map]
  constructor
  · rintro ⟨a, ha, rfl⟩
    refine hsearch.forall_mem
      (P := fun a => Relation.ReflTransGen (Inherits r (family r c)) c a.classifier)
      (fun a ha => ?_) (fun a hr b hb => hr.tail (exists_mem_next.1 ⟨b, hb, rfl⟩)) a ha
    rw [List.mem_singleton.1 ha]
  · intro h
    obtain ⟨hfirst, hnext⟩ := hsearch.met
    simp only [List.append_nil] at hfirst hnext
    -- an ancestor with the id of a classifier of the registry is that classifier
    have visited : ∀ z, r.classifier? z.id = some z →
        z.id ∈ (ancestry r c).map (fun a => a.classifier.id) →
        ∃ a ∈ ancestry r c, a.classifier = z := by
      intro z hz hm
      obtain ⟨a, ha, hid⟩ := List.mem_map.1 hm
      have hka := hknown a ha
      rw [hid, hz] at hka
      exact ⟨a, ha, (Option.some.inj hka).symm⟩
    induction h with
    | refl => exact visited c hc (hfirst _ List.mem_cons_self)
    | @tail y z _ hyz ih =>
      obtain ⟨a, ha, rfl⟩ := ih
      obtain ⟨b, hb, rfl⟩ := exists_mem_next.2 hyz
      exact visited _ hyz.classifier?_eq (hnext a ha b hb)

end

/-! ## Declarations -/

/-- The flattened features have what a declaration declares. -/
def Features.Has (fs : Features) (d : Declaration) : Prop :=
  match d.declared with
  | .data f => ∃ m ∈ fs.data, m.owner = d.owner.classifier ∧ m.feature = f
  | .operation o => o ∈ fs.operations

/-- The reports that an element is hidden. -/
def hiddenReports (ds : List Diagnostic) (id : String) : List Diagnostic :=
  ds.filter fun n => n.code = .shadowedFeature ∧ n.element = id

theorem distinctNotes_nodup (ds : List Diagnostic) : (distinctNotes ds).Nodup := by
  rw [distinctNotes]
  induction hl : ds.length using Nat.strongRecOn generalizing ds with
  | _ n ih =>
    cases ds with
    | nil => exact List.nodup_nil
    | cons d ds =>
      rw [List.eraseDups_cons, List.nodup_cons, List.mem_eraseDups]
      refine ⟨by simp, ih _ ?_ _ rfl⟩
      rw [← hl, List.length_cons]
      exact Nat.lt_succ_of_le (List.length_filter_le _ ds)

section
variable {r : Registry} {c : Classifier} {stem : String} {d e : Declaration} {k : Bool}

theorem mem_declarations_of_mem_firstWins (h : (d, k) ∈ firstWins [] (declarations r c)) :
    d ∈ declarations r c := by
  rw [← map_fst_firstWins [] (declarations r c)]
  exact List.mem_map.2 ⟨_, h, rfl⟩

/-- A declaration is kept or hidden. -/
theorem mem_firstWins_cases (h : d ∈ declarations r c) :
    (d, true) ∈ firstWins [] (declarations r c) ∨ (d, false) ∈ firstWins [] (declarations r c) := by
  rw [← map_fst_firstWins [] (declarations r c)] at h
  obtain ⟨⟨d, k⟩, hm, rfl⟩ := List.mem_map.1 h
  cases k with
  | true => exact Or.inl hm
  | false => exact Or.inr hm

/-- Exactly the hidden declarations are reported as such. -/
theorem mem_notesOf_flatten {n : Diagnostic} (hn : n.code = .shadowedFeature) :
    n ∈ notesOf (flatten r c stem) ↔
      ∃ d, (d, false) ∈ firstWins [] (declarations r c) ∧ n = d.hiddenNote := by
  rw [notesOf, List.mem_flatMap, flatten_eq]
  constructor
  · rintro ⟨x, hx, hm⟩
    obtain ⟨⟨d, k⟩, hd, rfl⟩ := List.mem_map.1 hx
    cases k with
    | false => exact ⟨d, hd, List.mem_singleton.1 hm⟩
    | true =>
      unfold flattened at hm
      cases hdecl : d.declared with
      | data f =>
        simp only [hdecl, if_true, Member.notes] at hm
        split_ifs at hm
        · rw [List.mem_singleton.1 hm] at hn; cases hn
        · cases hm
      | operation o => simp [hdecl] at hm
  · rintro ⟨d, hd, rfl⟩
    exact ⟨_, List.mem_map.2 ⟨_, hd, rfl⟩, List.mem_singleton.2 rfl⟩

/-- The reports on flattened features name declarations. -/
theorem note_of_flatten {n : Diagnostic} (h : n ∈ notesOf (flatten r c stem)) :
    (n.code = .shadowedFeature ∨ n.code = .unresolvedReference) ∧
      ∃ d ∈ declarations r c, n.element = d.declared.identity.id := by
  rw [notesOf, List.mem_flatMap, flatten_eq] at h
  obtain ⟨x, hx, hn⟩ := h
  obtain ⟨⟨d, kept⟩, hp, rfl⟩ := List.mem_map.1 hx
  have hd := mem_declarations_of_mem_firstWins hp
  unfold flattened at hn
  cases kept with
  | false =>
    obtain rfl := List.mem_singleton.1 hn
    exact ⟨Or.inl rfl, d, hd, rfl⟩
  | true =>
    cases hf : d.declared with
    | operation o => simp [hf] at hn
    | data f =>
      simp only [hf, if_true, Member.notes] at hn
      split_ifs at hn
      · obtain rfl := List.mem_singleton.1 hn
        exact ⟨Or.inr rfl, d, hd, by rw [hf]; rfl⟩
      · cases hn

theorem Ancestor.declarations_ids (r : Registry) (a : Ancestor) :
    (a.declarations r).map (·.declared.identity.id) =
      (r.owned a.classifier.id).declared.map Element.id := by
  simp only [Ancestor.declarations, Owned.declared, List.map_append, List.map_map]
  rfl

/-- No element is declared twice. -/
theorem declarations_ids_nodup (h : r.WellOwned) (c : Classifier) :
    ((declarations r c).map (·.declared.identity.id)).Nodup := by
  rw [declarations, List.Nodup, List.pairwise_map, List.pairwise_flatMap]
  constructor
  · intro a _
    rw [← List.pairwise_map (f := fun d : Declaration => d.declared.identity.id),
      a.declarations_ids]
    exact h.ids a.classifier.id
  · have hids := (ancestry_depthFirst r c).keys.1
    rw [List.Nodup, List.pairwise_map] at hids
    refine hids.imp fun {a b} hne d hd e he hid => hne ?_
    have hmem : ∀ (a : Ancestor) (d : Declaration), d ∈ a.declarations r →
        ∃ y ∈ (r.owned a.classifier.id).declared, y.id = d.declared.identity.id := by
      intro a d hd
      have := List.mem_map_of_mem (f := fun d : Declaration => d.declared.identity.id) hd
      rw [a.declarations_ids] at this
      exact List.mem_map.1 this
    obtain ⟨y, hy, hyd⟩ := hmem a d hd
    obtain ⟨z, hz, hze⟩ := hmem b e he
    exact h.owner _ _ y hy z hz (hyd.trans (hid.trans hze.symm))

variable (h : r.WellOwned)
include h

theorem eq_of_declared_id (hd : d ∈ declarations r c) (he : e ∈ declarations r c)
    (hid : d.declared.identity.id = e.declared.identity.id) : d = e :=
  List.inj_on_of_nodup_map (declarations_ids_nodup h c) hd he hid

theorem not_kept_and_hidden (hk : (d, true) ∈ firstWins [] (declarations r c)) :
    (d, false) ∉ firstWins [] (declarations r c) := by
  intro hh
  have hnodup : ((firstWins [] (declarations r c)).map (·.1)).Nodup := by
    rw [map_fst_firstWins]
    exact (declarations_ids_nodup h c).of_map _
  cases List.inj_on_of_nodup_map hnodup hk hh rfl

/-- The features have exactly the declarations that are kept. -/
theorem has_iff (hd : d ∈ declarations r c) :
    (Features.ofFlattened (flatten r c stem)).Has d ↔
      (d, true) ∈ firstWins [] (declarations r c) := by
  unfold Features.Has
  cases hdecl : d.declared with
  | data f =>
    constructor
    · rintro ⟨m, hm, -, hf⟩
      obtain ⟨e, g, he, heg, rfl⟩ := mem_membersOf_flatten.1 (mem_dataOf.1 hm)
      obtain rfl : g = f := hf
      have hde : e = d := eq_of_declared_id h (mem_declarations_of_mem_firstWins he) hd
        (by rw [heg, hdecl])
      exact hde ▸ he
    · intro hk
      exact ⟨_, mem_dataOf.2 (mem_membersOf_flatten.2 ⟨d, f, hk, hdecl, rfl⟩), rfl, rfl⟩
  | operation o =>
    simp only [mem_operations_flatten]
    constructor
    · rintro ⟨e, he, heo⟩
      have hde : e = d := eq_of_declared_id h (mem_declarations_of_mem_firstWins he) hd
        (by rw [heo, hdecl])
      exact hde ▸ he
    · intro hk
      exact ⟨d, hk, hdecl⟩

/-- A declaration is reported as hidden at most once, and by no other report than its own. -/
theorem hiddenReports_cases (hd : d ∈ declarations r c) :
    hiddenReports (distinctNotes (notesOf (flatten r c stem))) d.declared.identity.id =
      if (d, false) ∈ firstWins [] (declarations r c) then [d.hiddenNote] else [] := by
  set reports := hiddenReports (distinctNotes (notesOf (flatten r c stem))) d.declared.identity.id
    with hreports
  have hmem : ∀ n, n ∈ reports ↔
      (d, false) ∈ firstWins [] (declarations r c) ∧ n = d.hiddenNote := by
    intro n
    simp only [hreports, hiddenReports, distinctNotes, List.mem_filter, List.mem_eraseDups,
      decide_eq_true_eq]
    constructor
    · rintro ⟨hn, hcode, hid⟩
      obtain ⟨e, he, rfl⟩ := (mem_notesOf_flatten hcode).1 hn
      obtain rfl := eq_of_declared_id h (mem_declarations_of_mem_firstWins he) hd hid
      exact ⟨he, rfl⟩
    · rintro ⟨hh, rfl⟩
      exact ⟨(mem_notesOf_flatten rfl).2 ⟨d, hh, rfl⟩, rfl, rfl⟩
  have hnodup : reports.Nodup := (distinctNotes_nodup _).filter _
  split_ifs with hh
  · refine List.perm_singleton.1 ((List.perm_ext_iff_of_nodup hnodup (List.nodup_singleton _)).2 ?_)
    intro n
    rw [hmem, List.mem_singleton]
    exact and_iff_right hh
  · rw [List.eq_nil_iff_forall_not_mem]
    exact fun n hn => hh ((hmem n).1 hn).1

end

theorem collect_eq {r : Registry} {c : Classifier} (h : (collect r c).collision = none) :
    (collect r c).features = some (.ofFlattened (flatten r c defaultStem)) ∧
      (collect r c).diagnostics = distinctNotes (notesOf (flatten r c defaultStem)) := by
  unfold collect at h ⊢
  simp only at h ⊢
  split at h
  · exact ⟨rfl, rfl⟩
  · cases h

/-- **Collecting is correct**, for all registries that adding and preparing give. The ancestors are
    what a depth-first search visits, and all that is reached; no name is used twice among data or
    among operations; and the result has just the declarations that are the first of their name,
    each other one being reported once. -/
theorem collect_correct {r : Registry} {c : Classifier} (hr : r.Built) (hc : c ∈ r.classifiers)
    (hok : (collect r c).collision = none) :
    ∃ fs, (collect r c).features = some fs ∧
      (∀ walk, DepthFirst (fun a : Ancestor => a.classifier.id) (Ancestor.next r (family r c)) []
        [{ classifier := c, isForeign := false }] walk ↔ walk = ancestry r c) ∧
      (∀ x, x ∈ (ancestry r c).map (·.classifier) ↔
        Relation.ReflTransGen (Inherits r (family r c)) c x) ∧
      (fs.data.map (·.name)).Nodup ∧
      (fs.operations.map fun o => o.name).Nodup ∧
      (∀ m ∈ fs.data, ∃ d ∈ declarations r c, d.owner.classifier = m.owner ∧
        d.declared = .data m.feature) ∧
      (∀ o ∈ fs.operations, ∃ d ∈ declarations r c, d.declared = .operation o) ∧
      ∀ d ∈ declarations r c,
        (fs.Has d ↔ (declarations r c).find? (fun e => e.slot == d.slot) = some d) ∧
        ((fs.Has d ∧ hiddenReports (collect r c).diagnostics d.declared.identity.id = []) ∨
          (¬ fs.Has d ∧ ∃ n,
            hiddenReports (collect r c).diagnostics d.declared.identity.id = [n])) := by
  have hw := hr.wellOwned
  have hsearch := ancestry_depthFirst r c
  obtain ⟨hfeatures, hdiagnostics⟩ := collect_eq hok
  refine ⟨_, hfeatures, fun walk => ⟨fun h => h.unique hsearch, fun h => h ▸ hsearch⟩,
    fun x => mem_ancestry (classifier?_of_mem hr hc), dataOf_names_nodup r c defaultStem,
    operations_names_nodup r c defaultStem, fun m hm => ?_, fun o ho => ?_, fun d hd => ⟨?_, ?_⟩⟩
  · obtain ⟨d, f, hk, hf, rfl⟩ := mem_membersOf_flatten.1 (mem_dataOf.1 hm)
    exact ⟨d, mem_declarations_of_mem_firstWins hk, rfl, hf⟩
  · obtain ⟨d, hk, hd⟩ := mem_operations_flatten.1 ho
    exact ⟨d, mem_declarations_of_mem_firstWins hk, hd⟩
  · rw [has_iff hw hd, kept_iff]
    simp
  · rw [has_iff hw hd, hdiagnostics, hiddenReports_cases hw hd]
    rcases mem_firstWins_cases hd with hk | hh
    · exact Or.inl ⟨hk, if_neg (not_kept_and_hidden hw hk)⟩
    · exact Or.inr ⟨fun hk => not_kept_and_hidden hw hk hh, _, if_pos hh⟩

/-! A tug is a ship and a carrier, both of which are crafts, and it has a radio; crafts are tugs
    again. -/

def tug : Classifier := { id := "tug", name := "Tug" }

def shipyard : Registry := Registry.prepare { elements := [
  .classifier tug,
  .classifier { id := "ship", name := "Ship" },
  .classifier { id := "carrier", name := "Carrier" },
  .classifier { id := "craft", name := "Craft", stereotype := "SimObject" },
  .classifier { id := "radio", name := "Radio", stereotype := "SimObject" },
  .generalization { id := "g1", parent := "tug", general := "ship" },
  .generalization { id := "g2", parent := "tug", general := "carrier" },
  .generalization { id := "g3", parent := "ship", general := "craft" },
  .generalization { id := "g4", parent := "carrier", general := "craft" },
  .generalization { id := "g5", parent := "craft", general := "tug" },
  .generalization { id := "g6", parent := "craft", general := "hovercraft" },
  .dependency { id := "d1", parent := "tug", stereotype := "Import", supplier := "radio" },
  .attribute { id := "a1", name := "mass", parent := "ship", typed := { typeName := "double" } },
  .attribute { id := "a2", name := "mass", parent := "craft", typed := { typeName := "int" } },
  .attribute { id := "a3", name := "channel", parent := "radio", typed := { typeName := "int" } },
  .operation { id := "o1", name := "mass", parent := "carrier" }] }

theorem tug_collected :
    shipyard.Built ∧ tug ∈ shipyard.classifiers ∧ (collect shipyard tug).collision = none ∧
    (ancestry shipyard tug).map (·.classifier.id) = ["tug", "ship", "craft", "carrier", "radio"] ∧
    ((collect shipyard tug).diagnostics.map (·.element)) = ["a2"] ∧
    ∃ fs, (collect shipyard tug).features = some fs ∧
      ∀ d ∈ declarations shipyard tug,
        (fs.Has d ∧ hiddenReports (collect shipyard tug).diagnostics d.declared.identity.id = []) ∨
          (¬ fs.Has d ∧ ∃ n,
            hiddenReports (collect shipyard tug).diagnostics d.declared.identity.id = [n]) := by
  have hbuilt : shipyard.Built := .prepare (.loaded (by decide +kernel))
  have hmem : tug ∈ shipyard.classifiers := by decide +kernel
  have hok : (collect shipyard tug).collision = none := by decide +kernel
  obtain ⟨fs, hfs, -, -, -, -, -, -, hall⟩ := collect_correct hbuilt hmem hok
  exact ⟨hbuilt, hmem, hok, by decide +kernel, by decide +kernel, fs, hfs,
    fun d hd => (hall d hd).2⟩

end ObjectLowering.Lowering
