/-
  The families of classifiers.

  * `lineage_depthFirst`: the bases of every degree are met depth first, with
    one set of ids for all branches.
  * `mem_lineage`: nevertheless every classifier is met that generalizations
    lead to, whatever diamonds and circles they make.
  * `family_sorts`: so a class is a simulation object iff they lead from it to
    a classifier with the stereotype; enumerations and primitive types are
    values, and all others are structs.
-/
import ObjectLowering.Proofs.Collecting
import ObjectLowering.Proofs.Generalizations

namespace ObjectLowering.Lowering

open Model Relation

/-- Zero or more generalizations that resolve lead from the classifier to one with the stereotype of
    simulation objects, in any case. -/
def InheritsMark (r : Registry) (c : Classifier) : Prop :=
  ∃ d ∈ r.classifiers, ReflTransGen r.Extends c.id d.id ∧
    Text.foldEq d.stereotype "SimObject" = true

section
variable {r : Registry} {c x : Classifier}

/-- A classifier and its bases are met depth first, no id twice. -/
theorem lineage_depthFirst (r : Registry) (c : Classifier) :
    DepthFirst (·.id) (fun x : Classifier => r.bases x.id) [] [c] (lineage r c) := by
  refine preorder_depthFirst (c.id :: r.classifiers.map (·.id)) _ [] _ List.nodup_nil
    (List.nil_subset _) (by simp) (by simp) fun x b hb => ?_
  exact List.mem_cons_of_mem _ (Registry.id_mem_of_mem_bases hb)

theorem mem_classifiers_of_mem_bases {id : String} (h : x ∈ r.bases id) : x ∈ r.classifiers := by
  obtain ⟨g, -, hg⟩ := List.mem_filterMap.1 h
  exact mem_classifiers hg

/-- An id is met iff generalizations lead to it. -/
theorem mem_lineage_ids (id : String) :
    id ∈ (lineage r c).map (·.id) ↔ ReflTransGen r.Extends c.id id := by
  have hsearch := lineage_depthFirst r c
  constructor
  · intro h
    obtain ⟨x, hx, rfl⟩ := List.mem_map.1 h
    refine hsearch.forall_mem (P := fun x => ReflTransGen r.Extends c.id x.id) (fun y hy => ?_)
      (fun y hy b hb => hy.tail ⟨b, hb, rfl⟩) x hx
    rw [List.mem_singleton.1 hy]
  · intro h
    obtain ⟨hfirst, hnext⟩ := hsearch.met
    simp only [List.append_nil] at hfirst hnext
    induction h with
    | refl => exact hfirst c List.mem_cons_self
    | tail _ hstep ih =>
      -- the step may start at another branch than the one on which its start was met
      obtain ⟨x, hx, rfl⟩ := List.mem_map.1 ih
      obtain ⟨b, hb, rfl⟩ := hstep
      exact hnext x hx b hb

/-- **Every classifier is met** that generalizations lead to. -/
theorem mem_lineage (hr : r.Built) (hc : c ∈ r.classifiers) :
    x ∈ lineage r c ↔ x ∈ r.classifiers ∧ ReflTransGen r.Extends c.id x.id := by
  have hknown : ∀ y ∈ lineage r c, y ∈ r.classifiers := by
    refine (lineage_depthFirst r c).forall_mem (fun y hy => ?_)
      fun _ _ _ hb => mem_classifiers_of_mem_bases hb
    rwa [List.mem_singleton.1 hy]
  constructor
  · exact fun hx => ⟨hknown x hx, (mem_lineage_ids _).1 (List.mem_map_of_mem hx)⟩
  · rintro ⟨hx, hreach⟩
    obtain ⟨y, hy, hid⟩ := List.mem_map.1 ((mem_lineage_ids _).2 hreach)
    have hsame := classifier?_of_mem hr hx
    rw [← hid, classifier?_of_mem hr (hknown y hy)] at hsame
    rwa [← Option.some.inj hsame]

theorem any_isMarked_lineage (hr : r.Built) (hc : c ∈ r.classifiers) :
    (lineage r c).any isMarked = true ↔ InheritsMark r c := by
  simp only [List.any_eq_true, mem_lineage hr hc, InheritsMark, isMarked, simObjectStereotype,
    and_assoc]

/-- **The family of a classifier**: enumerations and primitive types are values; a class is a
    simulation object iff it has the mark or inherits it; all others are structs. -/
theorem family_sorts (hr : r.Built) (hc : c ∈ r.classifiers) :
    (family r c = .value ↔ c.kind = .enumeration ∨ c.kind = .primitiveType) ∧
    (family r c = .simObject ↔ c.kind = .objectClass ∧ InheritsMark r c) ∧
    (family r c = .struct ↔ ¬ (c.kind = .enumeration ∨ c.kind = .primitiveType) ∧
      ¬ (c.kind = .objectClass ∧ InheritsMark r c)) := by
  rw [← any_isMarked_lineage hr hc, family]
  cases c.kind with
  | objectClass => cases (lineage r c).any isMarked <;> simp
  | dataType => simp
  | enumeration => simp
  | primitiveType => simp

end

/-! An amphibian is a car and a boat; cars are vehicles, and vehicles are amphibians again.  Boats
    are vehicles and vessels, and only vessels have the stereotype. -/

def amphibian : Classifier := { id := "amphibian", name := "Amphibian" }

def garage : Registry := Registry.prepare { elements := [
  .classifier amphibian,
  .classifier { id := "car", name := "Car" },
  .classifier { id := "boat", name := "Boat" },
  .classifier { id := "vehicle", name := "Vehicle" },
  .classifier { id := "vessel", name := "Vessel", kind := .dataType, stereotype := "simOBJECT" },
  .generalization { id := "g1", parent := "amphibian", general := "car" },
  .generalization { id := "g2", parent := "amphibian", general := "boat" },
  .generalization { id := "g3", parent := "car", general := "vehicle" },
  .generalization { id := "g4", parent := "vehicle", general := "amphibian" },
  .generalization { id := "g5", parent := "vehicle", general := "sledge" },
  .generalization { id := "g6", parent := "boat", general := "vehicle" },
  .generalization { id := "g7", parent := "boat", general := "vessel" }] }

theorem amphibian_family :
    garage.Built ∧ amphibian ∈ garage.classifiers ∧
    (lineage garage amphibian).map (·.id) = ["amphibian", "car", "vehicle", "boat", "vessel"] ∧
    family garage amphibian = .simObject ∧ InheritsMark garage amphibian := by
  have hbuilt : garage.Built := .prepare (.loaded (by decide))
  have hmem : amphibian ∈ garage.classifiers := by decide
  have hfamily : family garage amphibian = .simObject := by decide
  exact ⟨hbuilt, hmem, by decide, hfamily,
    ((family_sorts hbuilt hmem).2.1.1 hfamily).2⟩

end ObjectLowering.Lowering
