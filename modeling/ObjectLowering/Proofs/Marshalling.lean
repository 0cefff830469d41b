/-
  How values are marshalled, against how they are stored.

  The category of a feature and the element type of its storage are found by
  two rules, each with a text of its own to fall back on.

  * `classify_spell`: a spelling is spelled as it is, so a name and its
    spelling are in one group.
  * `IsBareAlias`: where the rules part.  A primitive type without a base is
    stored under its own name, but its values are marshalled verbatim.
  * `categoryOf_storage`: the category of any other value is that of the group
    of its element type; the category of a class or data type is told by its
    family.
-/
import Mathlib.Data.List.DropRight
import ObjectLowering.Proofs.Batches

namespace ObjectLowering

namespace Text

/-- What is left between the ends of a list has nothing more to remove there. -/
theorem trimList_trimList (p : Char → Bool) (cs : List Char) :
    trimList p (trimList p cs) = trimList p cs := by
  have hinit : trimList p cs <+: cs.dropWhile p := List.rdropWhile_prefix p _
  have hfront : (trimList p cs).dropWhile p = trimList p cs := by
    rw [List.dropWhile_eq_self_iff]
    intro hl
    have hclear := List.dropWhile_get_zero_not p cs (hl.trans_le hinit.length_le)
    rwa [hinit.getElem hl]
  have hend : dropWhileEnd p (trimList p cs) = trimList p cs := List.rdropWhile_idempotent p _
  rw [trimList, hfront, hend]

theorem trim_trim (s : String) : trim (trim s) = trim s := by
  rw [trim, trim, String.toList_ofList, trimList_trimList]

theorem trim_of_isBlankText {s : String} (h : isBlankText s = true) : trim s = "" := by
  have hall : s.toList.dropWhile isBlank = [] := List.dropWhile_eq_nil_iff.2 (List.all_eq_true.1 h)
  rw [trim, trimList, hall]
  rfl

end Text

namespace Code

open Text

theorem spell_trim (name : String) : spell (trim name) = spell name := by
  rw [spell, spell, trim_trim]

/-- The spelling of a primitive type is no other name of one. -/
theorem spell_of_mem_primitiveSpellings : ∀ p ∈ primitiveSpellings, spell p.2 = p.2 := by
  decide +kernel

theorem spell_spell (name : String) : spell (spell name) = spell name := by
  cases h : primitiveSpellings.lookup (trim name) with
  | none =>
    have hname : spell name = trim name := by rw [spell, h, Option.getD_none]
    rw [hname, spell_trim, hname]
  | some s =>
    have hname : spell name = s := by rw [spell, h, Option.getD_some]
    obtain ⟨before, after, hsplit, -⟩ := List.lookup_eq_some_iff.1 h
    have hmem : (trim name, s) ∈ primitiveSpellings := by simp [hsplit]
    rw [hname]
    exact spell_of_mem_primitiveSpellings (trim name, s) hmem

theorem classify_spell (name : String) : classify (spell name) = classify name := by
  rw [classify, classify, spell_spell]

theorem classify_trim (name : String) : classify (trim name) = classify name := by
  rw [classify, classify, spell_trim]

theorem classify_of_isBlankText {name : String} (h : isBlankText name = true) :
    classify name = .none := by
  rw [← classify_trim, trim_of_isBlankText h]
  decide +kernel

end Code

namespace Lowering

open Model Code Text

/-- The category of values in a group of primitive spellings. -/
def Category.ofGroup : PrimitiveClass → Category
  | .integral => .int
  | .floating => .float
  | .text => .string
  | .boolean => .bool
  | .none => .verbatim

theorem Category.ofGroup_injective : Function.Injective Category.ofGroup := by
  intro g g'
  cases g <;> cases g' <;> decide

theorem Category.ofPrimitive_eq (name : String) :
    Category.ofPrimitive name = .ofGroup (classify name) := by
  unfold Category.ofPrimitive
  cases classify name <;> rfl

/-- The type of the feature is a class or a data type. -/
def IsComposed (r : Registry) (f : Feature) : Prop :=
  ∃ c, r.classifier? f.typed.type = some c ∧ (c.kind = .objectClass ∨ c.kind = .dataType)

/-- The type of the feature is a primitive type that has no base, but the name of a primitive. -/
def IsBareAlias (r : Registry) (f : Feature) : Prop :=
  ∃ c, r.classifier? f.typed.type = some c ∧ c.kind = .primitiveType ∧
    isBlankText c.aliasBase = true ∧ classify c.name ≠ .none

/-- How the category of a feature goes with its storage. -/
structure MarshalsAsStored (r : Registry) (f : Feature) : Prop where
  /-- References and structs are the features whose type is a class or data type. -/
  composed_iff : (categoryOf r f = .reference ∨ categoryOf r f = .struct) ↔ IsComposed r f
  /-- The family of the classifier tells which of them. -/
  reference_iff : ∀ c, r.classifier? f.typed.type = some c →
    (c.kind = .objectClass ∨ c.kind = .dataType) →
    (categoryOf r f = .reference ↔ family r c = .simObject)
  /-- Any other feature is in the category of the group of its element type, unless its type is
      known by a name only. -/
  group_iff : ¬ IsComposed r f →
    ((∀ g, categoryOf r f = .ofGroup g ↔ classify (storageOf r f).element = g) ↔
      ¬ IsBareAlias r f)
  /-- A type known by a name only is marshalled verbatim. -/
  bare : IsBareAlias r f → categoryOf r f = .verbatim
  /-- The group is also that of the written element type. -/
  written : classify (storageOf r f).elementType = classify (storageOf r f).element

section
variable {r : Registry} {f : Feature} {c : Classifier}

theorem categoryOf_eq (h : r.classifier? f.typed.type = some c) :
    categoryOf r f = .ofClassifier r c := by
  rw [categoryOf, h]

theorem element_eq (h : r.classifier? f.typed.type = some c) :
    (storageOf r f).element = elementName c := by
  simp only [storageOf, h]

/-- The rules for a feature without a classifier fall back alike. -/
theorem categoryOf_unresolved (h : r.classifier? f.typed.type = none) :
    categoryOf r f = .ofGroup (classify (storageOf r f).element) := by
  simp only [categoryOf, storageOf, h]
  split_ifs
  · decide +kernel
  · rw [Category.ofPrimitive_eq, classify_trim]

theorem family_composed (r : Registry) (hc : c.kind = .objectClass ∨ c.kind = .dataType) :
    family r c = .simObject ∨ family r c = .struct := by
  by_cases hf : family r c = .simObject
  · exact Or.inl hf
  · exact Or.inr (family_eq_struct hc hf)

theorem ofClassifier_composed (r : Registry) (hc : c.kind = .objectClass ∨ c.kind = .dataType) :
    Category.ofClassifier r c = if family r c = .simObject then .reference else .struct := by
  rw [Category.ofClassifier]
  rcases family_composed r hc with hf | hf <;> rw [hf] <;> rfl

theorem ofClassifier_enumeration (r : Registry) (hc : c.kind = .enumeration) :
    Category.ofClassifier r c = .ofGroup (classify (elementName c)) := by
  simp only [Category.ofClassifier, family, elementName, hc, if_true]
  decide +kernel

theorem ofClassifier_primitive (r : Registry) (hc : c.kind = .primitiveType) :
    Category.ofClassifier r c = .ofGroup (classify c.aliasBase) := by
  simp only [Category.ofClassifier, family, hc, reduceCtorEq, if_false]
  exact Category.ofPrimitive_eq c.aliasBase

/-- A primitive type is stored under its base, or under its name if the base is blank. -/
theorem classify_elementName (hc : c.kind = .primitiveType) :
    classify (elementName c) =
      classify (if isBlankText c.aliasBase then c.name else c.aliasBase) := by
  simp only [elementName, hc]
  split_ifs
  · rfl
  · exact classify_trim c.aliasBase

/-- The two rules part where a base is blank. -/
theorem categoryOf_bare (h : IsBareAlias r f) :
    categoryOf r f = .verbatim ∧ classify (storageOf r f).element ≠ .none := by
  obtain ⟨c, hc, hk, hblank, hname⟩ := h
  constructor
  · rw [categoryOf_eq hc, ofClassifier_primitive r hk, classify_of_isBlankText hblank]
    rfl
  · rw [element_eq hc, classify_elementName hk, if_pos hblank]
    exact hname

/-- Everywhere else a value is in the category of its element type. -/
theorem categoryOf_value (hf : ¬ IsComposed r f) (hb : ¬ IsBareAlias r f) :
    categoryOf r f = .ofGroup (classify (storageOf r f).element) := by
  cases h : r.classifier? f.typed.type with
  | none => exact categoryOf_unresolved h
  | some c =>
    rw [categoryOf_eq h, element_eq h]
    cases hk : c.kind with
    | objectClass => exact absurd ⟨c, h, Or.inl hk⟩ hf
    | dataType => exact absurd ⟨c, h, Or.inr hk⟩ hf
    | enumeration => exact ofClassifier_enumeration r hk
    | primitiveType =>
      rw [ofClassifier_primitive r hk, classify_elementName hk]
      split_ifs with hblank
      · have hname : classify c.name = .none := by
          by_contra hname
          exact hb ⟨c, h, hk, hblank, hname⟩
        rw [hname, classify_of_isBlankText hblank]
      · rfl

/-- The categories of groups are those of values. -/
theorem Category.ofGroup_ne (g : PrimitiveClass) :
    Category.ofGroup g ≠ .reference ∧ Category.ofGroup g ≠ .struct := by
  cases g <;> decide

end

/-- **Marshalling and storage agree**, but for primitive types that are known by a name only. -/
theorem categoryOf_storage (r : Registry) (f : Feature) : MarshalsAsStored r f where
  composed_iff := by
    constructor
    · intro h
      by_contra hf
      by_cases hb : IsBareAlias r f
      · rw [(categoryOf_bare hb).1] at h
        simp at h
      · rw [categoryOf_value hf hb] at h
        exact h.elim (Category.ofGroup_ne _).1 (Category.ofGroup_ne _).2
    · rintro ⟨c, h, hc⟩
      rw [categoryOf_eq h, ofClassifier_composed r hc]
      split_ifs <;> simp
  reference_iff c h hc := by
    rw [categoryOf_eq h, ofClassifier_composed r hc]
    split_ifs with hf <;> simp [hf]
  group_iff hf := by
    constructor
    · intro h hb
      obtain ⟨hverbatim, hgroup⟩ := categoryOf_bare hb
      exact hgroup ((h .none).1 hverbatim)
    · intro hb g
      rw [categoryOf_value hf hb]
      exact Category.ofGroup_injective.eq_iff
  bare h := (categoryOf_bare h).1
  written := classify_spell _

/-! A gauge whose readings are of the primitive type "double", which names no base. -/

def gaugeReading : Attribute :=
  { id := "reading", name := "reading", parent := "gauge", typed := { type := "double" } }

def gaugeModel : Registry := Registry.prepare { elements := [
  .classifier { id := "gauge", name := "Gauge", stereotype := "SimObject" },
  .classifier { id := "double", name := "double", kind := .primitiveType },
  .attribute gaugeReading] }

/-- The reading is stored as a floating number, but marshalled verbatim. -/
theorem gauge_reading_marshalled_verbatim :
    IsBareAlias gaugeModel (.attribute gaugeReading) ∧
    (storageOf gaugeModel (.attribute gaugeReading)).elementType = "double" ∧
    classify (storageOf gaugeModel (.attribute gaugeReading)).element = .floating ∧
    categoryOf gaugeModel (.attribute gaugeReading) = .verbatim := by
  refine ⟨⟨{ id := "double", name := "double", kind := .primitiveType }, ?_⟩, ?_⟩
  · decide +kernel
  · decide +kernel

end Lowering

end ObjectLowering
