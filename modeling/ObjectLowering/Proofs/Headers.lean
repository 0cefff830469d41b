/-
  The standard headers that a declaration needs.

  A declaration spells types of the standard library in two ways: the storage
  of a member adds them around its element type, and the name of a type may
  stand for one or spell one out, in members and in operations.

  * `Spells`: a text spells a library type, as one of its qualified names.
  * `Storage.spells_type`: what the type of a member spells.
  * `lowerClass_headers`: headers are listed for what members use
    (`Storage.Uses`).  So the list is complete exactly if every library type
    that the name of a type spells is used by some member.  What an operation
    spells is not looked at (`signpost_label_without_header`).
-/
import ObjectLowering.Proofs.MemberIdentifiers
import ObjectLowering.Proofs.TypeNames

namespace ObjectLowering

namespace Code

/-! ## Types of the standard library -/

/-- The types of the standard library that declarations use. -/
inductive LibraryType where
  | map
  | optional
  | sharedPtr
  | string
deriving DecidableEq, Repr

namespace LibraryType

/-- The name of the type. -/
def spelling : LibraryType → String
  | .map => "std::map"
  | .optional => "std::optional"
  | .sharedPtr => "std::shared_ptr"
  | .string => "std::string"

/-- The header that defines the type. -/
def header : LibraryType → String
  | .map => "map"
  | .optional => "optional"
  | .sharedPtr => "memory"
  | .string => "string"

theorem spelling_injective {s t : LibraryType} (h : s.spelling.toList = t.spelling.toList) :
    s = t := by
  revert h
  cases s <;> cases t <;> decide

theorem spelling_ne_nil (t : LibraryType) : t.spelling.toList ≠ [] := by
  cases t <;> decide

end LibraryType

/-- A character of a qualified name. -/
def isQualifiedChar (c : Char) : Bool := isNameChar c || c == ':'

/-- The qualified names in a text, which are its longest stretches of characters of such names. -/
def qualifiedNames (cs : List Char) : List (List Char) := cs.splitOnP fun c => !isQualifiedChar c

/-- A library type is one of the qualified names in a text. -/
def Spells (text : String) (t : LibraryType) : Prop :=
  t.spelling.toList ∈ qualifiedNames text.toList

instance (text : String) (t : LibraryType) : Decidable (Spells text t) :=
  inferInstanceAs (Decidable (_ ∈ _))

/-- Names on both sides of a mark are told apart. -/
theorem qualifiedNames_append {mark : Char} (h : isQualifiedChar mark = false)
    (before after : List Char) :
    qualifiedNames (before ++ mark :: after) = qualifiedNames before ++ qualifiedNames after :=
  List.splitOnP_append_cons before after (by simp [h])

theorem all_isQualifiedChar (t : LibraryType) : t.spelling.toList.all isQualifiedChar = true := by
  cases t <;> decide +kernel

theorem qualifiedNames_spelling (t : LibraryType) :
    qualifiedNames t.spelling.toList = [t.spelling.toList] := by
  refine List.splitOnP_eq_singleton fun c hc => ?_
  have hchar := List.all_eq_true.1 (all_isQualifiedChar t) c hc
  simp [hchar]

theorem all_marks : (['<', '>', ',', ' '].all fun mark => !isQualifiedChar mark) = true := by
  decide +kernel

theorem isQualifiedChar_of_mark {mark : Char} (h : mark ∈ ['<', '>', ',', ' ']) :
    isQualifiedChar mark = false := by
  have hmark := List.all_eq_true.1 all_marks mark h
  rwa [Bool.not_eq_true'] at hmark

theorem mem_qualifiedNames_spelling {s t : LibraryType} :
    t.spelling.toList ∈ qualifiedNames s.spelling.toList ↔ t = s := by
  rw [qualifiedNames_spelling, List.mem_singleton]
  exact ⟨LibraryType.spelling_injective, fun h => h ▸ rfl⟩

theorem not_mem_qualifiedNames_nil (t : LibraryType) :
    t.spelling.toList ∉ qualifiedNames [] := by
  rw [qualifiedNames, List.splitOnP_nil, List.mem_singleton]
  exact t.spelling_ne_nil

/-- A template with one argument spells itself and what the argument spells. -/
theorem spells_applied (s t : LibraryType) (argument : String) :
    Spells (s.spelling ++ "<" ++ argument ++ ">") t ↔ t = s ∨ Spells argument t := by
  have htext : (s.spelling ++ "<" ++ argument ++ ">").toList =
      s.spelling.toList ++ '<' :: (argument.toList ++ '>' :: []) := by simp
  rw [Spells, htext, qualifiedNames_append (isQualifiedChar_of_mark (by simp)),
    qualifiedNames_append (isQualifiedChar_of_mark (by simp)), List.mem_append, List.mem_append,
    mem_qualifiedNames_spelling, or_iff_left (not_mem_qualifiedNames_nil t)]
  rfl

/-- A template with two arguments spells itself and what the arguments spell. -/
theorem spells_applied₂ (s t : LibraryType) (first second : String) :
    Spells (s.spelling ++ "<" ++ first ++ ", " ++ second ++ ">") t ↔
      t = s ∨ Spells first t ∨ Spells second t := by
  have htext : (s.spelling ++ "<" ++ first ++ ", " ++ second ++ ">").toList =
      s.spelling.toList ++ '<' :: (first.toList ++ ',' :: ([] ++ ' ' ::
        (second.toList ++ '>' :: []))) := by simp
  rw [Spells, htext, qualifiedNames_append (isQualifiedChar_of_mark (by simp)),
    qualifiedNames_append (isQualifiedChar_of_mark (by simp)),
    qualifiedNames_append (isQualifiedChar_of_mark (by simp)),
    qualifiedNames_append (isQualifiedChar_of_mark (by simp))]
  simp only [List.mem_append, mem_qualifiedNames_spelling, not_mem_qualifiedNames_nil, false_or,
    or_false]
  rfl

theorem classify_eq_text_iff (name : String) :
    classify name = .text ↔ spell name = LibraryType.string.spelling := by
  rw [classify, PrimitiveClass.ofSpelling]
  constructor
  · intro h
    split_ifs at h
    assumption
  · intro h
    rw [h]
    decide

/-! ## Parts of a text -/

/-- A text stands in another one. -/
def PartOf (part text : String) : Prop := ∃ before after, text = before ++ part ++ after

namespace PartOf

variable {x y z : String}

theorem refl (x : String) : PartOf x x := ⟨"", "", by simp⟩

theorem append_left (h : PartOf x y) (z : String) : PartOf x (z ++ y) := by
  obtain ⟨before, after, rfl⟩ := h
  exact ⟨z ++ before, after, by simp only [String.append_assoc]⟩

theorem append_right (h : PartOf x y) (z : String) : PartOf x (y ++ z) := by
  obtain ⟨before, after, rfl⟩ := h
  exact ⟨before, after ++ z, by simp only [String.append_assoc]⟩

theorem trans (hxy : PartOf x y) (hyz : PartOf y z) : PartOf x z := by
  obtain ⟨before, after, rfl⟩ := hyz
  exact (hxy.append_left before).append_right after

end PartOf

theorem partOf_intercalate {texts : List String} {text : String} (h : text ∈ texts)
    (mark : String) : PartOf text (String.intercalate mark texts) := by
  induction texts with
  | nil => cases h
  | cons first rest ih =>
    cases rest with
    | nil =>
      rw [List.mem_singleton.1 h, String.intercalate_singleton]
      exact .refl first
    | cons second rest =>
      rw [String.intercalate_cons_cons]
      rcases List.mem_cons.1 h with rfl | h
      · exact ((PartOf.refl text).append_right mark).append_right _
      · exact (ih h).append_left _

end Code

namespace Lowering

open Model Code Text

/-! ## Storage -/

namespace Storage

/-- The storage of a member adds a library type to its element type. -/
def Wraps (s : Storage) : LibraryType → Prop
  | .map => s.shape = .keyed
  | .optional => s.shape = .optional ∧ s.isShared = false
  | .sharedPtr => s.isShared = true
  | .string => False

/-- A member uses a library type: its storage adds it, or it is the one for texts, and elements or
    keys are texts. -/
def Uses (s : Storage) (t : LibraryType) : Prop :=
  s.Wraps t ∨ t = .string ∧ (classify s.element = .text ∨ classify s.key = .text)

/-- The names of types that the type of a member is put together from. -/
def typeNames (s : Storage) : List String :=
  s.element :: if s.shape = .keyed then [s.key] else []

instance (s : Storage) : (t : LibraryType) → Decidable (s.Wraps t)
  | .map => inferInstanceAs (Decidable (s.shape = .keyed))
  | .optional => inferInstanceAs (Decidable (s.shape = .optional ∧ s.isShared = false))
  | .sharedPtr => inferInstanceAs (Decidable (s.isShared = true))
  | .string => inferInstanceAs (Decidable False)

instance (s : Storage) (t : LibraryType) : Decidable (s.Uses t) :=
  inferInstanceAs (Decidable (_ ∨ _))

/-- What an element type in a pointer, if it is shared, spells. -/
theorem spells_shared (s : Storage) (t : LibraryType) :
    Spells (if s.isShared then "std::shared_ptr<" ++ s.elementType ++ ">" else s.elementType) t ↔
      t = .sharedPtr ∧ s.isShared = true ∨ Spells s.elementType t := by
  have hname : LibraryType.sharedPtr.spelling ++ "<" = "std::shared_ptr<" := by decide
  have hpointer := spells_applied .sharedPtr t s.elementType
  rw [hname] at hpointer
  cases hshared : s.isShared with
  | true => simpa using hpointer
  | false => simp

/-- **What the type of a member spells**: what its storage adds, and what names of types spell. -/
theorem spells_type (s : Storage) (t : LibraryType) :
    Spells s.type t ↔ s.Wraps t ∨ ∃ name ∈ s.typeNames, Spells (spell name) t := by
  have helement := s.spells_shared t
  cases hshape : s.shape with
  | scalar =>
    have hwraps : s.Wraps t ↔ t = .sharedPtr ∧ s.isShared = true := by
      cases t <;> simp [Wraps, hshape]
    have hnames : (∃ name ∈ s.typeNames, Spells (spell name) t) ↔ Spells s.elementType t := by
      simp [typeNames, hshape, elementType]
    rw [hwraps, hnames, ← helement, type, hshape]
  | optional =>
    have hwraps : s.Wraps t ↔
        t = .sharedPtr ∧ s.isShared = true ∨ t = .optional ∧ s.isShared = false := by
      cases t <;> simp [Wraps, hshape]
    have hnames : (∃ name ∈ s.typeNames, Spells (spell name) t) ↔ Spells s.elementType t := by
      simp [typeNames, hshape, elementType]
    have hname : LibraryType.optional.spelling ++ "<" = "std::optional<" := by decide
    have happlied := spells_applied .optional t s.elementType
    rw [hname] at happlied
    rw [hwraps, hnames, type, hshape]
    cases hshared : s.isShared with
    | true => simpa [hshared] using helement
    | false => simpa using happlied
  | keyed =>
    have hwraps : s.Wraps t ↔ t = .sharedPtr ∧ s.isShared = true ∨ t = .map := by
      cases t <;> simp [Wraps, hshape]
    have hnames : (∃ name ∈ s.typeNames, Spells (spell name) t) ↔
        Spells s.elementType t ∨ Spells s.keyType t := by
      simp [typeNames, hshape, elementType, keyType]
    have hname : LibraryType.map.spelling ++ "<" = "std::map<" := by decide
    have happlied := spells_applied₂ .map t s.keyType
      (if s.isShared then "std::shared_ptr<" ++ s.elementType ++ ">" else s.elementType)
    have htype : s.type = "std::map<" ++ s.keyType ++ ", " ++
        (if s.isShared then "std::shared_ptr<" ++ s.elementType ++ ">" else s.elementType) ++
        ">" := by
      rw [type, hshape]
    rw [hname, helement, ← htype] at happlied
    rw [hwraps, hnames, happlied]
    simp only [or_assoc, or_comm]

/-- Names of texts among those of elements and keys. -/
theorem classify_of_mem_typeNames (s : Storage) {name : String} (h : name ∈ s.typeNames)
    (htext : classify name = .text) : classify s.element = .text ∨ classify s.key = .text := by
  rw [typeNames] at h
  split_ifs at h
  · rcases List.mem_cons.1 h with rfl | h
    · exact Or.inl htext
    · exact Or.inr (List.mem_singleton.1 h ▸ htext)
  · exact Or.inl (List.mem_singleton.1 h ▸ htext)

theorem header_mem_headers (s : Storage) (t : LibraryType) : t.header ∈ s.headers ↔ s.Uses t := by
  rw [headers, List.mem_append, List.mem_append, Uses]
  cases t <;> cases hshape : s.shape <;> cases hshared : s.isShared <;>
    by_cases htext : classify s.element = .text ∨ classify s.key = .text <;>
    simp [LibraryType.header, Wraps, hshape, hshared, htext]

end Storage

theorem header_mem_needsOf (self : Classifier) (members : List Member) (t : LibraryType) :
    t.header ∈ (needsOf self members).headers ↔ ∃ m ∈ members, m.storage.Uses t := by
  have hbase : t.header ≠ "cstdint" := by cases t <;> decide
  simp only [needsOf, mem_sortedSet, List.mem_cons, hbase, false_or, List.mem_flatMap,
    List.mem_map, exists_exists_and_eq_and, Storage.header_mem_headers]

/-! ## Declared types -/

/-- The names of types in an operation: that of the result, then those of the parameters. -/
def typeNamesOf (o : Operation) : List String :=
  (if isBlankText o.returns then "void" else o.returns) :: o.parameters.map (·.type)

namespace CodeUnit

/-- The operations that a declaration has; structs have none. -/
def operations (u : CodeUnit) : List Operation :=
  if u.family = .simObject then (u.features.map (·.operations)).getD [] else []

/-- The types in a declaration: those of members, and in operations those of results and
    parameters. -/
def declaredTypes (u : CodeUnit) : List String :=
  u.data.map (·.storage.type) ++ (u.operations.flatMap typeNamesOf).map spell

/-- The names that stand for types in the model. -/
def typeNames (u : CodeUnit) : List String :=
  u.data.flatMap (·.storage.typeNames) ++ u.operations.flatMap typeNamesOf

/-- Every library type that is spelled in the declaration has its header. -/
def HasHeaders (u : CodeUnit) : Prop :=
  ∀ type ∈ u.declaredTypes, ∀ t, Spells type t → t.header ∈ u.needs.headers

end CodeUnit

/-- What the headers of a unit cover. -/
structure HeaderCoverage (u : CodeUnit) : Prop where
  /-- The declared types stand in lines of the declaration. -/
  declared : ∀ type ∈ u.declaredTypes, ∃ depth line,
    HasLine u.declaration (indented depth line) ∧ PartOf type line
  /-- A header is listed iff a member uses its type. -/
  listed_iff : ∀ t, t.header ∈ u.needs.headers ↔ ∃ m ∈ u.data, m.storage.Uses t
  /-- Members are covered, if names that spell out a library type stand for texts. -/
  member : ∀ m ∈ u.data,
    (∀ name ∈ m.storage.typeNames, ∀ t, Spells (spell name) t →
      spell name = LibraryType.string.spelling) →
    ∀ t, Spells m.storage.type t → t.header ∈ u.needs.headers
  /-- The list is complete iff members use all that names of types spell. -/
  complete_iff : u.HasHeaders ↔
    ∀ name ∈ u.typeNames, ∀ t, Spells (spell name) t → ∃ m ∈ u.data, m.storage.Uses t

section
variable {r : Registry} {stems : Stems} {t t' : IdTable} {c : Classifier} {u : CodeUnit}

/-! ## Lines of types -/

theorem Member.partOf_line (m : Member) : PartOf m.storage.type m.line := by
  rw [Member.line, String.append_assoc, String.append_assoc, String.append_assoc]
  exact (PartOf.refl _).append_right _

/-- The types of an operation stand in its line. -/
theorem partOf_operationLine {o : Operation} {name : String} (h : name ∈ typeNamesOf o) :
    PartOf (spell name) (operationLine o) := by
  rw [operationLine]
  rcases List.mem_cons.1 h with rfl | h
  · simp only [String.append_assoc]
    exact (PartOf.refl _).append_right _
  · obtain ⟨p, hp, rfl⟩ := List.mem_map.1 h
    have htype : PartOf (spell p.type) (spell p.type ++ " " ++ ident p.name) :=
      ((PartOf.refl _).append_right _).append_right _
    have hparameter : PartOf (spell p.type ++ " " ++ ident p.name) (String.intercalate ", "
        (o.parameters.map fun p => spell p.type ++ " " ++ ident p.name)) :=
      partOf_intercalate (List.mem_map.2 ⟨p, hp, rfl⟩) ", "
    exact ((((htype.trans hparameter).append_left _).append_right _).append_right _).append_right _

theorem operationLine_last (o : Operation) :
    (operationLine o).toList.getLast? = some ';' := getLast?_append_text _ rfl

theorem hasLine_operation (hl : lowerClass r stems t c = (t', .ok u)) {o : Operation}
    (ho : o ∈ u.operations) :
    ∃ depth, HasLine u.declaration (indented depth (operationLine o)) := by
  rw [CodeUnit.operations] at ho
  split_ifs at ho with hf
  · rcases lowerClass_sorts hl with ⟨-, rfl⟩ | ⟨-, rfl⟩ | ⟨-, rfl⟩ | ⟨-, ids, rfl⟩
    · cases ho
    · cases ho
    · cases hf
    · have hmem : Edit.line (operationLine o) ∈ (Plan.of r stems c).declarationEdits r ids := by
        have hline : Edit.line (operationLine o) ∈ Plan.headed [.line ""]
            ((Plan.of r stems c).features.operations.map fun o => Edit.line (operationLine o)) :=
          Plan.mem_headed (List.mem_map.2 ⟨o, ho, rfl⟩)
        exact List.mem_append_left _ (List.mem_append_left _ (List.mem_append_right _ hline))
      rw [Plan.unit_declaration]
      exact hasLine_of_mem hmem (operationLine_last o)
  · cases ho

theorem hasLine_declaredType (hl : lowerClass r stems t c = (t', .ok u)) {type : String}
    (h : type ∈ u.declaredTypes) : ∃ depth line,
      HasLine u.declaration (indented depth line) ∧ PartOf type line := by
  rcases List.mem_append.1 h with h | h
  · obtain ⟨m, hm, rfl⟩ := List.mem_map.1 h
    obtain ⟨depth, hline⟩ := hasLine_declaration hl hm
    exact ⟨depth, m.line, hline, m.partOf_line⟩
  · obtain ⟨name, hname, rfl⟩ := List.mem_map.1 h
    obtain ⟨o, ho, hname⟩ := List.mem_flatMap.1 hname
    obtain ⟨depth, hline⟩ := hasLine_operation hl ho
    exact ⟨depth, operationLine o, hline, partOf_operationLine hname⟩

/-! ## Coverage -/

theorem header_mem_of_lowerClass (hl : lowerClass r stems t c = (t', .ok u)) (x : LibraryType) :
    x.header ∈ u.needs.headers ↔ ∃ m ∈ u.data, m.storage.Uses x := by
  have hdefault : x.header ∉ ({} : Needs).headers := by cases x <;> decide
  rcases lowerClass_sorts hl with ⟨-, rfl⟩ | ⟨-, rfl⟩ | ⟨-, rfl⟩ | ⟨-, ids, rfl⟩
  · simpa [enumerationUnit, CodeUnit.data] using hdefault
  · simpa [aliasUnit, CodeUnit.data] using hdefault
  · exact header_mem_needsOf c _ x
  · exact header_mem_needsOf c _ x

/-- What the declared types spell comes from storage or from names. -/
theorem CodeUnit.spells_declared (u : CodeUnit) (x : LibraryType) :
    (∃ type ∈ u.declaredTypes, Spells type x) ↔
      (∃ m ∈ u.data, m.storage.Wraps x) ∨ ∃ name ∈ u.typeNames, Spells (spell name) x := by
  constructor
  · rintro ⟨type, htype, hspells⟩
    rcases List.mem_append.1 htype with htype | htype
    · obtain ⟨m, hm, rfl⟩ := List.mem_map.1 htype
      rcases (m.storage.spells_type x).1 hspells with hwraps | ⟨name, hname, hspells⟩
      · exact Or.inl ⟨m, hm, hwraps⟩
      · exact Or.inr ⟨name, List.mem_append_left _ (List.mem_flatMap.2 ⟨m, hm, hname⟩), hspells⟩
    · obtain ⟨name, hname, rfl⟩ := List.mem_map.1 htype
      exact Or.inr ⟨name, List.mem_append_right _ hname, hspells⟩
  · rintro (⟨m, hm, hwraps⟩ | ⟨name, hname, hspells⟩)
    · exact ⟨_, List.mem_append_left _ (List.mem_map_of_mem hm),
        (m.storage.spells_type x).2 (Or.inl hwraps)⟩
    · rcases List.mem_append.1 hname with hname | hname
      · obtain ⟨m, hm, hname⟩ := List.mem_flatMap.1 hname
        exact ⟨_, List.mem_append_left _ (List.mem_map_of_mem hm),
          (m.storage.spells_type x).2 (Or.inr ⟨name, hname, hspells⟩)⟩
      · exact ⟨_, List.mem_append_right _ (List.mem_map_of_mem hname), hspells⟩

end

/-- **What the headers cover**: the members of a class, but not its operations. -/
theorem lowerClass_headers {r : Registry} {stems : Stems} {t t' : IdTable} {c : Classifier}
    {u : CodeUnit} (hl : lowerClass r stems t c = (t', .ok u)) : HeaderCoverage u := by
  have hlisted := header_mem_of_lowerClass hl
  refine {
    declared := fun type h => hasLine_declaredType hl h
    listed_iff := hlisted
    member := fun m hm hnames x hspells => (hlisted x).2 ⟨m, hm, ?_⟩
    complete_iff := ⟨fun h name hname x hspells => ?_, fun h type htype x hspells => ?_⟩ }
  · rcases (m.storage.spells_type x).1 hspells with hwraps | ⟨name, hname, hspells⟩
    · exact Or.inl hwraps
    · have htext := hnames name hname x hspells
      rw [htext] at hspells
      exact Or.inr ⟨mem_qualifiedNames_spelling.1 hspells,
        m.storage.classify_of_mem_typeNames hname ((classify_eq_text_iff name).2 htext)⟩
  · obtain ⟨type, htype, hspells⟩ := (u.spells_declared x).2 (Or.inr ⟨name, hname, hspells⟩)
    exact (hlisted x).1 (h type htype x hspells)
  · rcases (u.spells_declared x).1 ⟨type, htype, hspells⟩ with
      ⟨m, hm, hwraps⟩ | ⟨name, hname, hspells⟩
    · exact (hlisted x).2 ⟨m, hm, Or.inl hwraps⟩
    · exact (hlisted x).2 (h name hname x hspells)

/-! A plate has members of all library types; a signpost has an operation only, which returns a
    text. -/

def signpost : Classifier := { id := "signpost", name := "Signpost", stereotype := "SimObject" }

def plate : Classifier := { id := "plate", name := "Plate", kind := .dataType }

def roads : Registry := Registry.prepare { elements := [
  .classifier signpost,
  .classifier plate,
  .operation { id := "o1", name := "label", parent := "signpost", returns := "string" },
  .attribute { id := "m1", name := "names", parent := "plate",
               typed := { typeName := "string", multiplicity := .zeroMany } },
  .attribute { id := "m2", name := "range", parent := "plate",
               typed := { typeName := "double", multiplicity := .optional } },
  .attribute { id := "m3", name := "twin", parent := "plate",
               typed := { type := "plate", aggregation := .shared } }] }

theorem plate_has_headers :
    ∃ t u, lowerClass roads (.ofTexts "" "") { hash := Digest.XxHash.hash } plate = (t, .ok u) ∧
      u.declaredTypes =
        ["std::map<uint64_t, std::string>", "std::optional<double>", "std::shared_ptr<Plate>"] ∧
      (∀ x : LibraryType, x.header ∈ u.needs.headers) ∧ u.HasHeaders := by
  have hl := lowerClass_struct (r := roads) (c := plate) (Or.inr rfl) (by decide +kernel)
    (.ofTexts "" "") { hash := Digest.XxHash.hash }
  have hcoverage := lowerClass_headers hl
  have huses : ∀ x ∈ [LibraryType.map, .optional, .sharedPtr, .string],
      ∃ m ∈ (structUnit roads (.ofTexts "" "") plate).data, m.storage.Uses x := by
    decide +kernel
  have hall : ∀ x, ∃ m ∈ (structUnit roads (.ofTexts "" "") plate).data, m.storage.Uses x :=
    fun x => huses x (by cases x <;> decide)
  exact ⟨_, _, hl, by decide +kernel, fun x => (hcoverage.listed_iff x).2 (hall x),
    hcoverage.complete_iff.2 fun _ _ x _ => hall x⟩

/-- The lines of the code of a signpost. -/
def signpostLines : List String := [
  "class Signpost : public sim::SimObject \x7b", "public:",
  "    void GetValue(uint64_t id, const sim::Key& index, sim::Value& value) const override;",
  "    void SetValue(uint64_t id, const sim::Key& index, const sim::Value& value) override;",
  "    sim::ObjectRef GetReference(uint64_t id, const sim::Key& index) const override;",
  "    void SetReference(uint64_t id, const sim::Key& index, const sim::ObjectRef& ref) override;",
  "    void RemoveReference(uint64_t id, const sim::Key& index) override;",
  "", "    std::string label();", "\x7d;"]

/-- The code of a signpost spells the type of texts, and lists no header for it. -/
theorem signpost_label_without_header :
    ∃ t u, lowerClass roads (.ofTexts "" "") { hash := Digest.XxHash.hash } signpost = (t, .ok u) ∧
      HasLine u.declaration "    std::string label();" ∧ u.declaredTypes = ["std::string"] ∧
      u.needs.headers = ["cstdint"] ∧ ¬ u.HasHeaders := by
  have hf : family roads signpost = .simObject := by decide +kernel
  have hgranted : ((({ hash := Digest.XxHash.hash } : IdTable).withScope signpost.id).claimAll
      signpost.id (classClaims roads (.ofTexts "" "") signpost)).2.2 = none := by decide +kernel
  obtain ⟨t, u, hl⟩ := lowerClass_of_granted hf hgranted
  have hunit : (lowerClass roads (.ofTexts "" "")
      { hash := Digest.XxHash.hash } signpost).2.toOption.map
      (fun u => (u.declaration, u.declaredTypes, u.needs.headers)) =
      some (String.join (signpostLines.map (· ++ "\n")), ["std::string"], ["cstdint"]) := by
    decide +kernel
  rw [hl] at hunit
  simp only [Except.toOption, Option.map_some, Option.some.injEq, Prod.mk.injEq] at hunit
  obtain ⟨hdeclaration, htypes, hheaders⟩ := hunit
  have hline : "    std::string label();" ∈ signpostLines := by simp [signpostLines]
  refine ⟨t, u, hl, ⟨signpostLines, hdeclaration, hline⟩, htypes, hheaders, fun h => ?_⟩
  have hstring := h "std::string" (htypes ▸ List.mem_singleton_self _) .string (by decide +kernel)
  rw [hheaders] at hstring
  exact absurd hstring (by decide)

end Lowering

end ObjectLowering
