/-
  How members name the classes and data types that are their types.

  The code of a class or data type declares the identifier of its name, and
  that identifier is what other code includes or declares.  The type of a
  member is spelled by another rule, the one for primitive types.

  * `spell_eq_ident_iff`: the two rules agree exactly on the names that are
    identifiers, blanks around them apart, and that no primitive type has
    with another spelling.
  * `lowerAll_type_names`: hence in the code of a batch the type of a member
    is the declared one iff its classifier has such a name.
-/
import ObjectLowering.Proofs.Accessors
import ObjectLowering.Proofs.Batches

namespace ObjectLowering

namespace Text

theorem exists_stretch_of_inTable {table : List Stretch} {n : Nat} (h : inTable table n = true) :
    ∃ s ∈ table, s.first ≤ n ∧ n ≤ s.last := by
  induction table with
  | nil => cases h
  | cons s rest ih =>
    rw [inTable] at h
    split_ifs at h with hlt
    rcases Bool.or_eq_true _ _ ▸ h with hs | hrest
    · simp only [Stretch.covers, Bool.and_eq_true, decide_eq_true_eq] at hs
      exact ⟨s, List.mem_cons_self, hs.1⟩
    · obtain ⟨x, hx, hn⟩ := ih hrest
      exact ⟨x, List.mem_cons_of_mem _ hx, hn⟩

theorem dropWhileEnd_append (p : Char → Bool) (cs : List Char) :
    ∃ tail, cs = dropWhileEnd p cs ++ tail ∧ ∀ c ∈ tail, p c = true := by
  refine ⟨(cs.reverse.takeWhile p).reverse, ?_, fun c hc => ?_⟩
  · rw [dropWhileEnd, ← List.reverse_append, List.takeWhile_append_dropWhile, List.reverse_reverse]
  · exact List.mem_takeWhile_imp (List.mem_reverse.1 hc)

theorem dropWhileEnd_append_of_last {p : Char → Bool} {xs : List Char} {c : Char}
    (hlast : xs.getLast? = some c) (hc : p c = false) (ys : List Char) :
    dropWhileEnd p (xs ++ ys) = xs ++ dropWhileEnd p ys := by
  obtain ⟨front, rfl⟩ := List.getLast?_eq_some_iff.1 hlast
  have hkept : (front ++ [c]).reverse.dropWhile p = (front ++ [c]).reverse := by simp [hc]
  rw [dropWhileEnd, dropWhileEnd, List.reverse_append, List.dropWhile_append, hkept]
  split_ifs with h
  · rw [List.isEmpty_iff.1 h, List.reverse_reverse, List.reverse_nil, List.append_nil]
  · rw [List.reverse_append, List.reverse_reverse]

end Text

namespace Code

open Text

/-! ## Blanks around a name -/

theorem blankTable_outside_names : (blankTable.all fun s =>
    misses s.first s.last letterTable && misses s.first s.last digitTable &&
      !(Nat.ble s.first 0x5f && Nat.ble 0x5f s.last)) = true := by
  decide +kernel

/-- Blanks are no part of identifiers. -/
theorem isNameChar_of_isBlank {c : Char} (h : isBlank c = true) : isNameChar c = false := by
  obtain ⟨s, hs, hfirst, hlast⟩ := exists_stretch_of_inTable h
  have hout := List.all_eq_true.1 blankTable_outside_names s hs
  simp only [Bool.and_eq_true, Bool.not_eq_true'] at hout
  obtain ⟨⟨hletters, hdigits⟩, hline⟩ := hout
  have hc : c ≠ '_' := by
    rintro rfl
    have hin : (Nat.ble s.first 0x5f && Nat.ble 0x5f s.last) = true :=
      Bool.and_eq_true_iff.2 ⟨Nat.ble_eq_true_of_le hfirst, Nat.ble_eq_true_of_le hlast⟩
    rw [hin] at hline
    cases hline
  simp [isNameChar, isLetter, isDigit, notInTable_of_misses hletters hfirst hlast,
    notInTable_of_misses hdigits hfirst hlast, hc]

theorem closeGaps_append_gap {tail : List Char} (h : ∀ c ∈ tail, isNameChar c = false)
    (cs : List Char) (gap : Bool) : closeGaps gap (cs ++ tail) = closeGaps gap cs := by
  induction cs generalizing gap with
  | nil =>
    rw [List.nil_append, closeGaps]
    induction tail generalizing gap with
    | nil => rfl
    | cons c tail ih =>
      rw [closeGaps, if_neg (by simp [h c])]
      exact ih (fun x hx => h x (List.mem_cons_of_mem _ hx)) true
  | cons c cs ih => simp only [List.cons_append, closeGaps, ih]

theorem identBody_append_gap {tail : List Char} (h : ∀ c ∈ tail, isNameChar c = false)
    (cs : List Char) : identBody (cs ++ tail) = identBody cs := by
  induction cs with
  | nil =>
    have hdrop : tail.dropWhile (fun c => !isNameChar c) = [] :=
      List.dropWhile_eq_nil_iff.2 fun c hc => by simp [h c hc]
    rw [identBody, List.nil_append, hdrop]
    rfl
  | cons c cs ih =>
    unfold identBody at ih ⊢
    by_cases hc : isNameChar c = true
    · rw [List.cons_append, List.dropWhile_cons_of_neg (by simp [hc]),
        List.dropWhile_cons_of_neg (by simp [hc]), ← List.cons_append, closeGaps_append_gap h]
    · rw [List.cons_append, List.dropWhile_cons_of_pos (by simp [hc]),
        List.dropWhile_cons_of_pos (by simp [hc]), ih]

theorem identBody_dropWhile {p : Char → Bool} (h : ∀ c, p c = true → isNameChar c = false)
    (cs : List Char) : identBody (cs.dropWhile p) = identBody cs := by
  induction cs with
  | nil => rfl
  | cons c cs ih =>
    by_cases hc : p c = true
    · rw [List.dropWhile_cons_of_pos hc, ih, identBody, identBody,
        List.dropWhile_cons_of_pos (by simp [h c hc])]
    · rw [List.dropWhile_cons_of_neg hc]

/-- Blanks around a name leave its identifier as it is. -/
theorem ident_trim (name : String) : ident (trim name) = ident name := by
  obtain ⟨tail, hsplit, htail⟩ := dropWhileEnd_append isBlank (name.toList.dropWhile isBlank)
  have hbody : identBody (trimList isBlank name.toList) = identBody name.toList := by
    rw [← identBody_dropWhile (fun c => isNameChar_of_isBlank) name.toList, hsplit,
      identBody_append_gap fun c hc => isNameChar_of_isBlank (htail c hc)]
    rfl
  rw [ident, trim, String.toList_ofList, hbody, ident]

/-! ## Spelling as a type -/

/-- The names that are spelled as types by their identifier: identifiers, blanks around them apart,
    that no primitive type has with another spelling. -/
def IsTypeName (name : String) : Prop :=
  IsIdentifier (trim name) ∧
    ∀ s, primitiveSpellings.lookup (trim name) = some s → s = trim name

theorem ident_of_mem_primitiveSpellings : ∀ p ∈ primitiveSpellings, ident p.1 = p.1 := by
  decide +kernel

theorem ident_of_lookup {name s : String} (h : primitiveSpellings.lookup name = some s) :
    ident name = name := by
  obtain ⟨before, after, hsplit, -⟩ := List.lookup_eq_some_iff.1 h
  have hmem : (name, s) ∈ primitiveSpellings := by
    rw [hsplit]
    exact List.mem_append_right _ List.mem_cons_self
  exact ident_of_mem_primitiveSpellings (name, s) hmem

/-- **Where the two rules agree.** -/
theorem spell_eq_ident_iff (name : String) : spell name = ident name ↔ IsTypeName name := by
  rw [spell, IsTypeName, ← ident_trim name]
  cases h : primitiveSpellings.lookup (trim name) with
  | none =>
    simp only [Option.getD_none, reduceCtorEq, false_implies, implies_true, and_true]
    constructor
    · intro he
      rw [he]
      exact isIdentifier_ident _
    · exact fun hi => hi.ident_eq.symm
  | some s =>
    have hname := ident_of_lookup h
    have hi : IsIdentifier (trim name) := hname ▸ isIdentifier_ident (trim name)
    simp [hname, hi]

/-! ## Declared names -/

/-- The name that a text opens with as that of a struct or of a class. -/
def declaredName? (text : String) : Option String :=
  ["struct ", "class "].findSome? fun word =>
    if word.toList.isPrefixOf text.toList then
      some (String.ofList ((text.toList.drop word.length).takeWhile isNameChar))
    else none

theorem takeWhile_identifier {name : String} (h : IsIdentifier name) (rest : List Char) :
    (name.toList ++ ' ' :: rest).takeWhile isNameChar = name.toList := by
  have hblank : isNameChar ' ' = false := isNameChar_of_isBlank (by decide)
  rw [List.takeWhile_append_of_pos h.chars, List.takeWhile_cons_of_neg (by simp [hblank]),
    List.append_nil]

theorem declaredName?_eq {word name : String} (hword : word ∈ ["struct ", "class "])
    (h : IsIdentifier name) (rest : String) :
    declaredName? (word ++ name ++ (" " ++ rest)) = some name := by
  have hname := takeWhile_identifier h rest.toList
  have hlengths : "struct ".length = 7 ∧ "class ".length = 6 := by decide
  simp only [List.mem_cons, List.not_mem_nil, or_false] at hword
  rcases hword with rfl | rfl <;> simp [declaredName?, hlengths, hname]

theorem Stream.lines_front (s : Stream) (es : List Edit) :
    s.lines.toList <+: (es.foldl Stream.apply s).lines.toList := by
  induction es generalizing s with
  | nil => exact List.prefix_rfl
  | cons e es ih =>
    refine List.IsPrefix.trans ?_ (ih (s.apply e))
    cases e <;> simp [Stream.apply, Stream.line]

theorem render_opening (head : String) (h : head ≠ "") (es : List Edit) :
    ∃ rest, render (.opening head :: es) = head ++ (" \x7b\n" ++ rest) := by
  obtain ⟨more, hmore⟩ := Stream.lines_front (Stream.apply {} (.opening head)) es
  refine ⟨String.join (more.map (· ++ "\n")), ?_⟩
  have hfirst : (Stream.apply {} (.opening head)).lines.toList = [head ++ " \x7b"] := by
    simp [Stream.apply, Stream.line, openingText, h, indented]
  rw [render, List.foldl_cons, Stream.text, ← hmore, hfirst, List.map_append, String.join_append,
    ← String.toList_inj]
  simp [String.join]

/-- A name that is opened is declared, also with more behind a blank. -/
theorem declaredName?_render {word name more : String} (hword : word ∈ ["struct ", "class "])
    (h : IsIdentifier name) (hmore : more = "" ∨ ∃ tail, more = " " ++ tail) (es : List Edit) :
    declaredName? (render (.opening (word ++ name ++ more) :: es)) = some name := by
  have hne : word ++ name ++ more ≠ "" := by simp [h.ne_empty]
  obtain ⟨rest, hrest⟩ := render_opening _ hne es
  rw [hrest]
  rcases hmore with rfl | ⟨tail, rfl⟩
  · rw [String.append_empty]
    exact declaredName?_eq hword h ("\x7b\n" ++ rest)
  · have htext : word ++ name ++ (" " ++ tail) ++ (" \x7b\n" ++ rest) =
        word ++ name ++ (" " ++ (tail ++ (" \x7b\n" ++ rest))) := by
      simp only [String.append_assoc]
    rw [htext]
    exact declaredName?_eq hword h _

/-! ## Lines -/

theorem hasLine_of_mem {es : List Edit} {text : String} {c : Char} (h : Edit.line text ∈ es)
    (hlast : text.toList.getLast? = some c) :
    ∃ depth, HasLine (render es) (indented depth text) := by
  obtain ⟨before, after, rfl⟩ := List.append_of_mem h
  refine ⟨_, hasLine_render before after ?_⟩
  rintro rfl
  cases hlast

/-- Line feeds at the end of a text can be cut off, all but one. -/
theorem HasLine.trimEnd {text line : String} {c : Char} (h : HasLine text line)
    (hlast : line.toList.getLast? = some c) (hc : c ≠ '\n') :
    HasLine (Text.trimEnd (· == '\n') text ++ "\n") line := by
  obtain ⟨lines, rfl, hmem⟩ := h
  obtain ⟨before, after, rfl⟩ := List.append_of_mem hmem
  set front := String.join (before.map (· ++ "\n")) with hfront
  set back := String.join (after.map (· ++ "\n")) with hback
  have htext : (String.join ((before ++ line :: after).map (· ++ "\n"))).toList =
      (front ++ line).toList ++ '\n' :: back.toList := by
    rw [List.map_append, String.join_append, List.map_cons, String.join_cons]
    simp [← hfront, ← hback]
  have hkept : (front ++ line).toList.getLast? = some c :=
    Lowering.getLast?_append_text front hlast
  -- what is left behind the line is nothing, or a line feed and a last line
  obtain ⟨tail, hsplit, -⟩ := dropWhileEnd_append (· == '\n') ('\n' :: back.toList)
  rw [Text.trimEnd, htext, dropWhileEnd_append_of_last hkept (by simpa using hc)]
  cases hrest : dropWhileEnd (· == '\n') ('\n' :: back.toList) with
  | nil =>
    refine ⟨before ++ [line], ?_, by simp⟩
    rw [List.map_append, String.join_append, ← hfront, ← String.toList_inj]
    simp
  | cons x rest =>
    rw [hrest, List.cons_append] at hsplit
    obtain ⟨rfl, -⟩ := List.cons.inj hsplit
    refine ⟨before ++ [line, String.ofList rest], ?_, by simp⟩
    rw [List.map_append, String.join_append, ← hfront, ← String.toList_inj]
    simp

end Code

namespace Lowering

open Model Code Text

/-! ## The type of a member in the code -/

/-- The type of a member whose elements have a given type. -/
def Storage.typeOf (s : Storage) (element : String) : String :=
  let e := if s.isShared then "std::shared_ptr<" ++ element ++ ">" else element
  match s.shape with
  | .optional => if s.isShared then e else "std::optional<" ++ e ++ ">"
  | .keyed => "std::map<" ++ s.keyType ++ ", " ++ e ++ ">"
  | .scalar => e

theorem Storage.typeOf_inj {s : Storage} {a b : String} : s.typeOf a = s.typeOf b ↔ a = b := by
  refine ⟨fun h => ?_, fun h => h ▸ rfl⟩
  rw [← String.toList_inj] at h ⊢
  cases hshared : s.isShared <;> cases hshape : s.shape <;>
    simpa [typeOf, hshared, hshape] using h

namespace Member

/-- The class or data type that is the type of a member. -/
def composite? (m : Member) : Option Classifier :=
  m.storage.classifier.filter fun c => c.kind == .objectClass || c.kind == .dataType

/-- The line that declares a member whose elements have a given type. -/
def lineOf (m : Member) (element : String) : String :=
  let value := trim m.feature.typed.default
  let initializer :=
    if value ≠ "" ∧ m.storage.shape = .scalar ∧ !m.storage.isShared then
      "\x7b" ++ value ++ "\x7d"
    else ""
  m.storage.typeOf element ++ " " ++ m.ident ++ initializer ++ ";"

/-- The statement that writes a member. -/
def assignment (m : Member) (base : String) : String :=
  Accessor.writeAccess m.storage base (Accessor.conversion m.category m.storage)

/-- The statement that writes a member whose elements are structs of a given type. -/
def assignmentOf (m : Member) (base element : String) : String :=
  let target :=
    if m.storage.shape = .keyed then base ++ "[" ++ Location.indexOf m.storage ++ "]" else base
  let value := "value.Get<" ++ element ++ ">()"
  if m.storage.isShared then
    target ++ " = std::make_shared<" ++ element ++ ">(" ++ value ++ ");"
  else target ++ " = " ++ value ++ ";"

theorem line_eq (m : Member) : m.line = m.lineOf m.storage.elementType := rfl

theorem assignment_eq {m : Member} (h : m.category = .struct) (base : String) :
    m.assignment base = m.assignmentOf base m.storage.elementType := by
  rw [assignment, h]
  rfl

theorem lineOf_inj {m : Member} {a b : String} : m.lineOf a = m.lineOf b ↔ a = b := by
  refine ⟨fun h => ?_, fun h => h ▸ rfl⟩
  have htype : m.storage.typeOf a = m.storage.typeOf b := by
    rw [← String.toList_inj] at h ⊢
    simpa [lineOf] using h
  exact Storage.typeOf_inj.1 htype

theorem assignmentOf_inj {m : Member} {base a b : String} :
    m.assignmentOf base a = m.assignmentOf base b ↔ a = b := by
  refine ⟨fun h => ?_, fun h => h ▸ rfl⟩
  simp only [assignmentOf] at h
  generalize (if m.storage.shape = .keyed then _ else base) = target at h
  rw [← String.toList_inj] at h ⊢
  cases hshared : m.storage.isShared with
  | false => simpa [hshared] using h
  | true =>
    simp only [hshared, if_true, String.toList_append, List.append_assoc,
      List.append_cancel_left_eq] at h
    -- the element type stands there twice, so the lengths decide where it ends
    refine List.append_inj_left h ?_
    have hlength := congrArg List.length h
    simp only [List.length_append] at hlength
    omega

theorem composite?_eq_some {m : Member} {c : Classifier} :
    m.composite? = some c ↔
      m.storage.classifier = some c ∧ (c.kind = .objectClass ∨ c.kind = .dataType) := by
  simp [composite?, Option.filter_eq_some_iff]

end Member

section
variable {r : Registry} {c d : Classifier} {stem : String} {m : Member}

/-- The element type of a class or data type is spelled after its name. -/
theorem elementType_of_composite (hm : m ∈ dataOf r d stem) (hc : m.composite? = some c) :
    m.storage.elementType = spell c.name := by
  obtain ⟨x, f, -, -, rfl⟩ := mem_membersOf_flatten.1 (mem_dataOf.1 hm)
  obtain ⟨hclassifier, hkind⟩ := Member.composite?_eq_some.1 hc
  have hresolve : r.classifier? f.typed.type = some c := hclassifier
  have helement : (storageOf r f).element = c.name := by
    rcases hkind with hkind | hkind <;> simp [storageOf, hresolve, elementName, hkind]
  exact congrArg spell helement

theorem category_of_composite (hm : m ∈ dataOf r d stem) (hc : m.composite? = some c)
    (href : m.category ≠ .reference) : m.category = .struct := by
  obtain ⟨x, f, -, -, rfl⟩ := mem_membersOf_flatten.1 (mem_dataOf.1 hm)
  obtain ⟨hclassifier, hkind⟩ := Member.composite?_eq_some.1 hc
  have hresolve : r.classifier? f.typed.type = some c := hclassifier
  have hcategory : (memberOf r stem x.owner f).category = .ofClassifier r c := by
    simp [memberOf, categoryOf, hresolve]
  rw [hcategory, Category.ofClassifier] at href ⊢
  by_cases hf : family r c = .simObject
  · rw [hf] at href
    exact absurd rfl href
  · rw [family_eq_struct hkind hf]

end

/-! ## What the code of a member needs -/

theorem mem_sortedSet {x : String} {ts : List String} : x ∈ sortedSet ts ↔ x ∈ ts := by
  rw [sortedSet, sortTexts, List.mem_mergeSort, List.mem_eraseDups]

/-- The identifier of the type of a member is included, or for shared members at least declared. -/
theorem needsOf_names {self c : Classifier} {members : List Member} {m : Member} (hm : m ∈ members)
    (hc : m.composite? = some c) (hself : c.id ≠ self.id) :
    ident c.name ∈ (needsOf self members).includes ∨
      m.storage.isShared = true ∧ ident c.name ∈ (needsOf self members).forwards := by
  obtain ⟨hclassifier, hkind⟩ := Member.composite?_eq_some.1 hc
  have hcomposite : m.storage.isComposite = true := by
    rcases hkind with hkind | hkind <;> simp [Storage.isComposite, hclassifier, hkind]
  have hdependency : m.storage.dependency self = some c := by
    simp [Storage.dependency, hclassifier, Option.filter_eq_some_iff, hself]
  simp only [needsOf, mem_sortedSet, List.mem_filter, List.mem_filterMap, List.mem_map]
  have hnamed : (m.storage.dependency self).map (fun c => ident c.name) = some (ident c.name) := by
    rw [hdependency]
    rfl
  cases hshared : m.storage.isShared with
  | false =>
    have hdefinition : m.storage.needsDefinition = true := by
      simp [Storage.needsDefinition, Storage.isForwardOnly, hcomposite, hshared]
    exact Or.inl ⟨_, ⟨m, hm, rfl⟩, by rw [if_pos hdefinition, hnamed]⟩
  | true =>
    have hforward : m.storage.isForwardOnly = true := by
      simp [Storage.isForwardOnly, hcomposite, hshared]
    rw [or_iff_not_imp_left]
    intro hnot
    refine ⟨rfl, ⟨_, ⟨m, hm, rfl⟩, by rw [if_pos hforward, hnamed]⟩, ?_⟩
    simpa using hnot

/-! ## Lines of a unit -/

/-- The locations that a simulation object has a statement to write. -/
def assignedLocations (r : Registry) (stems : Stems) (u : CodeUnit) : List Location :=
  if u.family = .simObject then
    Accessor.setValue.locations (Plan.of r stems u.classifier).survey.locations
  else []

section
variable {r : Registry} {stems : Stems} {t t' : IdTable} {c : Classifier} {u : CodeUnit}
  {m : Member} {l : Location}

theorem structUnit_declaration (r : Registry) (stems : Stems) (c : Classifier) :
    (structUnit r stems c).declaration =
      render (structEdits (ident c.name) (.ofFlattened (flatten r c stems.feature))) := by
  rw [structUnit]

theorem Plan.unit_declaration (p : Plan) (r : Registry) (stems : Stems) (ids : List IdEntry) :
    (p.unit r stems ids).declaration = render (p.declarationEdits r ids) := by
  rw [Plan.unit]

theorem Plan.declarationEdits_opening (p : Plan) (r : Registry) (ids : List IdEntry) :
    ∃ es, p.declarationEdits r ids =
      .opening ("class " ++ p.name ++ " : public sim::SimObject") :: es := by
  simp only [Plan.declarationEdits, List.cons_append, List.append_assoc]
  exact ⟨_, rfl⟩

theorem declaredName?_of_lowerClass (hl : lowerClass r stems t c = (t', .ok u))
    (hc : c.kind = .objectClass ∨ c.kind = .dataType) :
    declaredName? u.declaration = some (ident c.name) := by
  have hident := isIdentifier_ident c.name
  rcases lowerClass_sorts hl with ⟨hk, -⟩ | ⟨hk, -⟩ | ⟨-, rfl⟩ | ⟨-, ids, rfl⟩
  · simp [hk] at hc
  · simp [hk] at hc
  · have hempty : "struct " ++ ident c.name = "struct " ++ ident c.name ++ "" :=
      String.append_empty.symm
    rw [structUnit_declaration, structEdits, List.cons_append, hempty]
    exact declaredName?_render (by simp) hident (Or.inl rfl) _
  · obtain ⟨es, hes⟩ := (Plan.of r stems c).declarationEdits_opening r ids
    rw [Plan.unit_declaration, hes]
    exact declaredName?_render (by simp) hident (Or.inr ⟨": public sim::SimObject", by decide⟩) es

theorem mem_dataOf_of_lowerClass (hl : lowerClass r stems t c = (t', .ok u)) (hm : m ∈ u.data) :
    m ∈ dataOf r c stems.feature ∧ u.needs = needsOf c u.data := by
  rcases lowerClass_sorts hl with ⟨-, rfl⟩ | ⟨-, rfl⟩ | ⟨-, rfl⟩ | ⟨-, ids, rfl⟩
  · cases hm
  · cases hm
  · exact ⟨hm, rfl⟩
  · exact ⟨hm, rfl⟩

theorem Member.line_last (m : Member) : m.line.toList.getLast? = some ';' :=
  getLast?_append_text _ rfl

theorem Plan.mem_headed {first es : List Edit} {e : Edit} (h : e ∈ es) : e ∈ headed first es := by
  rw [headed, if_neg (by simpa using List.ne_nil_of_mem h)]
  exact List.mem_append_right _ h

theorem hasLine_declaration (hl : lowerClass r stems t c = (t', .ok u)) (hm : m ∈ u.data) :
    ∃ depth, HasLine u.declaration (indented depth m.line) := by
  rcases lowerClass_sorts hl with ⟨-, rfl⟩ | ⟨-, rfl⟩ | ⟨-, rfl⟩ | ⟨-, ids, rfl⟩
  · cases hm
  · cases hm
  · have hmem : Edit.line m.line ∈
        structEdits (ident c.name) (.ofFlattened (flatten r c stems.feature)) := by
      rw [structEdits]
      exact List.mem_append_left _ (List.mem_cons_of_mem _ (List.mem_map.2 ⟨m, hm, rfl⟩))
    rw [structUnit_declaration]
    exact hasLine_of_mem hmem m.line_last
  · have hmem : Edit.line m.line ∈ (Plan.of r stems c).declarationEdits r ids := by
      have hline : Edit.line m.line ∈ Plan.headed [.line ""]
          ((Plan.of r stems c).features.data.map fun m => Edit.line m.line) :=
        Plan.mem_headed (List.mem_map.2 ⟨m, hm, rfl⟩)
      exact List.mem_append_left _ (List.mem_append_left _ (List.mem_append_left _
        (List.mem_append_right _ hline)))
    rw [Plan.unit_declaration]
    exact hasLine_of_mem hmem m.line_last

theorem Accessor.mem_edits {a : Accessor} {ls : List Location} {e : Edit} (h : l ∈ a.locations ls)
    (he : e ∈ a.statements l.member (a.base l)) (className : String) (vs : List StateVariable) :
    e ∈ a.edits className ls vs := by
  have hcase : e ∈ a.caseEdits l := List.mem_append_left _ (List.mem_append_right _ he)
  have hcases : e ∈ (a.locations ls).flatMap a.caseEdits := List.mem_flatMap.2 ⟨l, h, hcase⟩
  simp only [edits, List.mem_append, hcases, or_true, true_or]

theorem Member.assignment_last (m : Member) (base : String) :
    (m.assignment base).toList.getLast? = some ';' := Accessor.writeAccess_last _ _ _

theorem indented_last {text : String} {x : Char} (h : text.toList.getLast? = some x)
    (depth : Nat) : (indented depth text).toList.getLast? = some x := getLast?_append_text _ h

/-- A simulation object has a statement for each location that it writes. -/
theorem hasLine_definition (hl : lowerClass r stems t c = (t', .ok u))
    (h : l ∈ assignedLocations r stems u) :
    ∃ depth, HasLine u.definition (indented depth (l.member.assignment l.writeBase)) := by
  unfold assignedLocations at h
  split_ifs at h with hf
  · rcases lowerClass_sorts hl with ⟨hk, rfl⟩ | ⟨hk, rfl⟩ | ⟨-, rfl⟩ | ⟨-, ids, rfl⟩
    · simp [enumerationUnit, family, hk] at hf
    · simp [aliasUnit, family, hk] at hf
    · cases hf
    · have hmem : Edit.line (l.member.assignment l.writeBase) ∈
          (Plan.of r stems c).definitionEdits r stems := by
        have hcase := Accessor.mem_edits h List.mem_cons_self (Plan.of r stems c).name
          ((Plan.of r stems c).stateVariables stems)
        refine List.mem_append_left _ (List.mem_append_left _ ?_)
        exact List.mem_flatMap.2 ⟨.setValue, by simp [Accessor.all], List.mem_append_left _ hcase⟩
      have hlast := l.member.assignment_last l.writeBase
      obtain ⟨depth, hline⟩ := hasLine_of_mem hmem hlast
      exact ⟨depth, hline.trimEnd (indented_last hlast depth) (by decide)⟩
  · cases h

end

/-! ## Agreement of names -/

/-- The members whose type a unit spells: those it declares and those it writes. -/
def usedMembers (r : Registry) (stems : Stems) (u : CodeUnit) : List Member :=
  u.data ++ (assignedLocations r stems u).map (·.member)

/-- The type of every member that is a class or data type is written as the identifier of its
    name. -/
def NamesAgree (r : Registry) (stems : Stems) (units : List CodeUnit) : Prop :=
  ∀ u ∈ units, ∀ c,
    (∀ m ∈ u.data, m.composite? = some c → m.line = m.lineOf (ident c.name)) ∧
    (∀ l ∈ assignedLocations r stems u, l.member.composite? = some c →
      l.member.assignment l.writeBase = l.member.assignmentOf l.writeBase (ident c.name))

/-- How the units of a batch name the classes and data types of members. -/
structure TypeNames (r : Registry) (stems : Stems) (b : Batch) : Prop where
  /-- The code of a class or data type declares the identifier of its name. -/
  declared : ∀ v ∈ b.units, v.classifier.kind = .objectClass ∨ v.classifier.kind = .dataType →
    declaredName? v.declaration = some (ident v.classifier.name)
  /-- Every type of a member that has a name has code in a batch without failures. -/
  own : b.hasFailed = false → ∀ u ∈ b.units, ∀ m ∈ usedMembers r stems u, ∀ c,
    m.composite? = some c → isBlankText c.name = false → ∃ v ∈ b.units, v.classifier = c
  /-- The identifier is what a unit includes, or declares for a shared member, unless it is its
      own. -/
  needed : ∀ u ∈ b.units, ∀ m ∈ u.data, ∀ c, m.composite? = some c → c.id ≠ u.classifier.id →
    ident c.name ∈ u.needs.includes ∨
      m.storage.isShared = true ∧ ident c.name ∈ u.needs.forwards
  /-- Members are declared, and written by the accessors, with lines of the code. -/
  lines : ∀ u ∈ b.units, ∀ m ∈ u.data, ∃ depth, HasLine u.declaration (indented depth m.line)
  assignments : ∀ u ∈ b.units, ∀ l ∈ assignedLocations r stems u, ∃ depth,
    HasLine u.definition (indented depth (l.member.assignment l.writeBase))
  /-- There the type is written as the identifier iff the name is that of a type. -/
  line_iff : ∀ u ∈ b.units, ∀ m ∈ u.data, ∀ c, m.composite? = some c →
    (m.line = m.lineOf (ident c.name) ↔ IsTypeName c.name)
  assignment_iff : ∀ u ∈ b.units, ∀ l ∈ assignedLocations r stems u, ∀ c,
    l.member.composite? = some c →
    (l.member.assignment l.writeBase = l.member.assignmentOf l.writeBase (ident c.name) ↔
      IsTypeName c.name)
  /-- So the names of the types decide whether all of it agrees. -/
  agree_iff : NamesAgree r stems b.units ↔
    ∀ u ∈ b.units, ∀ m ∈ usedMembers r stems u, ∀ c, m.composite? = some c → IsTypeName c.name

section
variable {r : Registry} {stems : Stems} {t t' : IdTable} {c d : Classifier} {u : CodeUnit}
  {m : Member} {l : Location}

theorem Reached.mem_dataOf {stem : String} (h : Reached r c stem l) :
    ∃ d stem', l.member ∈ dataOf r d stem' := by
  cases h with
  | top hm => exact ⟨_, _, hm⟩
  | inside _ _ hx => exact ⟨_, _, hx⟩

theorem reached_of_mem_assignedLocations (h : l ∈ assignedLocations r stems u) :
    Reached r u.classifier stems.feature l ∧ l.member.category ≠ .reference := by
  unfold assignedLocations at h
  split_ifs at h
  · obtain ⟨hl, hcovers⟩ := List.mem_filter.1 h
    refine ⟨reached_of_mem_locations hl, fun href => ?_⟩
    simp [Accessor.covers, href, Accessor.isReference] at hcovers
  · cases h

theorem mem_dataOf_of_used (hl : lowerClass r stems t c = (t', .ok u))
    (hm : m ∈ usedMembers r stems u) : ∃ d stem, m ∈ dataOf r d stem := by
  rcases List.mem_append.1 hm with hm | hm
  · exact ⟨_, _, (mem_dataOf_of_lowerClass hl hm).1⟩
  · obtain ⟨l, hl, rfl⟩ := List.mem_map.1 hm
    exact (reached_of_mem_assignedLocations hl).1.mem_dataOf

theorem line_eq_iff {stem : String} (hm : m ∈ dataOf r d stem) (hc : m.composite? = some c) :
    m.line = m.lineOf (ident c.name) ↔ IsTypeName c.name := by
  rw [Member.line_eq, Member.lineOf_inj, elementType_of_composite hm hc, spell_eq_ident_iff]

theorem assignment_eq_iff (h : l ∈ assignedLocations r stems u)
    (hc : l.member.composite? = some c) :
    l.member.assignment l.writeBase = l.member.assignmentOf l.writeBase (ident c.name) ↔
      IsTypeName c.name := by
  obtain ⟨hreached, href⟩ := reached_of_mem_assignedLocations h
  obtain ⟨d, stem, hm⟩ := hreached.mem_dataOf
  rw [Member.assignment_eq (category_of_composite hm hc href), Member.assignmentOf_inj,
    elementType_of_composite hm hc, spell_eq_ident_iff]

end

/-- **How types are named in a batch**, whatever the registry, the stems, the ids and the time at
    which it is cancelled. -/
theorem lowerAll_type_names (r : Registry) (stems : Stems) (ids : IdTable)
    (cancel : Cancellation) : TypeNames r stems (lowerAll r stems ids cancel) := by
  set b := lowerAll r stems ids cancel with hb
  have hcall : ∀ u ∈ b.units, ∃ t t', lowerClass r stems t u.classifier = (t', .ok u) := by
    intro u hu
    obtain ⟨-, -, ops, t, hl⟩ := mem_units hu
    exact ⟨_, _, hl⟩
  have hline : ∀ u ∈ b.units, ∀ m ∈ u.data, ∀ c, m.composite? = some c →
      (m.line = m.lineOf (ident c.name) ↔ IsTypeName c.name) := by
    intro u hu m hm c hc
    obtain ⟨t, t', hl⟩ := hcall u hu
    exact line_eq_iff (mem_dataOf_of_lowerClass hl hm).1 hc
  have hassignment : ∀ u ∈ b.units, ∀ l ∈ assignedLocations r stems u, ∀ c,
      l.member.composite? = some c →
      (l.member.assignment l.writeBase = l.member.assignmentOf l.writeBase (ident c.name) ↔
        IsTypeName c.name) := fun u _ l hl c hc => assignment_eq_iff hl hc
  refine {
    declared := fun v hv hk => ?_
    own := fun hok u hu m hm c hc hname => ?_
    needed := fun u hu m hm c hc hself => ?_
    lines := fun u hu m hm => ?_
    assignments := fun u hu l hl => ?_
    line_iff := hline
    assignment_iff := hassignment
    agree_iff := ⟨fun h u hu m hm c hc => ?_,
      fun h u hu c => ⟨fun m hm hc => ?_, fun l hl hc => ?_⟩⟩ }
  · obtain ⟨t, t', hl⟩ := hcall v hv
    exact declaredName?_of_lowerClass hl hk
  · obtain ⟨t, t', hl⟩ := hcall u hu
    obtain ⟨d, stem, hm⟩ := mem_dataOf_of_used hl hm
    obtain ⟨hclassifier, hkind⟩ := Member.composite?_eq_some.1 hc
    have heligible : isEligible c = true := by
      rcases hkind with hkind | hkind <;> simp [isEligible, hkind, hname]
    have hmem : c ∈ b.units.map (·.classifier) := by
      rw [units_classifiers hok]
      exact List.mem_filter.2 ⟨classifier_of_mem_dataOf hm hclassifier, heligible⟩
    exact List.mem_map.1 hmem
  · obtain ⟨t, t', hl⟩ := hcall u hu
    rw [(mem_dataOf_of_lowerClass hl hm).2]
    exact needsOf_names hm hc hself
  · obtain ⟨t, t', hl⟩ := hcall u hu
    exact hasLine_declaration hl hm
  · obtain ⟨t, t', hl'⟩ := hcall u hu
    exact hasLine_definition hl' hl
  · rcases List.mem_append.1 hm with hm | hm
    · exact (hline u hu m hm c hc).1 ((h u hu c).1 m hm hc)
    · obtain ⟨l, hl, rfl⟩ := List.mem_map.1 hm
      exact (hassignment u hu l hl c hc).1 ((h u hu c).2 l hl hc)
  · exact (hline u hu m hm c hc).2 (h u hu m (List.mem_append_left _ hm) c hc)
  · exact (hassignment u hu l hl c hc).2
      (h u hu l.member (List.mem_append_right _ (List.mem_map_of_mem hl)) c hc)

/-! A tanker has a valve, whose name is that of a type, and a fuel tank and a gauge, whose names are
    not: one has a blank, the other is that of a primitive type. -/

def tankFarm : Registry := Registry.prepare { elements := [
  .classifier { id := "tanker", name := "Tanker", stereotype := "SimObject" },
  .classifier { id := "tank", name := "Fuel Tank", kind := .dataType },
  .classifier { id := "gauge", name := "Real", kind := .dataType },
  .classifier { id := "valve", name := " Valve", kind := .dataType },
  .attribute { id := "a1", name := "main", parent := "tanker", typed := { type := "tank" } },
  .attribute { id := "a2", name := "spare", parent := "tanker",
               typed := { type := "tank", aggregation := .shared } },
  .attribute { id := "a3", name := "gauge", parent := "tanker",
               typed := { type := "gauge", multiplicity := .optional } },
  .attribute { id := "a4", name := "valves", parent := "tanker",
               typed := { type := "valve", multiplicity := .zeroMany } }] }

/-- The code of a fuel tank is called `Fuel_Tank`, but what a tanker writes is `Fuel Tank`, and for
    a gauge called `Real` it is `double`. -/
theorem tanker_names_disagree :
    (lowerAll tankFarm (.ofTexts "" "") { hash := Digest.XxHash.hash } .never).hasFailed = false ∧
    ((lowerAll tankFarm (.ofTexts "" "") { hash := Digest.XxHash.hash } .never).units.map fun u =>
      (u.name, u.data.map (·.line))) = [
        ("Tanker", ["Fuel Tank main;", "std::shared_ptr<Fuel Tank> spare;",
          "std::optional<double> gauge;", "std::map<uint64_t, Valve> valves;"]),
        ("Fuel_Tank", []), ("Real", []), ("Valve", [])] ∧
    ¬ NamesAgree tankFarm (.ofTexts "" "")
      (lowerAll tankFarm (.ofTexts "" "") { hash := Digest.XxHash.hash } .never).units := by
  refine ⟨by decide +kernel, by decide +kernel, fun h => ?_⟩
  have hbad : ((lowerAll tankFarm (.ofTexts "" "") { hash := Digest.XxHash.hash } .never).units.any
      fun u => u.data.any fun m => m.composite?.any fun c =>
        m.line != m.lineOf (ident c.name)) = true := by decide +kernel
  obtain ⟨u, hu, hbad⟩ := List.any_eq_true.1 hbad
  obtain ⟨m, hm, hbad⟩ := List.any_eq_true.1 hbad
  obtain ⟨c, hc, hbad⟩ := (Option.any_eq_true _ _).1 hbad
  exact bne_iff_ne.1 hbad ((h u hu c).1 m hm hc)

end Lowering

end ObjectLowering
