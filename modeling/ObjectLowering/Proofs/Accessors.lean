/-
  What the accessors of a simulation object agree on.

  * `casesOf` reads the cases of a switch back from its code.
  * `PassesThrough`: an access expression leads through members of given
    names.
  * `HasLine`: a text has a line.
  * The main statement, `lowerClass_accessors_agree`, is about the code of a
    class that was lowered: one label means one member path in every
    accessor, and has a constant with its id.
-/
import ObjectLowering.Model.Prepare
import ObjectLowering.Proofs.Identifiers
import ObjectLowering.Proofs.Lowering
import ObjectLowering.Proofs.MemberPaths

namespace ObjectLowering

/-! ## Lines of a text -/

namespace Code

/-- A text consists of lines, one of which is given. -/
def HasLine (text line : String) : Prop :=
  ∃ lines : List String, text = String.join (lines.map (· ++ "\n")) ∧ line ∈ lines

theorem Stream.apply_lines (s : Stream) (e : Edit) : s.lines.toList ⊆ (s.apply e).lines.toList := by
  intro x hx
  cases e <;> simp [Stream.apply, Stream.line] <;> grind

theorem Stream.foldl_lines (s : Stream) (es : List Edit) :
    s.lines.toList ⊆ (es.foldl Stream.apply s).lines.toList := by
  induction es generalizing s with
  | nil => exact fun x hx => hx
  | cons e es ih => exact List.Subset.trans (s.apply_lines e) (ih (s.apply e))

/-- A line between other edits is written at the depth that the edits before it lead to. -/
theorem hasLine_render (before after : List Edit) {text : String} (h : text ≠ "") :
    HasLine (render (before ++ .line text :: after))
      (indented (before.foldl Stream.apply {}).depth text) := by
  refine ⟨_, rfl, ?_⟩
  rw [List.foldl_append, List.foldl_cons]
  apply Stream.foldl_lines
  simp [Stream.apply, Stream.line, h]

/-- Plain lines leave the depth as it is. -/
theorem depth_foldl_lines (s : Stream) (texts : List String) :
    ((texts.map Edit.line).foldl Stream.apply s).depth = s.depth := by
  induction texts generalizing s with
  | nil => rfl
  | cons x texts ih => rw [List.map_cons, List.foldl_cons, ih]; rfl

end Code

namespace Lowering

open Model Code Text

/-! ## Cases of a switch -/

/-- A case of a switch. -/
structure Case where
  label : String
  body : List Edit
deriving DecidableEq, Repr

/-- The label of an edit that writes the head of a case. -/
def caseLabel? : Edit → Option String
  | .line text =>
    if "case ".toList <+: text.toList ∧ text.toList.getLast? = some ':' then
      some (String.ofList (text.toList.drop 5).dropLast)
    else none
  | _ => none

/-- The cases of a switch; a case ends where the indentation of its body does. -/
def casesOf : List Edit → List Case
  | [] => []
  | e :: es =>
    match caseLabel? e with
    | some label => ⟨label, es.tail.takeWhile (· ≠ .dedent)⟩ :: casesOf es
    | none => casesOf es

/-- An edit that neither starts nor ends a case. -/
def IsStatement (e : Edit) : Prop := caseLabel? e = none ∧ e ≠ .dedent

theorem getLast?_append_text (s : String) {t : String} {c : Char} (h : t.toList.getLast? = some c) :
    (s ++ t).toList.getLast? = some c := by
  rw [String.toList_append, List.getLast?_append, h]
  rfl

theorem caseLabel?_case (label : String) :
    caseLabel? (.line ("case " ++ label ++ ":")) = some label := by
  have hlast : ("case " ++ label ++ ":").toList.getLast? = some ':' :=
    getLast?_append_text _ rfl
  have hfront : "case ".toList <+: ("case " ++ label ++ ":").toList := by
    simp only [String.toList_append, List.append_assoc]
    exact List.prefix_append _ _
  have hdrop : (("case " ++ label ++ ":").toList.drop 5).dropLast = label.toList := by
    have : "case ".toList.length = 5 := rfl
    simp only [String.toList_append, List.append_assoc]
    rw [← this, List.drop_left]
    exact List.dropLast_concat
  rw [caseLabel?, if_pos ⟨hfront, hlast⟩, hdrop, String.ofList_toList]

theorem isStatement_line {text : String} (h : text.toList.getLast? = some ';') :
    IsStatement (.line text) := by
  refine ⟨?_, by simp⟩
  rw [caseLabel?, if_neg]
  rintro ⟨-, hc⟩
  rw [h] at hc
  exact absurd hc (by decide)

theorem isStatement_break : IsStatement (.line "break;") := isStatement_line rfl

/-- A case may be one statement and its end. -/
theorem isStatement_breaking {text : String} (h : text.toList.getLast? = some ';') :
    ∀ e ∈ [Edit.line text, .line "break;"], IsStatement e :=
  List.forall_mem_cons.2 ⟨isStatement_line h, List.forall_mem_singleton.2 isStatement_break⟩

theorem casesOf_append_of_forall {es : List Edit} (h : ∀ e ∈ es, caseLabel? e = none)
    (rest : List Edit) : casesOf (es ++ rest) = casesOf rest := by
  induction es with
  | nil => rfl
  | cons e es ih =>
    rw [List.cons_append, casesOf, h e List.mem_cons_self]
    exact ih fun e he => h e (List.mem_cons_of_mem _ he)

theorem casesOf_labelled {body : List Edit} (h : ∀ e ∈ body, IsStatement e) (label : String)
    (rest : List Edit) :
    casesOf (Accessor.labelled label body ++ rest) = ⟨label, body⟩ :: casesOf rest := by
  have hbody : (body ++ Edit.dedent :: rest).takeWhile (· ≠ .dedent) = body := by
    rw [List.takeWhile_append_of_pos fun e he => by simpa using (h e he).2]
    simp
  have hrest : casesOf (body ++ Edit.dedent :: rest) = casesOf rest :=
    casesOf_append_of_forall (fun e he => (h e he).1) _
  have heq : Accessor.labelled label body ++ rest =
      .line ("case " ++ label ++ ":") :: .indent :: (body ++ .dedent :: rest) := by
    simp [Accessor.labelled]
  rw [heq, casesOf, caseLabel?_case]
  simp only [List.tail_cons, hbody]
  exact congrArg _ hrest

/-- Cases side by side are read one by one. -/
theorem casesOf_flatMap {α : Type} {label : α → String} {body : α → List Edit} (xs : List α)
    (h : ∀ x ∈ xs, ∀ e ∈ body x, IsStatement e) (rest : List Edit) :
    casesOf (xs.flatMap (fun x => Accessor.labelled (label x) (body x)) ++ rest) =
      xs.map (fun x => ⟨label x, body x⟩) ++ casesOf rest := by
  induction xs with
  | nil => rfl
  | cons x xs ih =>
    rw [List.flatMap_cons, List.append_assoc, casesOf_labelled (h x List.mem_cons_self),
      ih fun y hy => h y (List.mem_cons_of_mem _ hy)]
    rfl

/-! ## Cases of the accessors -/

namespace Accessor

theorem getStatement_last (c : Category) (expr : String) :
    (getStatement c expr).toList.getLast? = some ';' := by
  cases c <;> exact getLast?_append_text _ rfl

theorem writeAccess_last (s : Storage) (base value : String) :
    (writeAccess s base value).toList.getLast? = some ';' := by
  unfold writeAccess
  by_cases hs : s.isShared = true
  · rw [if_pos hs]; exact getLast?_append_text _ rfl
  · rw [if_neg hs]; exact getLast?_append_text _ rfl

theorem isStatement_of_mem_statements {a : Accessor} {m : Member} {base : String} {e : Edit}
    (h : e ∈ a.statements m base) : IsStatement e := by
  cases a with
  | getValue =>
    simp only [statements] at h
    split at h
    · simp only [List.mem_cons, List.not_mem_nil, or_false] at h
      rcases h with rfl | rfl | rfl | rfl
      · exact ⟨rfl, by simp⟩
      · exact isStatement_line (getStatement_last _ _)
      · exact ⟨rfl, by simp⟩
      · exact isStatement_break
    · exact isStatement_breaking (getStatement_last _ _) e h
  | setValue =>
    simp only [statements] at h
    exact isStatement_breaking (writeAccess_last _ _ _) e h
  | getReference =>
    simp only [statements] at h
    split_ifs at h
    all_goals
      obtain rfl := List.mem_singleton.1 h
      exact isStatement_line (getLast?_append_text _ rfl)
  | setReference | removeReference =>
    simp only [statements] at h
    split_ifs at h
    all_goals
      refine isStatement_breaking ?_ e h
      exact getLast?_append_text _ rfl

/-- The case that an accessor has for a location. -/
def caseOf (a : Accessor) (l : Location) : Case := ⟨ident l.key, a.statements l.member (a.base l)⟩

/-- A location has a case in the accessor that reads its sort. -/
theorem exists_covers (l : Location) : ∃ a : Accessor, a.covers l = true := by
  by_cases h : l.member.category = .reference
  · exact ⟨.getReference, by simp [covers, h, isReference, writes]⟩
  · exact ⟨.getValue, by simp [covers, h, isReference, writes]⟩

end Accessor

/-- A state variable has one case or none. -/
theorem StateVariable.caseEdits_cases (v : StateVariable) (a : Accessor) :
    v.caseEdits a = [] ∨ ∃ body, v.caseEdits a = Accessor.labelled (ident v.key) body ∧
      ∀ e ∈ body, IsStatement e := by
  cases a with
  | getValue | setValue =>
    exact Or.inr ⟨_, rfl, isStatement_breaking (getLast?_append_text _ rfl)⟩
  | getReference | setReference | removeReference => exact Or.inl rfl

/-- The cases of state variables. -/
def stateCases (vs : List StateVariable) (a : Accessor) : List Case :=
  vs.flatMap fun v => casesOf (v.caseEdits a)

theorem casesOf_stateVariables (vs : List StateVariable) (a : Accessor) (rest : List Edit) :
    casesOf (vs.flatMap (·.caseEdits a) ++ rest) = stateCases vs a ++ casesOf rest := by
  induction vs with
  | nil => rfl
  | cons v vs ih =>
    rw [List.flatMap_cons, List.append_assoc, stateCases, List.flatMap_cons, ← stateCases,
      List.append_assoc, ← ih]
    rcases v.caseEdits_cases a with h | ⟨body, h, hbody⟩
    · rw [h]; rfl
    · rw [h, casesOf_labelled hbody, ← List.append_nil (Accessor.labelled _ body),
        casesOf_labelled hbody]
      rfl

/-- A state variable has its case in the accessors for values. -/
theorem StateVariable.labels_caseEdits (v : StateVariable) (a : Accessor) :
    (casesOf (v.caseEdits a)).map (·.label) = if a.isReference then [] else [ident v.key] := by
  have hvalue : v.caseEdits a ≠ [] → (casesOf (v.caseEdits a)).map (·.label) = [ident v.key] := by
    intro hne
    obtain ⟨body, h, hbody⟩ := (v.caseEdits_cases a).resolve_left hne
    rw [h, ← List.append_nil (Accessor.labelled _ body), casesOf_labelled hbody]
    rfl
  cases a with
  | getValue => exact hvalue (by simp [caseEdits, Accessor.labelled])
  | setValue => exact hvalue (by simp [caseEdits, Accessor.labelled])
  | getReference => rfl
  | setReference => rfl
  | removeReference => rfl

theorem labels_stateCases (vs : List StateVariable) (a : Accessor) :
    (stateCases vs a).map (·.label) = if a.isReference then [] else vs.map fun v => ident v.key := by
  have hlabels : (fun v : StateVariable => (casesOf (v.caseEdits a)).map (·.label)) =
      fun v => if a.isReference then [] else [ident v.key] := funext fun v => v.labels_caseEdits a
  rw [stateCases, List.map_flatMap, hlabels]
  cases a.isReference with
  | true => exact List.flatMap_eq_nil_iff.2 fun _ _ => rfl
  | false => exact List.map_eq_flatMap.symm

theorem label_of_mem_stateCases {vs : List StateVariable} {a : Accessor} {k : Case}
    (h : k ∈ stateCases vs a) : ∃ v ∈ vs, k.label = ident v.key := by
  have hlabel : k.label ∈ (stateCases vs a).map (·.label) := List.mem_map_of_mem h
  rw [labels_stateCases] at hlabel
  split_ifs at hlabel
  · cases hlabel
  · obtain ⟨v, hv, he⟩ := List.mem_map.1 hlabel
    exact ⟨v, hv, he.symm⟩

/-- The cases of an accessor are those of the locations it covers, then those of the state
    variables. -/
theorem Accessor.casesOf_edits (a : Accessor) (className : String) (ls : List Location)
    (vs : List StateVariable) :
    casesOf (a.edits className ls vs) = (a.locations ls).map a.caseOf ++ stateCases vs a := by
  -- the default case and the ends of the switch and of the accessor
  obtain ⟨rest, hrest⟩ : ∃ rest : List Edit, rest = defaultCase ++ ([.closing ""] ++
    ((if a = .getReference then [.line "return \x7b\x7d;"] else []) ++ [.closing ""])) := ⟨_, rfl⟩
  have hend : casesOf rest = [] := by rw [hrest]; cases a <;> rfl
  have hhead : ∀ e ∈ [Edit.opening (a.head className), .opening "switch (id)"],
      caseLabel? e = none := by
    intro e he
    rcases List.mem_pair.1 he with rfl | rfl <;> rfl
  have hcases : (a.locations ls).flatMap a.caseEdits = (a.locations ls).flatMap fun l =>
      labelled (ident l.key) (a.statements l.member (a.base l)) := rfl
  have hedits : a.edits className ls vs = [.opening (a.head className), .opening "switch (id)"] ++
      ((a.locations ls).flatMap a.caseEdits ++ (vs.flatMap (·.caseEdits a) ++ rest)) := by
    simp only [edits, hrest, List.append_assoc]
  rw [hedits, casesOf_append_of_forall hhead, hcases,
    casesOf_flatMap _ fun l _ e he => isStatement_of_mem_statements he, casesOf_stateVariables,
    hend, List.append_nil]
  rfl

/-! ## Access expressions -/

/-- What selects an element of a keyed member; other members need no selection. -/
def IsSelection (s : String) : Prop :=
  s = "" ∨ ∃ type, s = ".at(index.As<" ++ type ++ ">())" ∨ s = "[index.As<" ++ type ++ ">()]"

/-- An access expression leads through members of the given names, outermost first. -/
inductive PassesThrough : List String → String → Prop where
  | last (name : String) : PassesThrough [name] (ident name)
  | step {names : List String} {expr selection : String} (name : String)
    (hs : IsSelection selection) (h : PassesThrough names expr) :
    PassesThrough (name :: names) (ident name ++ selection ++ "." ++ expr)

namespace Location

theorem readStep_eq (m : Member) :
    ∃ s, IsSelection s ∧ readStep m = Code.ident m.name ++ s ++ "." := by
  unfold readStep
  split_ifs
  · refine ⟨_, Or.inr ⟨m.storage.keyType, Or.inl rfl⟩, ?_⟩
    simp only [indexOf, Member.ident, String.append_assoc]
    rfl
  · exact ⟨"", Or.inl rfl, by simp [Member.ident]⟩

theorem writeStep_eq (m : Member) :
    ∃ s, IsSelection s ∧ writeStep m = Code.ident m.name ++ s ++ "." := by
  unfold writeStep
  split_ifs
  · refine ⟨_, Or.inr ⟨m.storage.keyType, Or.inr rfl⟩, ?_⟩
    simp only [indexOf, Member.ident, String.append_assoc]
    rfl
  · exact ⟨"", Or.inl rfl, by simp [Member.ident]⟩

theorem passesThrough_join {step : Member → String}
    (h : ∀ m, ∃ s, IsSelection s ∧ step m = Code.ident m.name ++ s ++ ".") (via : List Member)
    (m : Member) :
    PassesThrough ((via ++ [m]).map (·.name)) (String.join (via.map step) ++ m.ident) := by
  induction via with
  | nil =>
    rw [List.map_nil, String.join_nil, String.empty_append]
    exact .last m.name
  | cons x via ih =>
    obtain ⟨s, hs, hx⟩ := h x
    rw [List.map_cons, String.join_cons, String.append_assoc, hx]
    exact .step x.name hs ih

end Location

/-- The access expression of a location leads through its names, in every accessor. -/
theorem Accessor.base_passesThrough (a : Accessor) (l : Location) :
    PassesThrough l.names (a.base l) := by
  unfold base
  split_ifs
  · exact Location.passesThrough_join Location.writeStep_eq l.via l.member
  · exact Location.passesThrough_join Location.readStep_eq l.via l.member

/-! ## The locations of a class -/

/-- The location with a given key. -/
def Survey.at? (s : Survey) (key : String) : Option Location :=
  s.locations.find? fun l => l.key == key

namespace Plan

/-- The code of an accessor. -/
def accessor (p : Plan) (stems : Stems) (a : Accessor) : List Edit :=
  a.edits p.name p.survey.locations (p.stateVariables stems)

/-- The cases of an accessor for features: those that it has if there are no state variables. -/
def featureCases (p : Plan) (a : Accessor) : List Case :=
  casesOf (a.edits p.name p.survey.locations [])

/-- The labels of an accessor for features. -/
def labels (p : Plan) (a : Accessor) : List String := (p.featureCases a).map (·.label)

theorem featureCases_eq (p : Plan) (a : Accessor) :
    p.featureCases a = (a.locations p.survey.locations).map a.caseOf := by
  rw [featureCases, a.casesOf_edits, stateCases, List.flatMap_nil, List.append_nil]

theorem casesOf_accessor (p : Plan) (stems : Stems) (a : Accessor) :
    casesOf (p.accessor stems a) = p.featureCases a ++ stateCases (p.stateVariables stems) a := by
  rw [accessor, a.casesOf_edits, featureCases_eq]

/-- The locations have keys of their own, which are identifiers. -/
structure Addressed (p : Plan) : Prop where
  keys : (p.survey.locations.map Location.key).Nodup
  identifiers : ∀ l ∈ p.survey.locations, IsIdentifier l.key

namespace Addressed

variable {p : Plan} {l l' : Location} {a b : Accessor}

theorem eq_of_key (h : p.Addressed) (hl : l ∈ p.survey.locations) (hl' : l' ∈ p.survey.locations)
    (hk : l.key = l'.key) : l = l' := List.inj_on_of_nodup_map h.keys hl hl' hk

theorem at?_eq_some (h : p.Addressed) (hl : l ∈ p.survey.locations) :
    p.survey.at? l.key = some l := by
  rw [Survey.at?]
  cases hx : p.survey.locations.find? (fun x => x.key == l.key) with
  | none => exact absurd (beq_self_eq_true l.key) (List.find?_eq_none.1 hx l hl)
  | some x =>
    have hk := List.find?_some hx
    rw [h.eq_of_key (List.mem_of_find?_eq_some hx) hl (beq_iff_eq.1 hk)]

/-- The labels are the keys of the locations that the accessor covers. -/
theorem labels_eq (h : p.Addressed) (a : Accessor) :
    p.labels a = (a.locations p.survey.locations).map Location.key := by
  rw [labels, featureCases_eq, List.map_map]
  refine List.map_congr_left fun l hl => ?_
  exact (h.identifiers l (List.mem_of_mem_filter hl)).ident_eq

theorem labels_disjoint (h : p.Addressed) (hsort : a.isReference ≠ b.isReference) {x : String}
    (hx : x ∈ p.labels a) : x ∉ p.labels b := by
  intro hx'
  rw [h.labels_eq, List.mem_map] at hx hx'
  obtain ⟨l, hl, rfl⟩ := hx
  obtain ⟨l', hl', hk⟩ := hx'
  obtain ⟨hl, hcov⟩ := List.mem_filter.1 hl
  obtain ⟨hl', hcov'⟩ := List.mem_filter.1 hl'
  obtain rfl := h.eq_of_key hl' hl hk
  simp only [Accessor.covers, Bool.and_eq_true, beq_iff_eq] at hcov hcov'
  exact hsort (hcov.1.symm.trans hcov'.1)

/-- An accessor that writes has the labels of the one that reads, in the same order, without those
    of derived members. -/
theorem labels_of_writes (h : p.Addressed) (hsort : b.isReference = a.isReference)
    (hw : a.writes = false) (hw' : b.writes = true) :
    p.labels b =
      (p.labels a).filter fun x => !(p.survey.at? x).any (·.member.isDerived) := by
  rw [h.labels_eq, h.labels_eq, List.filter_map, Accessor.locations, Accessor.locations,
    List.filter_filter]
  congr 1
  refine List.filter_congr fun l hl => ?_
  simp only [Accessor.covers, hsort, hw, hw', Function.comp_apply, h.at?_eq_some hl,
    Option.any_some, Bool.true_and, Bool.false_and, Bool.not_false, Bool.and_comm]

end Addressed
end Plan

section
variable {r : Registry} {stems : Stems} {c : Classifier} {l : Location}

theorem Reached.isIdentifier {stem : String} (hstem : IsIdentifier stem)
    (h : Reached r c stem l) : IsIdentifier l.key := by
  induction h with
  | top hm =>
    rw [Location.key, key_of_mem_dataOf hm]
    exact isIdentifier_keyOf hstem _
  | inside _ _ hx _ ih =>
    rw [Location.key, key_of_mem_dataOf hx]
    exact isIdentifier_keyOf ih _

theorem reached_of_mem_locations (h : l ∈ (Plan.of r stems c).survey.locations) :
    Reached r c stems.feature l := by
  obtain ⟨tr, hw, hl, -⟩ := Plan.depthFirst r stems c
  rw [hl] at h
  exact reached_of_mem_trace hw (List.mem_of_mem_filter h)

/-- A key that is claimed for a feature of a nested struct lies under that of a member path. -/
theorem key_of_mem_surveyClaims {key : String}
    (h : key ∈ (Plan.of r stems c).survey.claims.map (·.1)) :
    ∃ l name, Reached r c stems.feature l ∧ key = keyOf l.key name := by
  obtain ⟨tr, hw, -, hclaims, -⟩ := survey_depthFirst r c stems.feature
  have hsurvey : (Plan.of r stems c).survey.claims = tr.flatMap (·.innerClaims r c.id) := hclaims
  rw [hsurvey] at h
  obtain ⟨q, hq, rfl⟩ := List.mem_map.1 h
  obtain ⟨l, hl, hq⟩ := List.mem_flatMap.1 hq
  unfold Location.innerClaims at hq
  split at hq
  · next d ho =>
    obtain ⟨m, hm, rfl⟩ := List.mem_map.1 hq
    exact ⟨l, m.name, reached_of_mem_trace hw hl, key_of_mem_flatten hm⟩
  · cases hq

theorem Plan.addressed (r : Registry) (c : Classifier) (h : IsIdentifier stems.feature) :
    (Plan.of r stems c).Addressed where
  keys := by
    obtain ⟨tr, hw, hl, -⟩ := Plan.depthFirst r stems c
    rw [hl]
    exact hw.keys.1.sublist (List.filter_sublist.map _)
  identifiers l hl := (reached_of_mem_locations hl).isIdentifier h

end

/-! ## Constants -/

/-- The definition of the constant of an id. -/
def constantLine (key : String) (id : UInt64) : String :=
  "static constexpr uint64_t " ++ key ++ " = " ++ formatId id ++ "ULL;"

theorem constantLine_ne_empty (key : String) (id : UInt64) : constantLine key id ≠ "" := by
  intro h
  have hlast : (constantLine key id).toList.getLast? = some ';' := getLast?_append_text _ rfl
  rw [h] at hlast
  cases hlast

namespace Plan

/-- The declaration of a class up to its constants. -/
def declarationHead (p : Plan) : List Edit :=
  [.opening ("class " ++ p.name ++ " : public sim::SimObject"), .dedent, .line "public:", .indent]

/-- The ids of a class are in its declaration at one place. -/
theorem declarationEdits_split (p : Plan) (r : Registry) :
    ∃ rest, ∀ ids, p.declarationEdits r ids = p.declarationHead ++ idEdits ids ++ rest := by
  refine ⟨p.behaviourEdits r ++ (Accessor.all.map (fun a => Edit.line a.declaration) ++
    (headed [.line ""] (p.features.data.map fun m => .line m.line) ++
      (headed [.line ""] (p.features.operations.map fun o => .line (operationLine o)) ++
        (headed [.line "", .dedent, .line "private:", .indent]
          (p.machines.flatMap (·.privateEdits r)) ++ [.closing ";"])))), fun ids => ?_⟩
  simp only [declarationEdits, declarationHead, List.append_assoc]

end Plan

/-- The declaration of a class defines a constant for each of its ids. -/
theorem Plan.hasLine_declaration (p : Plan) (r : Registry) (stems : Stems) {ids : List IdEntry}
    {e : IdEntry} (he : e ∈ ids) (hk : IsIdentifier e.key) :
    HasLine (p.unit r stems ids).declaration (indented 1 (constantLine e.key e.id)) := by
  rw [Plan.unit]
  set texts := (sortByKey (·.key) ids).map fun e => constantLine (ident e.key) e.id with htexts
  have hids : idEdits ids = texts.map Edit.line ++ [.line ""] := by
    rw [idEdits, if_neg (by simpa using List.ne_nil_of_mem he), htexts, List.map_map]
    rfl
  have hmem : constantLine e.key e.id ∈ texts := by
    refine List.mem_map.2 ⟨e, List.mem_mergeSort.2 he, ?_⟩
    rw [hk.ident_eq]
  obtain ⟨before, after, hsplit⟩ := List.append_of_mem hmem
  obtain ⟨rest, hrest⟩ := p.declarationEdits_split r
  have hdepth : ((p.declarationHead ++ before.map Edit.line).foldl Stream.apply {}).depth = 1 := by
    rw [List.foldl_append, depth_foldl_lines]
    rfl
  have hedits : p.declarationEdits r ids = (p.declarationHead ++ before.map Edit.line) ++
      .line (constantLine e.key e.id) :: (after.map Edit.line ++ .line "" :: rest) := by
    rw [hrest, hids, hsplit, List.map_append, List.map_cons]
    simp only [List.append_assoc, List.cons_append, List.nil_append]
  rw [hedits, ← hdepth]
  exact hasLine_render _ _ (constantLine_ne_empty _ _)

/-! ## Agreement -/

/-- What the code of a simulation object `c` says about its ids, `p` being its plan. -/
structure Agreement (r : Registry) (hash : String → UInt64) (stems : Stems) (c : Classifier)
    (p : Plan) (u : CodeUnit) : Prop where
  /-- The definition is written from the accessors, and more behind them. -/
  definition : ∃ rest, u.definition = trimEnd (· == '\n')
    (render (Accessor.all.flatMap (fun a => spaced (p.accessor stems a)) ++ rest)) ++ "\n"
  /-- The cases of an accessor are those of features, then those of state variables. -/
  cases : ∀ a, casesOf (p.accessor stems a) =
    p.featureCases a ++ stateCases (p.stateVariables stems) a
  /-- A label stands for a value or for a reference, never for both. -/
  disjoint : ∀ x ∈ p.labels .getValue, x ∉ p.labels .getReference
  setValue : p.labels .setValue =
    (p.labels .getValue).filter fun x => !(p.survey.at? x).any (·.member.isDerived)
  setReference : p.labels .setReference =
    (p.labels .getReference).filter fun x => !(p.survey.at? x).any (·.member.isDerived)
  removeReference : p.labels .removeReference = p.labels .setReference
  /-- Every label has an id, and the declaration has its constant. -/
  constants : ∀ a, ∀ k ∈ casesOf (p.accessor stems a), (⟨k.label, hash k.label⟩ : IdEntry) ∈ u.ids ∧
    HasLine u.declaration (indented 1 (constantLine k.label (hash k.label)))
  /-- A label stands for one member path, which every accessor that has it passes through. -/
  paths : ∀ a, ∀ k ∈ p.featureCases a, ∃ l, p.survey.at? k.label = some l ∧
    Reached r c stems.feature l ∧ k.label = l.names.foldl keyOf stems.feature ∧
    ∃ expr, PassesThrough l.names expr ∧ k.body = a.statements l.member expr
  references : u.references.map (·.key) = p.labels .getReference

/-- The label of a case is a claimed key, and an identifier. -/
theorem label_of_mem_accessor {r : Registry} {c : Classifier} {stems : Stems} {a : Accessor}
    {k : Case} (hfeature : IsIdentifier stems.feature) (hstate : IsIdentifier stems.state)
    (hk : k ∈ casesOf ((Plan.of r stems c).accessor stems a)) :
    IsIdentifier k.label ∧ ∃ owner, (k.label, owner) ∈ classClaims r stems c := by
  rw [Plan.casesOf_accessor, List.mem_append] at hk
  rcases hk with hk | hk
  · rw [Plan.featureCases_eq, List.mem_map] at hk
    obtain ⟨l, hl, rfl⟩ := hk
    have hl := List.mem_of_mem_filter hl
    have hid := (Plan.addressed r c hfeature).identifiers l hl
    rw [Accessor.caseOf, hid.ident_eq]
    have hreached := reached_of_mem_locations hl
    obtain ⟨tr, hw, htr, hclaims⟩ := Plan.depthFirst r stems c
    rw [htr] at hl
    exact ⟨hid, _, hclaims l hreached (follows_of_mem_trace hw (List.mem_of_mem_filter hl))⟩
  · obtain ⟨v, hv, hlabel⟩ := label_of_mem_stateCases hk
    obtain ⟨m, hm, hv⟩ := List.mem_flatMap.1 hv
    obtain ⟨level, hlevel, rfl⟩ := List.mem_map.1 hv
    have hid := isIdentifier_keyOf hstate level.name
    rw [hid.ident_eq] at hlabel
    rw [hlabel]
    exact ⟨hid, _, mem_classClaims.2 (Or.inr (Or.inl ⟨m, hm, level, hlevel, rfl⟩))⟩

/-- **The accessors agree.** Whatever was lowered or claimed before, the code of a simulation object
    that is lowered gives every label one meaning. -/
theorem lowerClass_accessors_agree {r : Registry} {hash : String → UInt64} {ops : List IdOperation}
    {feature state : String} {c : Classifier} {t : IdTable} {u : CodeUnit}
    (hf : family r c = .simObject)
    (hl : lowerClass r (.ofTexts feature state) (.run { hash } ops) c = (t, .ok u)) :
    Agreement r hash (.ofTexts feature state) c (.of r (.ofTexts feature state) c) u := by
  obtain ⟨hfeature, hstate⟩ := isIdentifier_ofTexts feature state
  generalize Stems.ofTexts feature state = stems at *
  obtain ⟨rfl, hgranted⟩ := lowerClass_ok hf ((IdTable.valid_empty hash).run ops) hl
  have hhash : ((IdTable.run { hash } ops).withScope c.id).hash = hash := by
    rw [IdTable.withScope_hash, IdTable.run_hash]
  have haddr := Plan.addressed r c hfeature
  have hreached := fun l => @reached_of_mem_locations r stems c l
  have hlabel := fun a k => @label_of_mem_accessor r c stems a k hfeature hstate
  -- from here on nothing depends on how the plan is made
  generalize Plan.of r stems c = p at haddr hreached hlabel ⊢
  refine {
    definition := ⟨_, by rw [Plan.unit, Plan.definitionEdits, List.append_assoc]; rfl⟩
    cases := p.casesOf_accessor stems
    disjoint := fun x hx => haddr.labels_disjoint (by decide) hx
    setValue := haddr.labels_of_writes rfl rfl rfl
    setReference := haddr.labels_of_writes rfl rfl rfl
    removeReference := ?_
    constants := fun a k hk => ?_
    paths := fun a k hk => ?_
    references := ?_ }
  · have hset := haddr.labels_of_writes (a := .getReference) (b := .setReference) rfl rfl rfl
    have hremove := haddr.labels_of_writes (a := .getReference) (b := .removeReference) rfl rfl rfl
    exact hremove.trans hset.symm
  · obtain ⟨hid, owner, hclaim⟩ := hlabel a k hk
    have hmem := hgranted.listed _ hclaim
    rw [hhash, ← IdTable.entries_eq] at hmem
    have hline := p.hasLine_declaration r stems hmem hid
    exact ⟨hmem, hline⟩
  · rw [Plan.featureCases_eq, List.mem_map] at hk
    obtain ⟨l, hl, rfl⟩ := hk
    have hl := List.mem_of_mem_filter hl
    have hkey : (a.caseOf l).label = l.key := (haddr.identifiers l hl).ident_eq
    rw [hkey]
    exact ⟨l, haddr.at?_eq_some hl, hreached l hl, (hreached l hl).key_eq, _,
      a.base_passesThrough l, rfl⟩
  · rw [haddr.labels_eq]
    exact List.map_map ..

/-! A ship with its hull, a struct that names the home port; the load of the ship is derived. -/

def ship : Classifier := { id := "ship", name := "Ship", stereotype := "SimObject" }

def harbour : Registry := Registry.prepare { elements := [
  .classifier ship,
  .classifier { id := "port", name := "Port", stereotype := "SimObject" },
  .classifier { id := "hull", name := "Hull", kind := .dataType },
  .attribute { id := "s1", name := "hull", parent := "ship", typed := { type := "hull" } },
  .attribute { id := "s2", name := "load", parent := "ship",
               typed := { typeName := "double", isDerived := true } },
  .attribute { id := "h1", name := "width", parent := "hull", typed := { typeName := "int" } },
  .attribute { id := "h2", name := "home", parent := "hull", typed := { type := "port" } }] }

theorem ship_granted : (((IdTable.run { hash := Digest.XxHash.hash } []).withScope ship.id).claimAll
    ship.id (classClaims harbour (.ofTexts "" "") ship)).2.2 = none := by decide +kernel

/-- The plan of the ship, with the default stems. -/
def shipPlan : Plan := .of harbour (.ofTexts "" "") ship

theorem ship_accessors_agree :
    family harbour ship = .simObject ∧
    shipPlan.labels .getValue = ["ATTR_HULL_WIDTH", "ATTR_LOAD"] ∧
    shipPlan.labels .setValue = ["ATTR_HULL_WIDTH"] ∧
    shipPlan.labels .getReference = ["ATTR_HULL_HOME"] ∧
    ∃ t u, lowerClass harbour (.ofTexts "" "") (.run { hash := Digest.XxHash.hash } []) ship =
      (t, .ok u) ∧ Agreement harbour Digest.XxHash.hash (.ofTexts "" "") ship shipPlan u := by
  have hf : family harbour ship = .simObject := by decide +kernel
  obtain ⟨t, u, hl⟩ := lowerClass_of_granted hf ship_granted
  exact ⟨hf, by decide +kernel, by decide +kernel, by decide +kernel, t, u, hl,
    lowerClass_accessors_agree hf hl⟩

end Lowering
end ObjectLowering
