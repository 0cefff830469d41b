/-
  The generated code is balanced.

  * `chainEdits_isBlock`, `switch_isBlock`: conditionals and switches.
  * `IsDefinitions` is code that opens functions of a class, and only
    functions, at level zero; `isDefinitions_spaced` that a function whose
    inside is a block is such code.
  * `Plan.isDefinitions`, `Plan.declarationEdits_isBlock`: the code of a
    simulation object.
  * `lowerClass_balanced`: what is written for a classifier is balanced,
    whatever texts the model holds.
-/
import ObjectLowering.Proofs.Batches
import ObjectLowering.Proofs.Functions
import ObjectLowering.Proofs.Blocks

namespace ObjectLowering.Lowering

open Model Code Text

/-! ## Statements -/

section
variable {b : Bool} {body rest cases : List Edit}

theorem endBraces_case (label : String) : endBraces ("case " ++ label ++ ":") = [] :=
  endBraces_around label (by decide) (by decide)

theorem labelled_isCase (label : String) (h : IsBlock false body b) :
    IsCase (Accessor.labelled label body) := .labelled (endBraces_case label) h

theorem defaultCase_isCase : IsCase defaultCase :=
  .labelled (show endBraces "default:" = [] by decide) (.line "break;")

theorem if_isBlock (cond : String) (h : IsRest rest) :
    IsBlock b (.opening ("if (" ++ cond ++ ")") :: rest) false :=
  .braced (by simp [String.toList_append]) h

theorem close_isRest (h : IsBlock false body b) : IsRest (body ++ [.closing ""]) :=
  .close h (by decide)

/-- Cases stand behind each other, so that each comes behind a step back. -/
theorem switch_isBlock (var : String) (h : IsCase cases) :
    IsBlock b (.opening ("switch (" ++ var ++ ")") :: (cases ++ [.closing ""])) false :=
  have ⟨_, h⟩ := h false
  .braced (by simp [String.toList_append]) (close_isRest h)

/-! ### Moves and branches -/

theorem Restore.edits_isBlock (x : Restore) : IsBlock false x.edits false :=
  if_isBlock x.condition (close_isRest (.line _))

theorem Move.edits_isBlock (m : Move) : IsBlock false m.edits false := by
  cases m with
  | assign s => exact .line s.statement
  | restore x => exact x.edits_isBlock
  | run statement => exact .line statement

theorem Branch.effectEdits_isBlock (b : Branch) : IsBlock false b.effectEdits false :=
  .flatMap fun m _ => m.edits_isBlock

theorem endBraces_elseIf (cond : String) :
    endBraces ("\x7d else if (" ++ cond ++ ") \x7b") = [.D, .U] :=
  endBraces_around cond (by decide) (by decide)

/-- Every arm ends the one in front of it, and the last is closed. -/
theorem elseEdits_isRest (bs : List Branch) (h : IsBlock false body b) :
    IsRest (body ++ elseEdits bs) := by
  induction bs generalizing body b with
  | nil => exact close_isRest h
  | cons c bs ih =>
    rw [elseEdits]
    split_ifs
    · rw [List.append_assoc]
      exact .behind h (Or.inr (by decide)) (close_isRest c.effectEdits_isBlock)
    · rw [List.append_assoc]
      exact .behind h (Or.inr (endBraces_elseIf c.condition)) (ih c.effectEdits_isBlock)

theorem chainEdits_isBlock (bs : List Branch) : IsBlock false (chainEdits bs) false := by
  cases bs with
  | nil => exact .nil false
  | cons c bs =>
    rw [chainEdits]
    split_ifs
    · exact c.effectEdits_isBlock
    · exact if_isBlock c.condition (elseEdits_isRest bs c.effectEdits_isBlock)

theorem breakingCase_isCase (label : String) (h : IsBlock false body false) :
    IsCase (breakingCase label body) := labelled_isCase label (h.append (.line "break;"))

/-! ### Cases -/

theorem Accessor.statements_isBlock (a : Accessor) (m : Member) (base : String) :
    IsBlock false (a.statements m base) false := by
  cases a with
  | getValue =>
    simp only [statements]
    split
    · next guard expr _ =>
      exact (if_isBlock guard (close_isRest (.line _))).append (.line "break;")
    · exact (IsBlock.line _).cons_line _
  | setValue => exact (IsBlock.line _).cons_line _
  | getReference =>
    simp only [statements]
    split_ifs <;> exact .line _
  | setReference | removeReference =>
    simp only [statements]
    split_ifs <;> exact (IsBlock.line _).cons_line _

theorem StateVariable.caseEdits_isCase (v : StateVariable) (a : Accessor) :
    IsCase (v.caseEdits a) := by
  cases a with
  | getValue | setValue => exact labelled_isCase (ident v.key) ((IsBlock.line _).cons_line _)
  | getReference | setReference | removeReference => exact .nil

theorem StepCase.edits_isCase (c : StepCase) : IsCase c.edits := by
  cases c with
  | initial label branches => exact breakingCase_isCase label (chainEdits_isBlock branches)
  | state label inside behaves =>
    cases inside with
    | none => exact breakingCase_isCase label (.line _)
    | some inside =>
      have hrestore : IsBlock false ((inside.restore.map Restore.edits).getD []) false := by
        cases inside.restore with
        | none => exact .nil false
        | some x => exact x.edits_isBlock
      refine breakingCase_isCase label (hrestore.append ?_)
      split_ifs
      · exact .braced (by simp [String.toList_append]) (close_isRest (.line _))
      · exact .line _

theorem Level.terminalCase_isCase (l : Level) : IsCase l.terminalCase := by
  rw [Level.terminalCase]
  split_ifs
  · exact .nil
  · exact labelled_isCase l.terminal (.line "return false;")

end

/-! ## Functions -/

/-- Code that opens functions of a class at level zero, and nothing else there. -/
structure IsDefinitions (name : String) (edits : List Edit) : Prop where
  block : IsBlock false edits false
  opens : ∀ pre head post, edits = pre ++ .opening head :: post →
    (depthAfter pre = 0 ↔ (defines? name (.opening head)).isSome = true)

section
variable {r : Registry} {known : String → Prop} {name signature : String} {b : Bool}
  {xs ys inside : List Edit} {α : Type}

namespace IsDefinitions

theorem nil (name : String) : IsDefinitions name [] := ⟨.nil false, by simp⟩

theorem append (hx : IsDefinitions name xs) (hy : IsDefinitions name ys) :
    IsDefinitions name (xs ++ ys) where
  block := hx.block.append hy.block
  opens pre head post h := by
    rcases List.append_eq_append_iff.1 h with ⟨as, rfl, hys⟩ | ⟨bs, hxs, hpost⟩
    · rw [hx.block.depthAfter_append]
      exact hy.opens as head post hys
    · cases bs with
      | nil =>
        have hpre := hx.block.depthAfter_append []
        rw [hxs, List.append_nil, List.append_nil] at hpre
        rw [hpre]
        exact hy.opens [] head post hpost.symm
      | cons e bs =>
        obtain ⟨rfl, -⟩ := List.cons.inj hpost
        exact hx.opens pre head bs hxs

theorem flatMap {zs : List α} {f : α → List Edit} (h : ∀ z ∈ zs, IsDefinitions name (f z)) :
    IsDefinitions name (zs.flatMap f) := by
  induction zs with
  | nil => exact nil name
  | cons z zs ih =>
    rw [List.flatMap_cons]
    exact (h z (by simp)).append (ih fun y hy => h y (by simp [hy]))

end IsDefinitions

/-- A function is opened at level zero, and all code inside of it is deeper. -/
theorem isDefinitions_spaced (hname : IsIdentifier name) (head : String)
    (hf : IsFunction r known name signature (spaced xs))
    (hxs : xs = .opening head :: (inside ++ [.closing ""]))
    (hhead : head.toList.head? ≠ some '\x7d') (hinside : IsBlock false inside b) :
    IsDefinitions name (spaced xs) where
  block := by
    rw [hxs]
    exact (IsBlock.braced hhead (close_isRest hinside)).append (.line "")
  opens pre h post heq := by
    obtain ⟨head', body, hedits, hdefines, -, hbody⟩ := hf
    rw [hedits] at heq
    have hsplit : Edit.opening head :: (inside ++ [.closing "", .line ""]) =
        .opening head' :: body := by
      rw [← hedits, hxs]
      simp [spaced]
    obtain ⟨-, rfl⟩ := List.cons.inj hsplit
    cases pre with
    | nil =>
      obtain ⟨hopen, -⟩ := List.cons.inj heq
      rw [← hopen, hdefines]
      simp [depthAfter]
    | cons e pre =>
      obtain ⟨rfl, hrest⟩ := List.cons.inj heq
      have hnone : defines? name (.opening h) = none :=
        (hbody _ (by rw [hrest]; simp)).defines? hname
      -- what closes the function opens nothing, so the opening is inside
      have hpre : ∃ as, inside = pre ++ as := by
        rcases List.append_eq_append_iff.1 hrest with ⟨as, -, htail⟩ | ⟨bs, hin, -⟩
        · have hmem : Edit.opening h ∈ [Edit.closing "", .line ""] := by
            rw [htail]
            simp
          simp at hmem
        · exact ⟨bs, hin⟩
      obtain ⟨as, rfl⟩ := hpre
      simp [hnone, (hinside.depthAfter_opening_pos head').ne']

/-! ### Accessors and machines -/

theorem Accessor.isDefinitions (a : Accessor) (r : Registry) (hname : IsIdentifier name)
    (ls : List Location) (vs : List StateVariable) :
    IsDefinitions name (spaced (a.edits name ls vs)) := by
  have hcases : IsCase ((a.locations ls).flatMap a.caseEdits ++ vs.flatMap (·.caseEdits a) ++
      defaultCase) :=
    ((IsCase.flatMap fun l _ => labelled_isCase _ (a.statements_isBlock ..)).append
      (.flatMap fun v _ => v.caseEdits_isCase a)).append defaultCase_isCase
  have hreturn : IsBlock false
      (if a = .getReference then [.line "return \x7b\x7d;"] else []) false := by
    split_ifs
    · exact .line _
    · exact .nil false
  refine isDefinitions_spaced hname (a.head name) (a.isFunction r (fun _ => True) name ls vs)
    ?_ ?_ ((switch_isBlock "id" hcases).append hreturn)
  · simp [Accessor.edits]
  · cases a <;> simp [Accessor.head, Accessor.result, String.toList_append]

theorem stepFunction_isDefinitions {m : Machine} (hname : IsIdentifier name)
    (h : m.Knows r known) {l : Level} (hl : l ∈ m.levels) :
    IsDefinitions name (spaced ((m.stepFunction r l).edits name)) := by
  have hcases : IsCase ((m.stepFunction r l).cases.flatMap StepCase.edits ++ l.terminalCase ++
      defaultCase) :=
    ((IsCase.flatMap fun c _ => c.edits_isCase).append l.terminalCase_isCase).append
      defaultCase_isCase
  refine isDefinitions_spaced hname ("bool " ++ name ++ "::Step_" ++ l.name ++ "()")
    (stepFunction_isFunction h hl name) ?_ (by simp [String.toList_append])
    ((switch_isBlock l.variableName hcases).append (.line "return true;"))
  simp [StepFunction.edits, Machine.stepFunction]

theorem stateFunction_isDefinitions {m : Machine} (hname : IsIdentifier name) {l : Level}
    {s : State} (hs : (l, s) ∈ m.behaviourStates r) :
    IsDefinitions name (spaced ((m.stateFunction r l s).edits name)) := by
  refine isDefinitions_spaced hname ("void " ++ name ++ "::State_" ++ l.stateConstant s ++ "()")
    (stateFunction_isFunction (fun _ => True) hs name) ?_ (by simp [String.toList_append])
    ((IsBlock.lines id (m.stateFunction r l s).activities).append
      (chainEdits_isBlock (m.stateFunction r l s).branches))
  simp [StateFunction.edits, Machine.stateFunction]

theorem Machine.isDefinitions {m : Machine} (hname : IsIdentifier name) (h : m.Knows r known) :
    IsDefinitions name (m.definitionEdits r name) := by
  refine .append (.flatMap fun f hf => ?_) (.flatMap fun f hf => ?_)
  · obtain ⟨l, hl, rfl⟩ := List.mem_map.1 hf
    exact stepFunction_isDefinitions hname h hl
  · obtain ⟨⟨l, s⟩, hs, rfl⟩ := List.mem_map.1 hf
    exact stateFunction_isDefinitions hname hs

theorem EventSwitch.edits_isBlock (s : EventSwitch) : IsBlock false s.edits false := by
  rw [EventSwitch.edits]
  split_ifs
  · exact .nil false
  · have hcases : IsCase (s.groups.flatMap (fun g => breakingCase g.1 (chainEdits g.2)) ++
        defaultCase) :=
      (IsCase.flatMap fun g _ => breakingCase_isCase g.1 (chainEdits_isBlock g.2)).append
        defaultCase_isCase
    simpa using switch_isBlock s.var hcases

theorem eventEdits_isDefinitions (r : Registry) (hname : IsIdentifier name) (ms : List Machine)
    (event : String) : IsDefinitions name (spaced (eventEdits r name ms event)) :=
  isDefinitions_spaced hname ("void " ++ name ++ "::On_" ++ event ++ "()")
    (eventEdits_isFunction r (fun _ => True) name ms event) rfl (by simp [String.toList_append])
    (IsBlock.flatMap fun m _ => (m.eventSwitch r event).edits_isBlock)

namespace Plan

theorem isDefinitions {p : Plan} (h : p.Named) (r : Registry) (stems : Stems) :
    IsDefinitions p.name (p.definitionEdits r stems) := by
  have hname : IsIdentifier p.name := isIdentifier_ident _
  exact ((IsDefinitions.flatMap fun a _ => a.isDefinitions r hname ..).append
    (.flatMap fun m hm => Machine.isDefinitions hname (h.knows hm))).append
    (.flatMap fun e _ => eventEdits_isDefinitions r hname ..)

end Plan

end

/-! ## Declarations -/

section
variable {edits : List Edit}

/-- A type with lines inside. -/
theorem type_isBlock {head : String} (hhead : head.toList.head? ≠ some '\x7d')
    (h : IsBlock false edits false) :
    IsBlock false (.opening head :: (edits ++ [.closing ";"])) false :=
  .braced hhead (.close h (by decide))

theorem enumerationEdits_isBlock (name : String) (literals : List String) :
    IsBlock false (enumerationEdits name literals) false := by
  have hlines : IsBlock false (literals.mapIdx fun i l =>
      Edit.line (ident l ++ " = " ++ toString i ++ ",")) false := by
    rw [List.mapIdx_eq_zipIdx_map]
    exact .lines (fun x : String × Nat => ident x.1 ++ " = " ++ toString x.2 ++ ",") _
  exact type_isBlock (by simp [String.toList_append]) hlines

theorem structEdits_isBlock (name : String) (features : Features) :
    IsBlock false (structEdits name features) false :=
  type_isBlock (by simp [String.toList_append]) (.lines Member.line features.data)

theorem Level.enumEdits_isBlock (l : Level) : IsBlock false l.enumEdits false :=
  type_isBlock (by decide) (.lines (fun e : String × String => e.1 ++ " = " ++ e.2 ++ ",") _)

theorem Machine.publicEdits_isBlock (m : Machine) : IsBlock false m.publicEdits false :=
  (IsBlock.flatMap fun l _ => l.enumEdits_isBlock).append
    (.lines (fun l : Level => "bool Step_" ++ l.name ++ "();") m.levels)

theorem Machine.privateEdits_isBlock (m : Machine) (r : Registry) :
    IsBlock false (m.privateEdits r) false :=
  (IsBlock.lines (fun l : Level =>
    "uint64_t " ++ l.variableName ++ " = " ++ Machine.initialValue r l ++ ";") m.levels).append
    (.lines (fun f : StateFunction => "void State_" ++ f.label ++ "();") _)

namespace Plan

/-- A blank line in front of lines. -/
theorem headed_isBlock (h : IsBlock false edits false) :
    IsBlock false (headed [.line ""] edits) false := by
  rw [headed]
  split_ifs
  · exact .nil false
  · exact h.cons_line ""

theorem idEdits_isBlock (ids : List IdEntry) : IsBlock false (idEdits ids) false := by
  simp only [idEdits]
  split_ifs
  · exact .nil false
  · exact (IsBlock.lines (fun e : IdEntry =>
      "static constexpr uint64_t " ++ ident e.key ++ " = " ++ formatId e.id ++ "ULL;") _).append
      (.line "")

theorem behaviourEdits_isBlock (p : Plan) (r : Registry) :
    IsBlock false (p.behaviourEdits r) false := by
  have hend : IsBlock false (if p.machines.isEmpty then [] else [.line ""]) false := by
    split_ifs
    · exact .nil false
    · exact .line ""
  exact ((IsBlock.flatMap fun m _ => m.publicEdits_isBlock).append
    (.lines (fun e => "void On_" ++ e ++ "();") (p.events r))).append hend

theorem declarationEdits_isBlock (p : Plan) (r : Registry) (ids : List IdEntry) :
    IsBlock false (p.declarationEdits r ids) false := by
  have hprivate : IsBlock false (p.machines.flatMap (·.privateEdits r)) false :=
    .flatMap fun m _ => m.privateEdits_isBlock r
  have hpublic : IsBlock false (idEdits ids ++ p.behaviourEdits r ++
      Accessor.all.map (fun a => Edit.line a.declaration) ++
      headed [.line ""] (p.features.data.map fun m => .line m.line) ++
      headed [.line ""] (p.features.operations.map fun o => .line (operationLine o))) false :=
    ((((idEdits_isBlock ids).append (p.behaviourEdits_isBlock r)).append
      (.lines Accessor.declaration Accessor.all)).append
      (headed_isBlock (.lines Member.line _))).append (headed_isBlock (.lines operationLine _))
  have hrest : IsRest (idEdits ids ++ p.behaviourEdits r ++
      Accessor.all.map (fun a => Edit.line a.declaration) ++
      headed [.line ""] (p.features.data.map fun m => .line m.line) ++
      headed [.line ""] (p.features.operations.map fun o => .line (operationLine o)) ++
      (headed [.line "", .dedent, .line "private:", .indent]
        (p.machines.flatMap (·.privateEdits r)) ++ [.closing ";"])) := by
    rw [headed.eq_def [.line "", .dedent, .line "private:", .indent]]
    split_ifs
    · exact .close hpublic (by decide)
    · have hpart := IsRest.behind (hpublic.append (.line ""))
        (Or.inl (show endBraces "private:" = [] by decide))
        (.close hprivate (show ";".toList.getLast? ≠ some '\x7b' by decide))
      simpa using hpart
  have hclass := IsBlock.braced (b := false)
    (show ("class " ++ p.name ++ " : public sim::SimObject").toList.head? ≠ some '\x7d' by
      simp [String.toList_append])
    (IsRest.behind (.nil false) (Or.inl (show endBraces "public:" = [] by decide)) hrest)
  simpa [declarationEdits] using hclass

end Plan

end

/-! ## Units -/

namespace CodeUnit

/-- What writes the declaration of a unit. An alias is a single line. -/
def declarationEdits (u : CodeUnit) (r : Registry) (stems : Stems) : List Edit :=
  match u.family with
  | .simObject => (Plan.of r stems u.classifier).declarationEdits r u.ids
  | .struct => structEdits u.name (.ofFlattened (flatten r u.classifier stems.feature))
  | .value =>
    if u.classifier.kind = .enumeration then enumerationEdits u.name u.classifier.literals
    else [.line ("using " ++ u.name ++ " = " ++ spell (elementName u.classifier) ++ ";")]

/-- What writes the definition of a unit. Only simulation objects have one. -/
def definitionEdits (u : CodeUnit) (r : Registry) (stems : Stems) : List Edit :=
  match u.family with
  | .simObject => (Plan.of r stems u.classifier).definitionEdits r stems
  | .struct | .value => []

/-- The code of a unit is balanced. -/
structure IsBalanced (u : CodeUnit) (r : Registry) (stems : Stems) : Prop where
  declaration_eq : u.declaration = render (u.declarationEdits r stems)
  definition_eq : u.definition =
    if u.family = .simObject then trimEnd (· == '\n') (render (u.definitionEdits r stems)) ++ "\n"
    else ""
  declaration : Code.IsBalanced (u.declarationEdits r stems)
  definition : Code.IsBalanced (u.definitionEdits r stems)
  /-- Functions, and nothing else, are opened at level zero of the definition. -/
  functions : ∀ pre head post, u.definitionEdits r stems = pre ++ .opening head :: post →
    (depthAfter pre = 0 ↔ (defines? u.name (.opening head)).isSome = true)

end CodeUnit

theorem aliasDeclaration_eq (c : Classifier) :
    aliasDeclaration c =
      render [.line ("using " ++ ident c.name ++ " = " ++ spell (elementName c) ++ ";")] := by
  rw [← String.toList_inj]
  simp [aliasDeclaration, render, Stream.apply, Stream.line, Stream.text, indented,
    String.toList_append]

section
variable {r : Registry} {stems : Stems} {t t' : IdTable} {c : Classifier} {u : CodeUnit}

/-- A unit that is one type. -/
theorem CodeUnit.isBalanced_of_type (hf : u.family ≠ .simObject) (hdefinition : u.definition = "")
    (hdeclaration : u.declaration = render (u.declarationEdits r stems))
    (h : IsBlock false (u.declarationEdits r stems) false) : u.IsBalanced r stems := by
  have hnone : u.definitionEdits r stems = [] := by
    unfold CodeUnit.definitionEdits
    cases hu : u.family with
    | simObject => exact absurd hu hf
    | struct | value => rfl
  refine ⟨hdeclaration, by rw [if_neg hf, hdefinition], h.isBalanced, ?_, ?_⟩
  · rw [hnone]
    exact (IsBlock.nil false).isBalanced
  · rw [hnone]
    exact (IsDefinitions.nil u.name).opens

/-- **What is written for a classifier is balanced.** -/
theorem lowerClass_balanced (hl : lowerClass r stems t c = (t', .ok u)) :
    u.IsBalanced r stems := by
  rcases lowerClass_sorts hl with ⟨hk, rfl⟩ | ⟨hk, rfl⟩ | ⟨hf, rfl⟩ | ⟨-, ids, rfl⟩
  · have hf : (enumerationUnit r c).family = .value := by simp only [enumerationUnit, family, hk]
    have hedits : (enumerationUnit r c).declarationEdits r stems =
        enumerationEdits (ident c.name) c.literals := by
      simp only [CodeUnit.declarationEdits, hf]
      exact if_pos hk
    refine CodeUnit.isBalanced_of_type (by simp [hf]) rfl (congrArg render hedits.symm) ?_
    rw [hedits]
    exact enumerationEdits_isBlock _ _
  · have hf : (aliasUnit r c).family = .value := by simp only [aliasUnit, family, hk]
    have hedits : (aliasUnit r c).declarationEdits r stems =
        [.line ("using " ++ ident c.name ++ " = " ++ spell (elementName c) ++ ";")] := by
      have hkind : c.kind ≠ .enumeration := by simp [hk]
      simp only [CodeUnit.declarationEdits, hf]
      exact if_neg hkind
    refine CodeUnit.isBalanced_of_type (by simp [hf]) rfl ?_ ?_
    · rw [hedits]
      exact aliasDeclaration_eq c
    · rw [hedits]
      exact .line _
  · have hedits : (structUnit r stems c).declarationEdits r stems =
        structEdits (ident c.name) (.ofFlattened (flatten r c stems.feature)) := rfl
    refine CodeUnit.isBalanced_of_type (by simp [structUnit]) rfl (by rw [hedits, structUnit]) ?_
    rw [hedits]
    exact structEdits_isBlock _ _
  · have hdefinitions := Plan.isDefinitions (Plan.named r stems c) r stems
    have hdecl : ((Plan.of r stems c).unit r stems ids).declarationEdits r stems =
        (Plan.of r stems c).declarationEdits r ids := rfl
    have hdefs : ((Plan.of r stems c).unit r stems ids).definitionEdits r stems =
        (Plan.of r stems c).definitionEdits r stems := rfl
    refine ⟨by rw [hdecl]; rfl, ?_, ?_, ?_, ?_⟩
    · rw [hdefs]
      exact (if_pos rfl).symm
    · rw [hdecl]
      exact ((Plan.of r stems c).declarationEdits_isBlock r ids).isBalanced
    · rw [hdefs]
      exact hdefinitions.block.isBalanced
    · rw [hdefs]
      exact hdefinitions.opens

/-- The definition of the dock steps back 36 times. -/
theorem dock_balanced :
    ∃ t u, lowerClass quay (.ofTexts "" "") (.run { hash := Digest.XxHash.hash } []) dock =
        (t, .ok u) ∧ u.IsBalanced quay (.ofTexts "" "") ∧
      (u.definitionEdits quay (.ofTexts "" "")).countP Edit.stepsBack = 36 := by
  have hf : family quay dock = .simObject := by decide +kernel
  have hgranted : (((IdTable.run { hash := Digest.XxHash.hash } []).withScope dock.id).claimAll
      dock.id (classClaims quay (.ofTexts "" "") dock)).2.2 = none := by
    rw [classClaims, dockPlan_eq]
    decide +kernel
  obtain ⟨t, u, hl⟩ := lowerClass_of_granted hf hgranted
  obtain ⟨ids, hu⟩ := lowerClass_unit hf hl
  refine ⟨t, u, hl, lowerClass_balanced hl, ?_⟩
  have hedits : u.definitionEdits quay (.ofTexts "" "") =
      dockPlan.definitionEdits quay (.ofTexts "" "") := by
    rw [hu, ← dockPlan_eq]
    rfl
  rw [hedits]
  decide +kernel

end

end ObjectLowering.Lowering
