/-
  The functions of a simulation object.

  * `Plan.declared_declarationEdits`, `Plan.defined_definitionEdits`: which
    functions the code of a class declares and defines.
  * `Plan.declared_perm`: the declaration has the functions of the definition
    and those that its features declare.
  * `Plan.called_known`: what the definition calls is declared, or is called
    by a text of the model (`lowerClass_functions`).
-/
import Mathlib.Data.List.Count
import ObjectLowering.Proofs.FunctionBodies

namespace ObjectLowering.Lowering

open Model Code Text

/-! ## Declarations -/

theorem not_mem_of_chars {s : String} {c : Char} (h : ∀ c ∈ s.toList, isNameChar c = true)
    (hc : c ∈ "( .:=!<>[]\x7b\x7d&".toList) : c ∉ s.toList := by
  intro hmem
  have hno := h c hmem
  rw [isNameChar_sign c hc] at hno
  cases hno

section
variable {r : Registry} {l : Level}

/-- The enumerator that a level starts from continues its name. -/
theorem entry_chars (r : Registry) (l : Level) :
    ∃ rest, (∀ c ∈ rest.toList, isNameChar c = true) ∧ Machine.entry r l = l.name ++ rest := by
  have join : ∀ name, ∃ rest, (∀ c ∈ rest.toList, isNameChar c = true) ∧
      l.name ++ "_" ++ ident name = l.name ++ rest := by
    intro name
    refine ⟨"_" ++ ident name, fun c hc => ?_, String.append_assoc ..⟩
    rw [String.toList_append, List.mem_append] at hc
    rcases hc with hc | hc
    · rw [show c = '_' by simpa using hc]
      rfl
    · exact (isIdentifier_ident name).chars c hc
  have terminal : ∃ rest, (∀ c ∈ rest.toList, isNameChar c = true) ∧
      l.terminal = l.name ++ rest :=
    ⟨"_TERMINAL", List.all_eq_true.1 (by decide +kernel), rfl⟩
  unfold Machine.entry
  split
  · next p _ =>
    cases hd : Machine.directEntry r l p with
    | none => exact join _
    | some e =>
      unfold Machine.directEntry at hd
      split at hd
      · split_ifs at hd
        split at hd
        · split_ifs at hd
          rw [Option.getD_some, ← Option.some.inj hd]
          exact join _
        · cases hd
      · cases hd
  · cases ho : l.ordinals with
    | nil => exact terminal
    | cons e es =>
      have he : e ∈ l.ordinals := by rw [ho]; exact List.mem_cons_self
      obtain ⟨v, -, hv⟩ := List.mem_filterMap.1 he
      rw [List.head?_cons, Option.getD_some]
      cases v with
      | state s =>
        simp only [Option.ite_none_left_eq_some, Option.some.injEq] at hv
        rw [← hv.2]
        exact join _
      | pseudo p =>
        simp only [Option.ite_none_right_eq_some, Option.some.injEq] at hv
        rw [← hv.2]
        exact join _

theorem isIdentifier_initialValue (h : IsIdentifier l.name) :
    IsIdentifier (Machine.initialValue r l) := by
  unfold Machine.initialValue
  split_ifs
  · exact h.append (List.all_eq_true.1 (by decide +kernel))
  · obtain ⟨rest, hrest, heq⟩ := entry_chars r l
    rw [heq]
    exact h.append hrest

end

section
variable {r : Registry} {m : Machine}

theorem declared_append (es fs : List Edit) : declared (es ++ fs) = declared es ++ declared fs :=
  List.filterMap_append ..

theorem declared_map {α : Type} {xs : List α} {text : α → String} {signature : α → String}
    (h : ∀ x ∈ xs, declares? (.line (text x)) = some (signature x)) :
    declared (xs.map fun x => .line (text x)) = xs.map signature := by
  induction xs with
  | nil => rfl
  | cons x xs ih =>
    have hrest := ih fun y hy => h y (List.mem_cons_of_mem _ hy)
    rw [declared] at hrest ⊢
    rw [List.map_cons, List.filterMap_cons, h x List.mem_cons_self, hrest]
    rfl

/-- A line that declares a function without parameters. -/
theorem declares?_bare (front name : String) :
    declares? (.line (front ++ name ++ "();")) = some (front ++ name ++ "()") := by
  have htext : front ++ name ++ "();" = front ++ name ++ "(" ++ ");" :=
    String.toList_inj.1 (by simp [String.toList_append])
  have hsignature : front ++ name ++ "()" = front ++ name ++ "(" ++ ")" :=
    String.toList_inj.1 (by simp [String.toList_append])
  rw [htext, hsignature]
  exact declares?_function (by simp [String.toList_append])

theorem declared_enumEdits (l : Level) : declared l.enumEdits = [] := by
  refine List.filterMap_eq_nil_iff.2 fun e he => ?_
  simp only [Level.enumEdits, List.cons_append, List.mem_cons, List.mem_append, List.mem_map,
    List.not_mem_nil, or_false] at he
  rcases he with rfl | ⟨x, -, rfl⟩ | rfl
  · rfl
  · exact declares?_of_last (getLast?_append_text _ rfl) (by decide)
  · rfl

theorem declared_publicEdits (m : Machine) :
    declared m.publicEdits = m.levels.map Level.stepSignature := by
  have henums : declared (m.levels.flatMap Level.enumEdits) = [] := by
    refine List.filterMap_eq_nil_iff.2 fun e he => ?_
    obtain ⟨l, -, he⟩ := List.mem_flatMap.1 he
    exact List.filterMap_eq_nil_iff.1 (declared_enumEdits l) e he
  rw [Machine.publicEdits, declared_append, henums, List.nil_append]
  exact declared_map fun l _ => declares?_bare _ _

theorem declared_privateEdits (h : ∀ l ∈ m.levels, IsIdentifier l.name) :
    declared (m.privateEdits r) =
      (m.behaviourStates r).map fun p => p.1.stateSignature p.2 := by
  have hvariables : declared (m.levels.map fun l => .line
      ("uint64_t " ++ l.variableName ++ " = " ++ Machine.initialValue r l ++ ";")) = [] := by
    refine List.filterMap_eq_nil_iff.2 fun e he => ?_
    obtain ⟨l, hl, rfl⟩ := List.mem_map.1 he
    have hname := not_mem_of_chars (c := '(') (h l hl).chars (by decide)
    have hvalue := not_mem_of_chars (c := '(')
      (isIdentifier_initialValue (r := r) (h l hl)).chars (by decide)
    refine declares?_of_not_mem ?_
    simp [String.toList_append, Level.variableName, hname, hvalue]
  rw [Machine.privateEdits, declared_append, hvariables, List.nil_append, Machine.stateFunctions,
    List.map_map]
  exact declared_map fun p _ => declares?_bare _ _

end

theorem paren_not_mem_hexUpper (width n : Nat) : '(' ∉ (hexUpper width n).toList := by
  have hdigit : ∀ k < 16, '(' ≠ hexDigitUpper k := by decide
  rw [hexUpper, String.toList_ofList]
  induction width generalizing n with
  | zero => simp [hexDigits]
  | succ width ih =>
    rw [hexDigits, List.mem_append, List.mem_singleton]
    exact fun h => h.elim (ih _) (hdigit _ (Nat.mod_lt _ (by decide)))

theorem declared_idEdits (ids : List IdEntry) : declared (Plan.idEdits ids) = [] := by
  refine List.filterMap_eq_nil_iff.2 fun e he => ?_
  simp only [Plan.idEdits] at he
  split_ifs at he
  · cases he
  · rcases List.mem_append.1 he with he | he
    · obtain ⟨x, -, rfl⟩ := List.mem_map.1 he
      have hkey := not_mem_of_chars (c := '(') (isIdentifier_ident x.key).chars (by decide)
      have hid := paren_not_mem_hexUpper 16 x.id.toNat
      refine declares?_of_not_mem ?_
      simp [String.toList_append, formatId, hkey, hid]
    · obtain rfl := List.mem_singleton.1 he
      exact declares?_of_not_mem (by decide)

theorem declared_headed (first : List Edit) (h : declared first = []) (edits : List Edit) :
    declared (Plan.headed first edits) = declared edits := by
  rw [Plan.headed]
  split_ifs with hempty
  · rw [List.isEmpty_iff.1 hempty]
  · rw [declared_append, h, List.nil_append]

theorem Accessor.declares?_declaration (a : Accessor) :
    declares? (.line a.declaration) = some a.signature := by
  have hparameters : '(' ∈ a.declaration.toList := by simp [declaration, String.toList_append]
  have hmark : a.declaration = a.signature ++ " override;" := rfl
  rw [declares?, if_pos hparameters, hmark, beforeEnd?_append, Option.some_or]

/-! ## Names -/

section
variable {l : Level} {s : State}

theorem Accessor.functionName_signature (a : Accessor) : functionName a.signature = a.name := by
  have hresult : '(' ∉ a.result.toList := by cases a <;> decide +kernel
  have hname : a.name.toList.all isNameChar = true := by cases a <;> decide +kernel
  have hsignature : a.signature =
      a.result ++ " " ++ a.name ++ "(" ++ (a.parameters ++ ")" ++ a.constness) := by
    simp only [signature, String.append_assoc]
  rw [hsignature, functionName_eq hresult (List.all_eq_true.1 hname)]

theorem Accessor.signature_injective : Function.Injective Accessor.signature := by
  intro a b h
  have hname := congrArg functionName h
  rw [functionName_signature, functionName_signature] at hname
  cases a <;> cases b <;> simp_all [name]

theorem functionName_of_front (result front : String) {name signature : String}
    (hresult : '(' ∉ result.toList) (hfront : front ∈ ["Step_", "State_", "On_"])
    (hname : IsIdentifier name)
    (h : signature.toList = (result ++ " " ++ (front ++ name) ++ "(" ++ ")").toList) :
    functionName signature = front ++ name ∧ isReserved signature = true := by
  obtain rfl := String.toList_inj.1 h
  have hfunction : functionName (result ++ " " ++ (front ++ name) ++ "(" ++ ")") = front ++ name :=
    functionName_eq hresult (chars_of_front hfront hname)
  refine ⟨hfunction, ?_⟩
  rw [isReserved, hfunction]
  refine List.any_eq_true.2 ⟨front, hfront, List.isPrefixOf_iff_prefix.2 ?_⟩
  rw [String.toList_append]
  exact List.prefix_append ..

theorem Level.functionName_step (h : IsIdentifier l.name) :
    functionName l.stepSignature = "Step_" ++ l.name ∧ isReserved l.stepSignature = true :=
  functionName_of_front "bool" "Step_" (by decide) (by decide) h
    (by simp [stepSignature, String.toList_append])

theorem Level.functionName_state (h : IsIdentifier l.name) (s : State) :
    functionName (l.stateSignature s) = "State_" ++ l.stateConstant s ∧
      isReserved (l.stateSignature s) = true :=
  functionName_of_front "void" "State_" (by decide) (by decide)
    (h.join (isIdentifier_ident s.name)) (by simp [stateSignature, String.toList_append])

theorem isReserved_event {event : String} (h : IsIdentifier event) :
    isReserved (eventSignature event) = true :=
  (functionName_of_front "void" "On_" (by decide) (by decide) h
    (by simp [eventSignature, String.toList_append])).2

theorem isIdentifier_event {r : Registry} {ms : List Machine} {event : String}
    (h : event ∈ eventsOf r ms) : IsIdentifier event := by
  obtain ⟨m, -, h⟩ := List.mem_flatMap.1 (List.mem_eraseDups.1 h)
  obtain ⟨x, hx, rfl⟩ := List.mem_map.1 h
  simp only [Machine.triggered, List.mem_flatMap, List.mem_filterMap, Option.map_eq_some_iff] at hx
  obtain ⟨l, -, s, -, t, -, e, -, ev, -, rfl⟩ := hx
  exact isIdentifier_ident _

end

/-! ## Classes -/

namespace Plan

/-- The functions that the texts of the features declare: operations, and what types and defaults
    of the model look like. -/
def featureFunctions (p : Plan) : List String :=
  declared (p.features.data.map (fun m => .line m.line) ++
    p.features.operations.map fun o => .line (operationLine o))

/-- The signatures of the functions of a machine. -/
def machineSignatures (r : Registry) (m : Machine) : List String :=
  m.levels.map Level.stepSignature ++
    (m.behaviourStates r).map fun x => x.1.stateSignature x.2

/-- The names of the levels of all machines are identifiers. -/
def Named (p : Plan) : Prop := ∀ m ∈ p.machines, ∀ l ∈ m.levels, IsIdentifier l.name

theorem named (r : Registry) (stems : Stems) (c : Classifier) : (Plan.of r stems c).Named := by
  intro m hm l hl
  obtain ⟨sm, -, rfl⟩ := List.mem_map.1 hm
  exact isIdentifier_name hl

section
variable {p : Plan} {r : Registry} {stems : Stems}

theorem declared_flatMap {α : Type} {xs : List α} {edits : α → List Edit}
    {signatures : α → List String} (h : ∀ x ∈ xs, declared (edits x) = signatures x) :
    declared (xs.flatMap edits) = xs.flatMap signatures := by
  rw [declared, List.filterMap_flatMap]
  exact List.flatMap_congr h

theorem declared_declarationEdits (h : p.Named) (r : Registry) (ids : List IdEntry) :
    declared (p.declarationEdits r ids) =
      p.machines.flatMap (fun m => m.levels.map Level.stepSignature) ++
      (p.events r).map eventSignature ++ Accessor.all.map Accessor.signature ++
      p.featureFunctions ++
      p.machines.flatMap fun m => (m.behaviourStates r).map fun x => x.1.stateSignature x.2 := by
  have hhead : declared [.opening ("class " ++ p.name ++ " : public sim::SimObject"), .dedent,
      .line "public:", .indent] = [] := rfl
  have hblank : declared (if p.machines.isEmpty then [] else [.line ""]) = [] := by
    split_ifs <;> rfl
  have hclosing : declared [.closing ";"] = [] := rfl
  simp only [declarationEdits, behaviourEdits, declared_append, declared_idEdits, hhead, hblank,
    hclosing,
    declared_headed [.line ""] rfl,
    declared_headed [.line "", .dedent, .line "private:", .indent] rfl,
    declared_flatMap fun m _ => declared_publicEdits m,
    declared_flatMap fun m hm => declared_privateEdits (r := r) (h m hm),
    declared_map fun e _ => declares?_bare "void On_" e,
    declared_map fun a _ => Accessor.declares?_declaration a, featureFunctions, List.append_assoc,
    List.nil_append, List.append_nil]
  rfl

theorem machine_defined {name : String} (hname : IsIdentifier name) {m : Machine}
    {known : String → Prop} (h : m.Knows r known) :
    defined name (m.definitionEdits r name) = machineSignatures r m := by
  have hsteps : defined name (m.levels.flatMap fun l => spaced ((m.stepFunction r l).edits name)) =
      m.levels.map Level.stepSignature :=
    defined_flatMap hname fun l hl => stepFunction_isFunction h hl name
  have hstates : defined name ((m.behaviourStates r).flatMap fun x =>
      spaced ((m.stateFunction r x.1 x.2).edits name)) =
      (m.behaviourStates r).map fun x => x.1.stateSignature x.2 :=
    defined_flatMap hname fun x hx => stateFunction_isFunction known hx name
  rw [Machine.definitionEdits, defined, List.filterMap_append, Machine.stepFunctions,
    Machine.stateFunctions, List.flatMap_map, List.flatMap_map]
  exact congrArg₂ (· ++ ·) hsteps hstates

/-- The machines of the plan have a function of the name. -/
def Knows (p : Plan) (r : Registry) (name : String) : Prop :=
  ∃ s ∈ p.machines.flatMap (machineSignatures r), functionName s = name

theorem Named.knows (h : p.Named) {m : Machine} (hm : m ∈ p.machines) :
    m.Knows r (p.Knows r) where
  names := h m hm
  steps l hl :=
    ⟨l.stepSignature, List.mem_flatMap.2 ⟨m, hm, List.mem_append_left _ (List.mem_map_of_mem hl)⟩,
      (l.functionName_step (h m hm l hl)).1⟩
  states l s hs := by
    have hl : l ∈ m.levels := by
      obtain ⟨l', hl, hs⟩ := List.mem_flatMap.1 hs
      obtain ⟨s', -, heq⟩ := List.mem_map.1 hs
      obtain ⟨rfl, -⟩ := Prod.mk.inj heq
      exact hl
    exact ⟨l.stateSignature s,
      List.mem_flatMap.2 ⟨m, hm, List.mem_append_right _ (List.mem_map.2 ⟨(l, s), hs, rfl⟩)⟩,
      (l.functionName_state (h m hm l hl) s).1⟩

theorem defined_definitionEdits (h : p.Named) (r : Registry) (stems : Stems) :
    defined p.name (p.definitionEdits r stems) =
      Accessor.all.map Accessor.signature ++ p.machines.flatMap (machineSignatures r) ++
      (p.events r).map eventSignature := by
  have hname : IsIdentifier p.name := isIdentifier_ident _
  have haccessors : defined p.name (Accessor.all.flatMap fun a => spaced
      (a.edits p.name p.survey.locations (p.stateVariables stems))) =
      Accessor.all.map Accessor.signature :=
    defined_flatMap hname fun a _ => a.isFunction r (p.Knows r) ..
  have hmachines : defined p.name (p.machines.flatMap (·.definitionEdits r p.name)) =
      p.machines.flatMap (machineSignatures r) := by
    rw [defined, List.filterMap_flatMap]
    exact List.flatMap_congr fun m hm => machine_defined hname (h.knows hm)
  have hevents : defined p.name ((p.events r).flatMap fun e => spaced
      (eventEdits r p.name p.machines e)) = (p.events r).map eventSignature :=
    defined_flatMap hname fun e _ => eventEdits_isFunction r (p.Knows r) ..
  rw [definitionEdits, defined, List.filterMap_append, List.filterMap_append]
  exact congrArg₂ (· ++ ·) (congrArg₂ (· ++ ·) haccessors hmachines) hevents

/-- The declaration has the functions of the definition and those of the features. -/
theorem declared_perm (h : p.Named) (r : Registry) (stems : Stems) (ids : List IdEntry) :
    (declared (p.declarationEdits r ids)).Perm
      (defined p.name (p.definitionEdits r stems) ++ p.featureFunctions) := by
  rw [declared_declarationEdits h, defined_definitionEdits h, List.perm_iff_count]
  intro s
  have hmachines := (List.flatMap_append_perm p.machines
    (fun m => m.levels.map Level.stepSignature)
    (fun m => (m.behaviourStates r).map fun x => x.1.stateSignature x.2)).count_eq s
  rw [List.count_append] at hmachines
  simp only [List.count_append]
  unfold machineSignatures
  omega

/-- Calls in the definition, outside of the texts of the model, name functions of the machines. -/
theorem called_known (h : p.Named) {e : Edit} (he : e ∈ p.definitionEdits r stems) {n : String}
    (hn : calledIn? e = some n) : p.Knows r n ∨ IsCopied r e := by
  simp only [definitionEdits, List.mem_append] at he
  rcases he with (he | he) | he
  · exact called_flatMap (fun a _ => a.isFunction r (p.Knows r) ..) he hn
  · obtain ⟨m, hm, he⟩ := List.mem_flatMap.1 he
    simp only [Machine.definitionEdits, Machine.stepFunctions, Machine.stateFunctions,
      List.flatMap_map] at he
    rcases List.mem_append.1 he with he | he
    · exact called_flatMap (fun l hl => stepFunction_isFunction (h.knows hm) hl p.name) he hn
    · exact called_flatMap (fun x hx => stateFunction_isFunction (p.Knows r) hx p.name) he hn
  · exact called_flatMap (fun e _ => eventEdits_isFunction r (p.Knows r) ..) he hn

theorem isReserved_of_mem_machineSignatures (h : p.Named) {m : Machine} (hm : m ∈ p.machines)
    {s : String} (hs : s ∈ machineSignatures r m) : isReserved s = true := by
  rcases List.mem_append.1 hs with hs | hs
  · obtain ⟨l, hl, rfl⟩ := List.mem_map.1 hs
    exact (l.functionName_step (h m hm l hl)).2
  · obtain ⟨x, hx, rfl⟩ := List.mem_map.1 hs
    obtain ⟨l, hl, hx⟩ := List.mem_flatMap.1 hx
    obtain ⟨s, -, rfl⟩ := List.mem_map.1 hx
    exact (l.functionName_state (h m hm l hl) s).2

theorem Named.defined_cases (h : p.Named) {s : String}
    (hs : s ∈ defined p.name (p.definitionEdits r stems)) :
    isReserved s = true ∨ ∃ a : Accessor, s = a.signature := by
  rw [defined_definitionEdits h, List.mem_append, List.mem_append] at hs
  rcases hs with (hs | hs) | hs
  · obtain ⟨a, -, rfl⟩ := List.mem_map.1 hs
    exact Or.inr ⟨a, rfl⟩
  · obtain ⟨m, hm, hs⟩ := List.mem_flatMap.1 hs
    exact Or.inl (isReserved_of_mem_machineSignatures h hm hs)
  · obtain ⟨e, he, rfl⟩ := List.mem_map.1 hs
    exact Or.inl (isReserved_event (isIdentifier_event he))

/-- Each accessor is defined once: the other functions have reserved names. -/
theorem Named.count_accessor (h : p.Named) (r : Registry) (stems : Stems) (a : Accessor) :
    (defined p.name (p.definitionEdits r stems)).count a.signature = 1 := by
  have hone : (Accessor.all.map Accessor.signature).count a.signature = 1 := by
    rw [List.count_map_of_injective _ _ Accessor.signature_injective]
    cases a <;> decide
  have hfree : isReserved a.signature = false := by
    rw [isReserved, a.functionName_signature]
    cases a <;> decide +kernel
  have hmachines : a.signature ∉ p.machines.flatMap (machineSignatures r) := by
    intro hs
    obtain ⟨m, hm, hs⟩ := List.mem_flatMap.1 hs
    rw [isReserved_of_mem_machineSignatures h hm hs] at hfree
    cases hfree
  have hevents : a.signature ∉ (p.events r).map eventSignature := by
    intro hs
    obtain ⟨e, he, hs⟩ := List.mem_map.1 hs
    rw [← hs, isReserved_event (isIdentifier_event he)] at hfree
    cases hfree
  rw [defined_definitionEdits h, List.count_append, List.count_append, hone,
    List.count_eq_zero.2 hmachines, List.count_eq_zero.2 hevents]

theorem Named.declared_of_knows (h : p.Named) {n : String} (hn : p.Knows r n)
    (ids : List IdEntry) : ∃ s ∈ declared (p.declarationEdits r ids), functionName s = n := by
  obtain ⟨s, hs, hname⟩ := hn
  refine ⟨s, (declared_perm h r {} ids).mem_iff.2 (List.mem_append_left _ ?_), hname⟩
  rw [defined_definitionEdits h]
  exact List.mem_append_left _ (List.mem_append_right _ hs)

end

end Plan

/-- What is in one list and not in the other decides whether they have the same members. -/
theorem filter_perm_iff {xs ys zs : List String} (h : xs.Perm (ys ++ zs)) (q : String → Bool) :
    (xs.filter q).Perm (ys.filter q) ↔ ∀ s ∈ zs, q s = false := by
  have hfilter := h.filter q
  rw [List.filter_append] at hfilter
  constructor
  · intro hperm s hs
    have hlength := (hfilter.symm.trans hperm).length_eq
    rw [List.length_append] at hlength
    have hnil : zs.filter q = [] := List.length_eq_zero_iff.1 (by omega)
    exact Bool.eq_false_iff.2 (List.filter_eq_nil_iff.1 hnil s hs)
  · intro hnone
    have hnil : zs.filter q = [] :=
      List.filter_eq_nil_iff.2 fun s hs => Bool.eq_false_iff.1 (hnone s hs)
    rwa [hnil, List.append_nil] at hfilter

/-- **The functions of a class**, for all registries and all classes that are lowered.  The
    definition of a simulation object defines the functions that its declaration declares, as often
    as they are declared, but for what its features declare: operations are not defined.  The step,
    state and event functions declared are those defined iff no feature declares a function with
    such a name.  The accessors are defined once each, and declared once more than by features.
    Calls of step and state functions name declared functions, or are texts of the model.  Other
    classes have no definition. -/
theorem lowerClass_functions {r : Registry} {stems : Stems} {c : Classifier} {t t' : IdTable}
    {u : CodeUnit} (hl : lowerClass r stems t c = (t', .ok u)) :
    (family r c = .simObject → ∃ ids p, p = Plan.of r stems c ∧ u = p.unit r stems ids ∧
      ∃ decls defs, decls = declared (p.declarationEdits r ids) ∧
        defs = defined p.name (p.definitionEdits r stems) ∧
        decls.Perm (defs ++ p.featureFunctions) ∧
        ((decls.filter isReserved).Perm (defs.filter isReserved) ↔
          ∀ s ∈ p.featureFunctions, isReserved s = false) ∧
        (∀ s ∈ defs, isReserved s = true ∨ ∃ a : Accessor, s = a.signature) ∧
        (∀ a : Accessor, defs.count a.signature = 1 ∧
          decls.count a.signature = 1 + p.featureFunctions.count a.signature) ∧
        ∀ e ∈ p.definitionEdits r stems, ∀ n, calledIn? e = some n →
          (∃ s ∈ decls, functionName s = n) ∨ IsCopied r e) ∧
    (family r c ≠ .simObject → u.definition = "") := by
  refine ⟨fun hf => ?_, fun hf => ?_⟩
  · obtain ⟨ids, hu⟩ := lowerClass_unit hf hl
    have hnamed := Plan.named r stems c
    have hperm := Plan.declared_perm hnamed r stems ids
    refine ⟨ids, _, rfl, hu, _, _, rfl, rfl, hperm, filter_perm_iff hperm isReserved,
      fun s hs => hnamed.defined_cases hs, fun a => ?_, fun e he n hn => ?_⟩
    · have hone := hnamed.count_accessor r stems a
      exact ⟨hone, by rw [hperm.count_eq, List.count_append, hone]⟩
    · exact (Plan.called_known hnamed he hn).imp_left fun h => hnamed.declared_of_knows h ids
  · unfold lowerClass at hl
    split at hl
    · rw [← Except.ok.inj (Prod.mk.inj hl).2]
      rfl
    · rw [← Except.ok.inj (Prod.mk.inj hl).2]
      rfl
    all_goals
      rw [if_neg hf] at hl
      rw [← Except.ok.inj (Prod.mk.inj hl).2]
      rfl

/-! A dock is free or taken, and a ship that takes it is loaded. -/

def dock : Classifier := { id := "dock", name := "Dock", stereotype := "SimObject" }

def dockMachine : StateMachine := { id := "m", name := "Berth", parent := "dock" }

def dockTaken : State := { id := "taken", name := "Taken", parent := "m" }

def quay : Registry := Registry.prepare { elements := [
  .classifier dock,
  .operation { id := "o", name := "Clear", parent := "dock" },
  .stateMachine dockMachine,
  .event { id := "arrival", name := "Arrival" },
  .pseudoState { id := "start", name := "Start", parent := "m", pseudoKind := .initial },
  .state { id := "free", name := "Free", parent := "m" },
  .state dockTaken,
  .state { id := "load", name := "Loading", parent := "taken" },
  .state { id := "full", name := "Full", parent := "taken", isFinal := true },
  .action { id := "crane", parent := "load", body := "crane.Lift()" },
  .transition { id := "t1", source := "start", target := "free" },
  .transition { id := "t2", source := "free", target := "taken", triggers := ["arrival"] },
  .transition { id := "t3", source := "load", target := "full" },
  .transition { id := "t4", source := "taken", target := "free" }] }

/-- The plan of the dock with its levels written out. -/
def dockPlan : Plan :=
  { Plan.of quay (.ofTexts "" "") dock with
    machines := [⟨dockMachine, [topLevel quay dockMachine,
      (topLevel quay dockMachine).insideOf quay dockTaken]⟩] }

theorem dockPlan_eq : Plan.of quay (.ofTexts "" "") dock = dockPlan := by
  have htrees : quay.machineTrees dockMachine.id =
      [.pseudo _, .state _ [], .state dockTaken [.state _ [], .state _ []]] := rfl
  have hmachines : (quay.owned dock.id).machines = [dockMachine] := rfl
  refine Plan.of_machines ?_
  rw [hmachines, List.map_singleton, Machine.of, levelsOf_eq, htrees]
  simp only [nestedLevels]
  rfl

theorem dock_functions_agree :
    ∃ t u ids, lowerClass quay (.ofTexts "" "") (.run { hash := Digest.XxHash.hash } []) dock =
        (t, .ok u) ∧
      u = dockPlan.unit quay (.ofTexts "" "") ids ∧
      ((declared (dockPlan.declarationEdits quay ids)).filter isReserved).Perm
        ((defined "Dock" (dockPlan.definitionEdits quay (.ofTexts "" ""))).filter isReserved) ∧
      ∀ a : Accessor, (declared (dockPlan.declarationEdits quay ids)).count a.signature = 1 := by
  have hf : family quay dock = .simObject := by decide +kernel
  have hgranted : (((IdTable.run { hash := Digest.XxHash.hash } []).withScope dock.id).claimAll
      dock.id (classClaims quay (.ofTexts "" "") dock)).2.2 = none := by
    rw [classClaims, dockPlan_eq]
    decide +kernel
  have hfeatures : dockPlan.featureFunctions = ["void Clear()"] := by decide +kernel
  obtain ⟨t, u, hl⟩ := lowerClass_of_granted hf hgranted
  obtain ⟨ids, p, hp, hu, decls, defs, hdecls, hdefs, -, hreserved, -, haccessors, -⟩ :=
    (lowerClass_functions hl).1 hf
  obtain rfl := hp.trans dockPlan_eq
  rw [hdecls, hdefs] at hreserved
  simp only [hdecls] at haccessors
  refine ⟨t, u, ids, hl, hu, hreserved.2 ?_, fun a => ?_⟩
  · rw [hfeatures]
    decide +kernel
  · rw [(haccessors a).2, hfeatures]
    cases a <;> decide +kernel

/-! A beacon has an operation with the name of an event function, and an activity that calls a step
    function. -/

def beacon : Classifier := { id := "beacon", name := "Beacon", stereotype := "SimObject" }

def beaconMachine : StateMachine := { id := "m", name := "M", parent := "beacon" }

def lantern : Classifier := { id := "lantern", name := "Lantern" }

def shore : Registry := Registry.prepare { elements := [
  .classifier beacon,
  .operation { id := "go", name := "On_Go", parent := "beacon" },
  .stateMachine beaconMachine,
  .state { id := "lit", name := "Lit", parent := "m" },
  .action { id := "turn", parent := "lit", body := "Step_Nowhere()" },
  .classifier lantern] }

/-- The plan of the beacon with its level written out. -/
def beaconPlan : Plan :=
  { Plan.of shore (.ofTexts "" "") beacon with
    machines := [⟨beaconMachine, [topLevel shore beaconMachine]⟩] }

theorem beaconPlan_eq : Plan.of shore (.ofTexts "" "") beacon = beaconPlan := by
  have htrees : shore.machineTrees beaconMachine.id = [.state _ []] := rfl
  have hmachines : (shore.owned beacon.id).machines = [beaconMachine] := rfl
  refine Plan.of_machines ?_
  rw [hmachines, List.map_singleton, Machine.of, levelsOf_eq, htrees]
  simp only [nestedLevels]
  rfl

/-- The beacon declares an event function that it does not define, and calls a step function that
    it does not declare; the lantern has no accessors. -/
theorem beacon_functions_apart :
    (∃ t u ids, lowerClass shore (.ofTexts "" "") (.run { hash := Digest.XxHash.hash } []) beacon =
        (t, .ok u) ∧
      u = beaconPlan.unit shore (.ofTexts "" "") ids ∧
      isReserved "void On_Go()" = true ∧
      "void On_Go()" ∈ declared (beaconPlan.declarationEdits shore ids) ∧
      "void On_Go()" ∉ defined "Beacon" (beaconPlan.definitionEdits shore (.ofTexts "" "")) ∧
      .line "Step_Nowhere();" ∈ beaconPlan.definitionEdits shore (.ofTexts "" "") ∧
      ∀ s ∈ declared (beaconPlan.declarationEdits shore ids), functionName s ≠ "Step_Nowhere") ∧
    ∃ t u, lowerClass shore (.ofTexts "" "") (.run { hash := Digest.XxHash.hash } []) lantern =
        (t, .ok u) ∧ u.declaration = "struct Lantern \x7b\n\x7d;\n" ∧ u.definition = "" := by
  have hf : family shore beacon = .simObject := by decide +kernel
  have hnamed : beaconPlan.Named := beaconPlan_eq ▸ Plan.named shore (.ofTexts "" "") beacon
  have hgranted : (((IdTable.run { hash := Digest.XxHash.hash } []).withScope beacon.id).claimAll
      beacon.id (classClaims shore (.ofTexts "" "") beacon)).2.2 = none := by
    rw [classClaims, beaconPlan_eq]
    decide +kernel
  have hdefined : defined "Beacon" (beaconPlan.definitionEdits shore (.ofTexts "" "")) =
      Accessor.all.map Accessor.signature ++ ["bool Step_M()", "void State_M_Lit()"] :=
    (Plan.defined_definitionEdits hnamed shore _).trans (by decide +kernel)
  have hfeatures : beaconPlan.featureFunctions = ["void On_Go()"] := by decide +kernel
  obtain ⟨t, u, hl⟩ := lowerClass_of_granted hf hgranted
  obtain ⟨ids, hu⟩ := lowerClass_unit hf hl
  rw [beaconPlan_eq] at hu
  have hdeclared : ∀ s, s ∈ declared (beaconPlan.declarationEdits shore ids) ↔
      s ∈ Accessor.all.map Accessor.signature ++ ["bool Step_M()", "void State_M_Lit()"] ++
        ["void On_Go()"] := by
    intro s
    rw [(Plan.declared_perm hnamed shore (.ofTexts "" "") ids).mem_iff, ← hdefined, hfeatures]
    rfl
  refine ⟨⟨t, u, ids, hl, hu, by decide +kernel, ?_, ?_, by decide +kernel, fun s hs => ?_⟩, ?_⟩
  · exact (hdeclared _).2 (by decide +kernel)
  · rw [hdefined]
    decide +kernel
  · have hnames : (Accessor.all.map Accessor.signature ++
        ["bool Step_M()", "void State_M_Lit()"] ++ ["void On_Go()"]).map functionName =
        Accessor.all.map Accessor.name ++ ["Step_M", "State_M_Lit", "On_Go"] := by
      simp only [List.map_append, List.map_map, Function.comp_def, Accessor.functionName_signature]
      decide +kernel
    have hmem := List.mem_map_of_mem (f := functionName) ((hdeclared s).1 hs)
    rw [hnames] at hmem
    intro hname
    rw [hname] at hmem
    exact absurd hmem (by decide +kernel)
  · have hstruct : lowerClass shore (.ofTexts "" "") (.run { hash := Digest.XxHash.hash } [])
        lantern = (.run { hash := Digest.XxHash.hash } [],
          .ok (structUnit shore (.ofTexts "" "") lantern)) := by
      rw [lowerClass, show lantern.kind = .objectClass from rfl]
      exact if_neg (by decide +kernel)
    exact ⟨_, _, hstruct, by decide +kernel, rfl⟩

end ObjectLowering.Lowering
