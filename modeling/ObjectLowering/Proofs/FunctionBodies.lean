/-
  Code inside of functions.

  * `declares?` and `defines?` read functions back from the code of a class,
    `calledIn?` the calls of step and state functions.
  * `IsBody` is code that calls no other step and state functions than those
    that are known, or is a text of the model; `IsFunction` is a definition
    with such code inside.
  * `Accessor.isFunction`, `stepFunction_isFunction`,
    `stateFunction_isFunction`, `eventEdits_isFunction`: what the definition
    of a class is made of.
-/
import ObjectLowering.Proofs.Accessors
import ObjectLowering.Proofs.Branches
import ObjectLowering.Proofs.Conditions
import ObjectLowering.Proofs.Sources

namespace ObjectLowering

/-! ## Reading functions -/

namespace Code

/-- What stands in front of an ending. -/
def beforeEnd? (ending text : String) : Option String :=
  if ending.toList <:+ text.toList then
    some (String.ofList (text.toList.take (text.toList.length - ending.toList.length)))
  else none

/-- The function that a line declares, without the mark of an override: a line with a parameter
    list, and a semicolon at its end. -/
def declares? : Edit → Option String
  | .line text =>
    if '(' ∈ text.toList then (beforeEnd? " override;" text).or (beforeEnd? ";" text) else none
  | _ => none

/-- The function that a head opens, if it is one of the class `name`, without the class. -/
def defines? (name : String) : Edit → Option String
  | .opening head =>
    let result := head.toList.takeWhile (· ≠ ' ')
    let rest := head.toList.dropWhile (· ≠ ' ')
    let class' := (" " ++ name ++ "::").toList
    if class' <+: rest then
      some (String.ofList (result ++ ' ' :: rest.drop class'.length))
    else none
  | _ => none

/-- The functions that code declares. -/
def declared (edits : List Edit) : List String := edits.filterMap declares?

/-- The functions of a class that code defines. -/
def defined (name : String) (edits : List Edit) : List String := edits.filterMap (defines? name)

/-- The name of a function: the word in front of its parameters. -/
def functionName (signature : String) : String :=
  String.ofList (((signature.toList.takeWhile (· ≠ '(')).reverse.takeWhile isNameChar).reverse)

/-- The function belongs to a state machine or to an event, by its name. -/
def isReserved (signature : String) : Bool :=
  ["Step_", "State_", "On_"].any fun front =>
    front.toList.isPrefixOf (functionName signature).toList

/-- The step or state function whose name stands in front of an ending. -/
def callee? (ending : String) (cs : List Char) : Option String :=
  let name := cs.takeWhile isNameChar
  if cs.dropWhile isNameChar = ending.toList ∧
      ("Step_".toList <+: name ∨ "State_".toList <+: name) then some (String.ofList name)
  else none

/-- The step or state function that code calls, as a statement or in a test. -/
def calledIn? : Edit → Option String
  | .line text => callee? "();" text.toList
  | .opening head =>
    if "if (!".toList <+: head.toList then callee? "())" (head.toList.drop 5) else none
  | _ => none

theorem beforeEnd?_append (a ending : String) : beforeEnd? ending (a ++ ending) = some a := by
  simp [beforeEnd?, String.toList_append]

theorem beforeEnd?_eq_none {ending text : String} {x y : Char}
    (hending : ending.toList.getLast? = some x) (htext : text.toList.getLast? = some y)
    (hne : x ≠ y) : beforeEnd? ending text = none := by
  rw [beforeEnd?, if_neg]
  rintro ⟨front, hfront⟩
  rw [← hfront, List.getLast?_append, hending] at htext
  exact hne (Option.some.inj htext)

/-- Signs that stand in no name. -/
theorem isNameChar_sign : ∀ c ∈ "( .:=!<>[]\x7b\x7d&".toList, isNameChar c = false := by
  have hall : ("( .:=!<>[]\x7b\x7d&".toList.all fun c => !isNameChar c) = true := by
    decide +kernel
  intro c hc
  simpa using List.all_eq_true.1 hall c hc

theorem declares?_function {s : String} (h : '(' ∈ s.toList) :
    declares? (.line (s ++ ");")) = some (s ++ ")") := by
  have hmark : beforeEnd? " override;" (s ++ ");") = none := by
    rw [beforeEnd?, if_neg]
    rintro ⟨front, hfront⟩
    rw [String.toList_append] at hfront
    have hsplit : (front ++ " overrid".toList) ++ ['e', ';'] = s.toList ++ [')', ';'] := by
      rw [List.append_assoc]
      exact hfront
    cases (List.append_inj' hsplit rfl).2
  have hplain : s ++ ");" = (s ++ ")") ++ ";" := by rw [String.append_assoc]; rfl
  rw [declares?, if_pos (by simp [h]), hmark, Option.none_or, hplain, beforeEnd?_append]

theorem declares?_of_not_mem {text : String} (h : '(' ∉ text.toList) :
    declares? (.line text) = none := if_neg h

theorem declares?_of_last {text : String} {c : Char} (h : text.toList.getLast? = some c)
    (hc : c ≠ ';') : declares? (.line text) = none := by
  rw [declares?]
  split_ifs
  · rw [beforeEnd?_eq_none (x := ';') rfl h hc.symm, beforeEnd?_eq_none (x := ';') rfl h hc.symm]
    rfl
  · rfl

theorem defines?_function {result name s : String} (h : ' ' ∉ result.toList) :
    defines? name (.opening (result ++ " " ++ name ++ "::" ++ s)) = some (result ++ " " ++ s) := by
  have hall : ∀ c ∈ result.toList, decide (c ≠ ' ') = true := by
    intro c hc
    simp only [decide_eq_true_eq]
    rintro rfl
    exact h hc
  have htext : (result ++ " " ++ name ++ "::" ++ s).toList =
      result.toList ++ ((" " ++ name ++ "::").toList ++ s.toList) := by
    simp [String.toList_append]
  have hrest : ((" " ++ name ++ "::").toList ++ s.toList).dropWhile (· ≠ ' ') =
      (" " ++ name ++ "::").toList ++ s.toList := by
    simp [String.toList_append]
  have htake : ((" " ++ name ++ "::").toList ++ s.toList).takeWhile (· ≠ ' ') = [] := by
    simp [String.toList_append]
  simp only [defines?]
  rw [htext, List.dropWhile_append_of_pos hall, List.takeWhile_append_of_pos hall, hrest, htake,
    if_pos (List.prefix_append ..), List.drop_left, List.append_nil]
  refine congrArg some (String.toList_inj.1 ?_)
  simp [String.toList_append]

/-- What opens a switch or a conditional opens no function. -/
theorem defines?_of_front {name head : String} (hname : IsIdentifier name)
    (h : "switch (".toList <+: head.toList ∨ "if (".toList <+: head.toList) :
    defines? name (.opening head) = none := by
  obtain ⟨c, cs, hcs, -⟩ := hname.head
  have hc : isNameChar c = true := hname.chars c (by simp [hcs])
  have hne : c ≠ '(' := by
    rintro rfl
    rw [isNameChar_sign '(' (by decide)] at hc
    cases hc
  have hclass : (" " ++ name ++ "::").toList = ' ' :: c :: (cs ++ "::".toList) := by
    simp [String.toList_append, hcs]
  simp only [defines?]
  rw [if_neg]
  rw [hclass]
  rintro ⟨more, hmore⟩
  rcases h with ⟨rest, hrest⟩ | ⟨rest, hrest⟩ <;> rw [← hrest] at hmore <;> simp at hmore
  all_goals exact hne hmore.1

theorem functionName_eq {front name rest : String} (hfront : '(' ∉ front.toList)
    (hname : ∀ c ∈ name.toList, isNameChar c = true) :
    functionName (front ++ " " ++ name ++ "(" ++ rest) = name := by
  have hopen : ∀ c ∈ (front ++ " " ++ name).toList, decide (c ≠ '(') = true := by
    intro c hc
    simp only [decide_eq_true_eq]
    rintro rfl
    rw [String.toList_append, String.toList_append, List.mem_append, List.mem_append] at hc
    rcases hc with (hc | hc) | hc
    · exact hfront hc
    · simp at hc
    · have hno := hname '(' hc
      rw [isNameChar_sign '(' (by decide)] at hno
      cases hno
  have htext : (front ++ " " ++ name ++ "(" ++ rest).toList =
      (front ++ " " ++ name).toList ++ ('(' :: rest.toList) := by
    simp [String.toList_append]
  have hblank : isNameChar ' ' = false := isNameChar_sign ' ' (by decide)
  rw [functionName, htext, List.takeWhile_append_of_pos hopen,
    List.takeWhile_cons_of_neg (by simp), List.append_nil, String.toList_append,
    List.reverse_append, List.takeWhile_append_of_pos (by simpa using hname), String.toList_append,
    List.reverse_append]
  simp [hblank]

theorem callee?_eq_none {ending : String} {cs : List Char} {c : Char} (hc : c ∈ cs)
    (hname : isNameChar c = false) (hending : c ∉ ending.toList) : callee? ending cs = none := by
  simp only [callee?]
  rw [if_neg]
  rintro ⟨hrest, -⟩
  rw [← List.takeWhile_append_dropWhile (p := isNameChar) (l := cs), hrest, List.mem_append] at hc
  rcases hc with hc | hc
  · have hin := List.mem_takeWhile_imp hc
    rw [hname] at hin
    cases hin
  · exact hending hc

theorem callee?_append {ending name n : String} (hname : ∀ c ∈ name.toList, isNameChar c = true)
    (hending : ending.toList.takeWhile isNameChar = [])
    (h : callee? ending (name.toList ++ ending.toList) = some n) : n = name := by
  simp only [callee?] at h
  split_ifs at h
  rw [List.takeWhile_append_of_pos hname, hending, List.append_nil, String.ofList_toList] at h
  exact (Option.some.inj h).symm

end Code

namespace Lowering

open Model Code Text

/-! ## Code inside of functions -/

/-- Code that opens no function and calls no step or state function. -/
def IsPlain (e : Edit) : Prop :=
  calledIn? e = none ∧
    ∀ head, e = .opening head → "switch (".toList <+: head.toList ∨ "if (".toList <+: head.toList

/-- Code inside of functions: plain, a call of a function that is known, or a text of the model, as
    a statement or as a condition. -/
inductive IsBody (r : Registry) (known : String → Prop) : Edit → Prop where
  | plain {e : Edit} (h : IsPlain e) : IsBody r known e
  | call {name : String} (h : known name) (hn : ∀ c ∈ name.toList, isNameChar c = true) :
    IsBody r known (.line (name ++ "();"))
  | test {level : String} (h : known ("Step_" ++ level))
    (hn : ∀ c ∈ ("Step_" ++ level).toList, isNameChar c = true) :
    IsBody r known (.opening ("if (!Step_" ++ level ++ "())"))
  | action {x : String} {a : Action} (h : a ∈ (r.owned x).actions) :
    IsBody r known (.line (statementOf a.body))
  | guard {x : String} {t : Transition} (h : t ∈ (r.owned x).outgoing) :
    IsBody r known (.opening ("if (" ++ trim t.guard ++ ")"))

/-- The code is a text of the model: the statement of an action or the guard of a transition. -/
def IsCopied (r : Registry) (e : Edit) : Prop :=
  (∃ x, ∃ a ∈ (r.owned x).actions, e = .line (statementOf a.body)) ∨
    ∃ x, ∃ t ∈ (r.owned x).outgoing, e = .opening ("if (" ++ trim t.guard ++ ")")

section
variable {r : Registry} {known : String → Prop} {e : Edit}

theorem mem_front {c : Char} {front : String} (rest : String) (h : c ∈ front.toList) :
    c ∈ (front ++ rest).toList := by
  rw [String.toList_append]
  exact List.mem_append_left _ h

theorem isPlain_line {text : String} {c : Char} (hc : c ∈ text.toList)
    (hsign : c ∈ " .:=!<>[]\x7b\x7d&".toList) : IsPlain (.line text) := by
  have hout : (" .:=!<>[]\x7b\x7d&".toList.all fun c => c ∉ "();".toList) = true := by
    decide +kernel
  have hname := isNameChar_sign c (List.mem_cons_of_mem _ hsign)
  have hclosing := of_decide_eq_true (List.all_eq_true.1 hout c hsign)
  exact ⟨callee?_eq_none hc hname hclosing, by simp⟩

theorem front_if (cond : String) : "if (".toList <+: ("if (" ++ cond ++ ")").toList := by
  rw [String.append_assoc, String.toList_append]
  exact List.prefix_append ..

/-- A condition that is no negation. -/
theorem isPlain_if_of_head {cond : String} {c : Char} {cs : List Char} (h : cond.toList = c :: cs)
    (hc : c ≠ '!') : IsPlain (.opening ("if (" ++ cond ++ ")")) := by
  refine ⟨?_, fun head h => Or.inr (Edit.opening.inj h ▸ front_if cond)⟩
  rw [calledIn?, if_neg]
  rintro ⟨rest, hrest⟩
  simp [String.toList_append, h] at hrest
  exact hc hrest.1.symm

/-- A condition with more in it than a call. -/
theorem isPlain_if {cond : String} (h : '=' ∈ cond.toList) :
    IsPlain (.opening ("if (" ++ cond ++ ")")) := by
  refine ⟨?_, fun head h => Or.inr (Edit.opening.inj h ▸ front_if cond)⟩
  obtain ⟨c, cs, hcs⟩ := List.exists_cons_of_ne_nil (List.ne_nil_of_mem h)
  have hrest : ("if (" ++ cond ++ ")").toList.drop 5 = cs ++ ")".toList := by
    simp [String.toList_append, hcs]
  rw [calledIn?, hrest]
  split_ifs with hfront
  · -- the sign is not the one in front, which negates
    have hc : c = '!' := by
      obtain ⟨rest, hrest⟩ := hfront
      simp [String.toList_append, hcs] at hrest
      exact hrest.1.symm
    have hmem : '=' ∈ cs := by
      rw [hcs, hc] at h
      simpa using h
    exact callee?_eq_none (List.mem_append_left _ hmem) (isNameChar_sign '=' (by decide))
      (by decide)
  · rfl

theorem isPlain_switch (var : String) : IsPlain (.opening ("switch (" ++ var ++ ")")) := by
  refine ⟨?_, fun head h => Or.inl ?_⟩
  · rw [calledIn?, if_neg]
    rintro ⟨rest, hrest⟩
    simp [String.toList_append] at hrest
  · rw [← Edit.opening.inj h, String.append_assoc, String.toList_append]
    exact List.prefix_append ..

theorem IsBody.defines? {name : String} (h : IsBody r known e) (hname : IsIdentifier name) :
    defines? name e = none := by
  cases h with
  | plain h =>
    cases e with
    | opening head => exact defines?_of_front hname (h.2 head rfl)
    | line | closing | indent | dedent => rfl
  | call | action => rfl
  | @test n _ _ =>
    refine defines?_of_front hname (Or.inr ?_)
    rw [String.append_assoc, String.toList_append]
    exact (List.prefix_append "if (".toList "!Step_".toList).trans (List.prefix_append ..)
  | guard => exact defines?_of_front hname (Or.inr (front_if _))

theorem IsBody.known_or_copied {n : String} (h : IsBody r known e) (hn : calledIn? e = some n) :
    known n ∨ IsCopied r e := by
  cases h with
  | plain h => rw [h.1] at hn; cases hn
  | action h => exact Or.inr (Or.inl ⟨_, _, h, rfl⟩)
  | guard h => exact Or.inr (Or.inr ⟨_, _, h, rfl⟩)
  | @call name h hname =>
    rw [calledIn?, String.toList_append] at hn
    obtain rfl := callee?_append hname (by decide +kernel) hn
    exact Or.inl h
  | @test level h hname =>
    have hrest : ("if (!Step_" ++ level ++ "())").toList.drop 5 =
        ("Step_" ++ level).toList ++ "())".toList := by
      simp [String.toList_append]
    rw [calledIn?, hrest] at hn
    split_ifs at hn
    obtain rfl := callee?_append hname (by decide +kernel) hn
    exact Or.inl h

end

/-- A definition: a head that opens a function of the class `name`, and code inside of it. -/
def IsFunction (r : Registry) (known : String → Prop) (name signature : String)
    (edits : List Edit) : Prop :=
  ∃ head body, edits = .opening head :: body ∧ Code.defines? name (.opening head) = some signature ∧
    calledIn? (.opening head) = none ∧ ∀ e ∈ body, IsBody r known e

/-- A head with a result type, the class and the rest of the signature opens a function. -/
theorem isFunction_of_head {r : Registry} {known : String → Prop} {name head signature : String}
    {body : List Edit} (result s : String)
    (hresult : result ∈ ["bool", "void", "sim::ObjectRef"])
    (hhead : head.toList = (result ++ " " ++ name ++ "::" ++ s).toList)
    (hsignature : signature.toList = (result ++ " " ++ s).toList)
    (hbody : ∀ e ∈ body, IsBody r known e) :
    IsFunction r known name signature (.opening head :: body) := by
  have hresults : ∀ result ∈ ["bool", "void", "sim::ObjectRef"],
      ' ' ∉ result.toList ∧ ∀ rest : List Char, ¬ "if (!".toList <+: result.toList ++ rest := by
    intro result h
    simp only [List.mem_cons, List.not_mem_nil, or_false] at h
    rcases h with rfl | rfl | rfl <;> exact ⟨by decide, fun rest hfront => by simp at hfront⟩
  obtain ⟨hblank, hfront⟩ := hresults result hresult
  obtain rfl := String.toList_inj.1 hhead
  obtain rfl := String.toList_inj.1 hsignature
  refine ⟨_, _, rfl, defines?_function hblank, ?_, hbody⟩
  rw [calledIn?, if_neg]
  simp only [String.toList_append, List.append_assoc]
  exact hfront _

section
variable {r : Registry} {known : String → Prop} {name : String} {α : Type} {xs : List α}
  {signature : α → String} {edits : α → List Edit}

/-- Definitions define their functions, one each. -/
theorem defined_flatMap (hname : IsIdentifier name)
    (h : ∀ x ∈ xs, IsFunction r known name (signature x) (edits x)) :
    defined name (xs.flatMap edits) = xs.map signature := by
  induction xs with
  | nil => rfl
  | cons x xs ih =>
    obtain ⟨head, body, hx, hhead, -, hbody⟩ := h x List.mem_cons_self
    have hnone : body.filterMap (Code.defines? name) = [] :=
      List.filterMap_eq_nil_iff.2 fun e he => (hbody e he).defines? hname
    have hrest := ih fun y hy => h y (List.mem_cons_of_mem _ hy)
    rw [defined] at hrest
    rw [List.flatMap_cons, hx, defined, List.filterMap_append, List.filterMap_cons, hhead, hnone,
      hrest]
    rfl

/-- Definitions call what is known, outside of the texts of the model. -/
theorem called_flatMap (h : ∀ x ∈ xs, IsFunction r known name (signature x) (edits x)) {e : Edit}
    (he : e ∈ xs.flatMap edits) {n : String} (hn : calledIn? e = some n) :
    known n ∨ IsCopied r e := by
  obtain ⟨x, hx, he⟩ := List.mem_flatMap.1 he
  obtain ⟨head, body, hedits, -, hcalls, hbody⟩ := h x hx
  rw [hedits] at he
  rcases List.mem_cons.1 he with rfl | he
  · rw [hcalls] at hn
    cases hn
  · exact (hbody e he).known_or_copied hn

end

/-! ### Accessors -/

theorem isPlain_break : IsPlain (.line "break;") := ⟨by decide +kernel, by simp⟩

/-- A case may be one edit and its end. -/
theorem isPlain_breaking {first : Edit} (h : IsPlain first) :
    ∀ e ∈ [first, .line "break;"], IsPlain e :=
  List.forall_mem_cons.2 ⟨h, List.forall_mem_singleton.2 isPlain_break⟩

theorem isPlain_closing (tail : String) : IsPlain (.closing tail) := ⟨rfl, by simp⟩

theorem isPlain_blank : IsPlain (.line "") := ⟨by decide +kernel, by simp⟩

theorem isPlain_indent : IsPlain .indent := ⟨rfl, by simp⟩

theorem isPlain_dedent : IsPlain .dedent := ⟨rfl, by simp⟩

theorem isPlain_labelled {label : String} {body : List Edit} (h : ∀ e ∈ body, IsPlain e) :
    ∀ e ∈ Accessor.labelled label body, IsPlain e := by
  intro e he
  simp only [Accessor.labelled, List.mem_append, List.mem_cons, List.not_mem_nil, or_false] at he
  rcases he with ((rfl | rfl) | he) | rfl
  · exact isPlain_line (c := ' ') (by simp [String.toList_append]) (by decide)
  · exact isPlain_indent
  · exact h e he
  · exact isPlain_dedent

theorem isPlain_defaultCase : ∀ e ∈ defaultCase, IsPlain e := by
  intro e he
  simp only [defaultCase, List.mem_cons, List.not_mem_nil, or_false] at he
  rcases he with rfl | rfl | rfl | rfl
  · exact isPlain_line (c := ':') (by decide) (by decide)
  · exact isPlain_indent
  · exact isPlain_break
  · exact isPlain_dedent

namespace Accessor

/-- An access expression starts with the name of a member. -/
theorem base_head (a : Accessor) (l : Location) :
    ∃ c cs, (a.base l).toList = c :: cs ∧ c ≠ '!' := by
  have hident : ∀ name rest, ∃ c cs, (ident name ++ rest).toList = c :: cs ∧ c ≠ '!' := by
    intro name rest
    obtain ⟨c, cs, hcs, -⟩ := (isIdentifier_ident name).head
    refine ⟨c, cs ++ rest.toList, by simp [String.toList_append, hcs], ?_⟩
    rintro rfl
    have hno := (isIdentifier_ident name).chars '!' (by simp [hcs])
    rw [isNameChar_sign '!' (by decide)] at hno
    cases hno
  have hpath := a.base_passesThrough l
  generalize a.base l = base at hpath
  generalize l.names = names at hpath
  cases hpath with
  | last name => simpa using hident name ""
  | step name hs h =>
    rw [String.append_assoc, String.append_assoc]
    exact hident name _

theorem readAccess_guard {s : Storage} {base guard expr : String}
    (h : readAccess s base = (some guard, expr)) : ∃ rest, guard = base ++ rest := by
  unfold readAccess at h
  cases hs : s.shape with
  | keyed =>
    simp only [hs] at h
    split_ifs at h
    all_goals
      simp only [Prod.mk.injEq, Option.some.injEq] at h
      rw [← h.1]
      simp only [String.append_assoc]
      exact ⟨_, rfl⟩
  | optional =>
    simp only [hs, Prod.mk.injEq, Option.some.injEq] at h
    exact ⟨"", by rw [String.append_empty, h.1]⟩
  | scalar =>
    simp only [hs] at h
    split_ifs at h
    · simp only [Prod.mk.injEq, Option.some.injEq] at h
      exact ⟨"", by rw [String.append_empty, h.1]⟩
    · simp at h

theorem isPlain_of_mem_statements {a : Accessor} {l : Location} {e : Edit}
    (h : e ∈ a.statements l.member (a.base l)) : IsPlain e := by
  have hget : ∀ c expr, IsPlain (.line (getStatement c expr)) := by
    intro c expr
    refine isPlain_line (c := '.') ?_ (by decide)
    cases c <;> exact mem_front _ (mem_front _ (by decide))
  obtain ⟨c, cs, hhead, hc⟩ := a.base_head l
  generalize a.base l = base at h hhead
  cases a with
  | getValue =>
    simp only [statements] at h
    split at h
    · next guard expr hread =>
      obtain ⟨rest, rfl⟩ := readAccess_guard hread
      simp only [List.mem_cons, List.not_mem_nil, or_false] at h
      rcases h with rfl | rfl | rfl | rfl
      · have hguard : (base ++ rest).toList = c :: (cs ++ rest.toList) := by
          simp [String.toList_append, hhead]
        exact isPlain_if_of_head hguard hc
      · exact hget _ _
      · exact isPlain_closing _
      · exact isPlain_break
    · exact isPlain_breaking (hget _ _) e h
  | setValue =>
    simp only [statements] at h
    refine isPlain_breaking (isPlain_line (c := ' ') ?_ (by decide)) e h
    unfold writeAccess
    split_ifs <;> simp [String.toList_append]
  | getReference =>
    simp only [statements] at h
    split_ifs at h
    all_goals
      obtain rfl := List.mem_singleton.1 h
      exact isPlain_line (c := ' ') (by simp [String.toList_append]) (by decide)
  | setReference =>
    simp only [statements] at h
    split_ifs at h
    all_goals
      refine isPlain_breaking (isPlain_line (c := ':') ?_ (by decide)) e h
      simp [String.toList_append]
  | removeReference =>
    simp only [statements] at h
    split_ifs at h
    · refine isPlain_breaking (isPlain_line (c := '.') ?_ (by decide)) e h
      simp [String.toList_append]
    · refine isPlain_breaking (isPlain_line (c := ' ') ?_ (by decide)) e h
      simp [String.toList_append]

end Accessor

theorem StateVariable.isPlain {v : StateVariable} {a : Accessor} :
    ∀ e ∈ v.caseEdits a, IsPlain e := by
  have hcase : ∀ {text : String} {c : Char}, c ∈ text.toList → c ∈ " .:=!<>[]\x7b\x7d&".toList →
      ∀ e ∈ Accessor.labelled (ident v.key) [.line text, .line "break;"], IsPlain e := by
    intro text c hc hsign
    exact isPlain_labelled (isPlain_breaking (isPlain_line hc hsign))
  cases a with
  | getValue => exact hcase (c := '.') (by simp [String.toList_append]) (by decide)
  | setValue => exact hcase (c := ' ') (by simp [String.toList_append]) (by decide)
  | getReference | setReference | removeReference => nofun

/-- The signature of an accessor. -/
def Accessor.signature (a : Accessor) : String :=
  a.result ++ " " ++ a.name ++ "(" ++ a.parameters ++ ")" ++ a.constness

theorem Accessor.isFunction (a : Accessor) (r : Registry) (known : String → Prop) (name : String)
    (ls : List Location) (vs : List StateVariable) :
    IsFunction r known name a.signature (spaced (a.edits name ls vs)) := by
  simp only [spaced, edits, List.append_assoc, List.cons_append]
  refine isFunction_of_head a.result
    (a.name ++ "(" ++ a.parameters ++ ")" ++ a.constness) (by cases a <;> decide)
    (by simp [head, String.toList_append]) (by simp [signature, String.toList_append])
    fun e he => .plain ?_
  simp only [List.mem_cons, List.mem_append, List.mem_flatMap, List.nil_append, List.not_mem_nil,
    or_false] at he
  rcases he with rfl | ⟨l, -, he⟩ | ⟨v, -, he⟩ | he | rfl | he | rfl | rfl
  · exact isPlain_switch "id"
  · exact isPlain_labelled (fun e he => isPlain_of_mem_statements he) e he
  · exact StateVariable.isPlain e he
  · exact isPlain_defaultCase e he
  · exact isPlain_closing _
  · split_ifs at he
    · obtain rfl := List.mem_singleton.1 he
      exact isPlain_line (c := ' ') (by decide) (by decide)
    · cases he
  · exact isPlain_closing _
  · exact isPlain_blank

/-! ### Machines -/

section
variable {r : Registry} {m : Machine} {known : String → Prop}

/-- Statements of the model run as effects only. -/
theorem run_not_mem_enter (m : Machine) (r : Registry) (v : Vertex) (statement : String) :
    .run statement ∉ m.enter r v := by
  have reset : ∀ depth l, .run statement ∉ m.resetLevel r depth l := by
    intro depth
    induction depth with
    | zero => intro l; simp [Machine.resetLevel]
    | succ depth ih =>
      intro l
      rw [Machine.resetLevel]
      split
      · next child _ => split_ifs <;> simp [ih child]
      · simp
  have state : ∀ l s byHistory, .run statement ∉ m.enterState r l s byHistory := by
    intro l s byHistory
    simp only [Machine.enterState]
    split <;> (try split_ifs) <;> simp [Machine.reset, reset]
  unfold Machine.enter
  split
  · split <;> simp [state]
  · split <;> simp
  · simp
  · simp

theorem isPlain_restore (x : Restore) : ∀ e ∈ x.edits, IsPlain e := by
  intro e he
  simp only [Restore.edits, List.mem_cons, List.not_mem_nil, or_false] at he
  rcases he with rfl | rfl | rfl
  · refine isPlain_if ?_
    simp [Restore.condition, String.toList_append]
  · exact isPlain_line (c := ' ') (by simp [String.toList_append]) (by decide)
  · exact isPlain_closing _

theorem isBody_effects (tests : List Setting) (t : Transition) :
    ∀ e ∈ (m.branch r tests t).effectEdits, IsBody r known e := by
  intro e he
  obtain ⟨move, hmove, he⟩ := List.mem_flatMap.1 he
  cases move with
  | assign s =>
    obtain rfl := List.mem_singleton.1 he
    refine .plain (isPlain_line (c := ' ') ?_ (by decide))
    simp [Setting.statement, String.toList_append]
  | restore x => exact .plain (isPlain_restore x e he)
  | run statement =>
    obtain rfl := List.mem_singleton.1 he
    rcases List.mem_append.1 hmove with hmove | hmove
    · cases hv : r.vertex? t.target with
      | none => simp [hv] at hmove
      | some v =>
        rw [hv] at hmove
        exact absurd hmove (run_not_mem_enter m r v statement)
    · obtain ⟨a, ha, hrun⟩ := List.mem_map.1 hmove
      rw [← Move.run.inj hrun]
      exact .action ha

/-- A condition is the guard of its transition, unless it has tests. -/
theorem isBody_condition {tests : List Setting} {t : Transition} {x : String}
    (ht : t ∈ (r.owned x).outgoing) (h : (m.branch r tests t).isUnconditional = false) :
    IsBody r known (.opening ("if (" ++ (m.branch r tests t).condition ++ ")")) := by
  cases tests with
  | nil =>
    have hguard : trim t.guard ≠ "" := by simpa [Branch.isUnconditional, Machine.branch] using h
    have hcondition : (m.branch r [] t).condition = trim t.guard := by
      simp [Branch.condition, Machine.branch, hguard]
    rw [hcondition]
    exact .guard ht
  | cons s tests =>
    refine .plain (isPlain_if ?_)
    rw [Branch.condition, Machine.branch, List.map_cons, List.cons_append]
    generalize tests.map (fun s => s.var ++ " == " ++ s.enumerator) ++ _ = more
    cases more with
    | nil => simp [String.toList_append]
    | cons x more => simp [String.intercalate_cons_cons, String.toList_append]

theorem isPlain_betweenArms {text : String} (htext : '\x7d' ∈ text.toList) :
    ∀ e ∈ betweenArms text, IsPlain e := by
  intro e he
  simp only [betweenArms, List.mem_cons, List.not_mem_nil, or_false] at he
  rcases he with rfl | rfl | rfl
  · exact isPlain_dedent
  · exact isPlain_line htext (by decide)
  · exact isPlain_indent

/-- Apart from effects, the arms behind the first are plain, even in their conditions. -/
theorem isBody_elseEdits {bs : List Branch}
    (heffects : ∀ b ∈ bs, ∀ e ∈ b.effectEdits, IsBody r known e) :
    ∀ e ∈ elseEdits bs, IsBody r known e := by
  intro e he
  induction bs with
  | nil =>
    obtain rfl := List.mem_singleton.1 he
    exact .plain (isPlain_closing _)
  | cons b bs ih =>
    obtain ⟨hb, hbs⟩ := List.forall_mem_cons.1 heffects
    rw [elseEdits] at he
    split_ifs at he
    · simp only [List.mem_append, List.mem_singleton] at he
      rcases he with (he | he) | rfl
      · exact .plain (isPlain_betweenArms (by decide) e he)
      · exact hb e he
      · exact .plain (isPlain_closing _)
    · simp only [List.mem_append] at he
      rcases he with (he | he) | he
      · exact .plain (isPlain_betweenArms (mem_front _ (mem_front _ (by decide))) e he)
      · exact hb e he
      · exact ih hbs he

theorem isBody_chain {bs : List Branch}
    (heffects : ∀ b ∈ bs, ∀ e ∈ b.effectEdits, IsBody r known e)
    (hconditions : ∀ b ∈ bs, b.isUnconditional = false →
      IsBody r known (.opening ("if (" ++ b.condition ++ ")"))) :
    ∀ e ∈ chainEdits bs, IsBody r known e := by
  intro e he
  cases bs with
  | nil => cases he
  | cons b bs =>
    rw [chainEdits] at he
    split_ifs at he with hb
    · exact heffects b List.mem_cons_self e he
    · simp only [List.mem_cons, List.mem_append] at he
      rcases he with (rfl | he) | he
      · exact hconditions b List.mem_cons_self (by simpa using hb)
      · exact heffects b List.mem_cons_self e he
      · exact isBody_elseEdits (List.forall_mem_cons.1 heffects).2 e he

/-- The chains of a machine hold plain code and texts of the model. -/
theorem isBody_of_mem_chains {events : List String} {bs : List Branch}
    (hbs : bs ∈ m.chains r events) : ∀ e ∈ chainEdits bs, IsBody r known e := by
  refine isBody_chain (fun b hb => ?_) fun b hb => ?_
  · obtain ⟨tests, t, rfl, -⟩ := branch_of_mem_chain hbs hb
    exact isBody_effects tests t
  · obtain ⟨tests, t, rfl, -⟩ := branch_of_mem_chain hbs hb
    obtain ⟨l, -, v, -, ht⟩ := source_of_mem_chain hbs hb
    exact isBody_condition ht

theorem isBody_breakingCase {label : String} {body : List Edit}
    (h : ∀ e ∈ body, IsBody r known e) : ∀ e ∈ breakingCase label body, IsBody r known e := by
  intro e he
  simp only [breakingCase, Accessor.labelled, List.mem_append, List.mem_cons, List.not_mem_nil,
    or_false] at he
  rcases he with ((rfl | rfl) | he | rfl) | rfl
  · exact .plain (isPlain_line (c := ' ') (by simp [String.toList_append]) (by decide))
  · exact .plain isPlain_indent
  · exact h e he
  · exact .plain isPlain_break
  · exact .plain isPlain_dedent

/-- The step and state functions that a machine needs are known. -/
structure Machine.Knows (m : Machine) (r : Registry) (known : String → Prop) : Prop where
  names : ∀ l ∈ m.levels, IsIdentifier l.name
  steps : ∀ l ∈ m.levels, known ("Step_" ++ l.name)
  states : ∀ l s, (l, s) ∈ m.behaviourStates r → known ("State_" ++ l.stateConstant s)

theorem chars_of_front {front name : String} (hfront : front ∈ ["Step_", "State_", "On_"])
    (hname : IsIdentifier name) : ∀ c ∈ (front ++ name).toList, isNameChar c = true := by
  have hchars : ∀ front ∈ ["Step_", "State_", "On_"], front.toList.all isNameChar = true := by
    decide +kernel
  intro c hc
  rw [String.toList_append, List.mem_append] at hc
  exact hc.elim (List.all_eq_true.1 (hchars front hfront) c) (hname.chars c)

/-- The cases of a step function call the functions of the level inside and of the state itself,
    each only where there is one. -/
theorem isBody_stepCase (h : m.Knows r known) {l : Level} {v : Vertex} {c : StepCase}
    (hl : l ∈ m.levels) (hv : v ∈ l.vertices) (hc : m.stepCase? r l v = some c) :
    ∀ e ∈ c.edits, IsBody r known e := by
  rcases stepCase?_eq_some.1 hc with ⟨p, rfl, hp, rfl⟩ | ⟨s, rfl, hf, hsome, rfl⟩
  · have hchain : m.completionBranches r p.id ∈ m.chains r [] :=
      mem_chains.2 (Or.inl ⟨l, hl, p, hv, hp, rfl⟩)
    exact isBody_breakingCase (isBody_of_mem_chains hchain)
  have hstate : hasBehaviour r s = true → IsBody r known
      (.line ("State_" ++ l.stateConstant s ++ "();")) := by
    intro hb
    have hmem : (l, s) ∈ m.behaviourStates r :=
      List.mem_flatMap.2 ⟨l, hl, List.mem_map.2 ⟨s, List.mem_filter.2
        ⟨Level.mem_states.2 ⟨hv, hf⟩, hb⟩, rfl⟩⟩
    exact .call (h.states l s hmem) (chars_of_front (by decide)
      ((h.names l hl).join (isIdentifier_ident s.name)))
  cases hinner : m.inner? s.id with
  | none =>
    have hb : hasBehaviour r s = true := hsome.resolve_left (by simp [hinner])
    refine isBody_breakingCase fun e he => ?_
    obtain rfl := List.mem_singleton.1 he
    exact hstate hb
  | some child =>
    have hchild : child ∈ m.levels := List.mem_of_find?_eq_some hinner
    have hstep := h.steps child hchild
    have hchars : ∀ c ∈ ("Step_" ++ child.name).toList, isNameChar c = true :=
      chars_of_front (by decide) (h.names child hchild)
    refine isBody_breakingCase fun e he => ?_
    rcases List.mem_append.1 he with he | he
    · cases hx : Machine.restoreOf r child with
      | none => simp [hx] at he
      | some x => exact .plain (isPlain_restore x e (by simpa [hx] using he))
    · split_ifs at he with hb
      · simp only [List.mem_cons, List.not_mem_nil, or_false] at he
        rcases he with rfl | rfl | rfl
        · exact .test hstep hchars
        · exact hstate hb
        · exact .plain (isPlain_closing _)
      · obtain rfl := List.mem_singleton.1 he
        exact .call hstep hchars

/-- The signature of the step function of a level. -/
def Level.stepSignature (l : Level) : String := "bool Step_" ++ l.name ++ "()"

/-- The signature of the function of a state. -/
def Level.stateSignature (l : Level) (s : State) : String :=
  "void State_" ++ l.stateConstant s ++ "()"

/-- The signature of the entry point of an event. -/
def eventSignature (event : String) : String := "void On_" ++ event ++ "()"

theorem stepFunction_isFunction (h : m.Knows r known) {l : Level} (hl : l ∈ m.levels)
    (name : String) :
    IsFunction r known name l.stepSignature (spaced ((m.stepFunction r l).edits name)) := by
  simp only [spaced, StepFunction.edits, List.append_assoc, List.cons_append]
  refine isFunction_of_head "bool" ("Step_" ++ l.name ++ "()") (by decide)
    (by simp [Machine.stepFunction, String.toList_append])
    (by simp [Level.stepSignature, String.toList_append]) fun e he => ?_
  simp only [List.mem_cons, List.mem_append, List.mem_flatMap, List.nil_append, List.not_mem_nil,
    or_false] at he
  rcases he with rfl | ⟨c, hc, he⟩ | he | he | rfl | rfl | rfl | rfl
  · exact .plain (isPlain_switch _)
  · obtain ⟨v, hv, hcase⟩ := List.mem_filterMap.1 hc
    exact isBody_stepCase h hl hv hcase e he
  · unfold Level.terminalCase at he
    split_ifs at he
    · cases he
    · refine .plain (isPlain_labelled (fun e he => ?_) e he)
      obtain rfl := List.mem_singleton.1 he
      exact isPlain_line (c := ' ') (by decide) (by decide)
  · exact .plain (isPlain_defaultCase e he)
  · exact .plain (isPlain_closing _)
  · exact .plain (isPlain_line (c := ' ') (by decide) (by decide))
  · exact .plain (isPlain_closing _)
  · exact .plain isPlain_blank

theorem stateFunction_isFunction (known : String → Prop) {l : Level} {s : State}
    (hs : (l, s) ∈ m.behaviourStates r) (name : String) :
    IsFunction r known name (l.stateSignature s) (spaced ((m.stateFunction r l s).edits name)) := by
  simp only [spaced, StateFunction.edits, List.append_assoc, List.cons_append]
  refine isFunction_of_head "void" ("State_" ++ l.stateConstant s ++ "()")
    (by decide) (by simp [Machine.stateFunction, String.toList_append])
    (by simp [Level.stateSignature, String.toList_append]) fun e he => ?_
  simp only [List.mem_append, List.mem_map, List.mem_cons, List.nil_append, List.not_mem_nil,
    or_false] at he
  rcases he with ⟨text, htext, rfl⟩ | he | rfl | rfl
  · obtain ⟨a, ha, rfl⟩ := List.mem_map.1 htext
    exact .action ha
  · have hchain : m.completionBranches r s.id ∈ m.chains r [] := by
      obtain ⟨l', hl, hs⟩ := List.mem_flatMap.1 hs
      obtain ⟨s', hs', heq⟩ := List.mem_map.1 hs
      obtain ⟨rfl, rfl⟩ := Prod.mk.inj heq
      obtain ⟨hstate, hb⟩ := List.mem_filter.1 hs'
      obtain ⟨hv, hf⟩ := Level.mem_states.1 hstate
      exact mem_chains.2 (Or.inr (Or.inl ⟨l', hl, s', hv, hf, hb, rfl⟩))
    exact isBody_of_mem_chains hchain e he
  · exact .plain (isPlain_closing _)
  · exact .plain isPlain_blank

theorem eventEdits_isFunction (r : Registry) (known : String → Prop) (name : String)
    (ms : List Machine) (event : String) :
    IsFunction r known name (eventSignature event) (spaced (eventEdits r name ms event)) := by
  simp only [spaced, eventEdits, List.append_assoc, List.cons_append]
  refine isFunction_of_head "void" ("On_" ++ event ++ "()") (by decide)
    (by simp [String.toList_append]) (by simp [eventSignature, String.toList_append]) fun e he => ?_
  simp only [List.mem_append, List.mem_flatMap, List.mem_cons, List.nil_append, List.not_mem_nil,
    or_false] at he
  rcases he with ⟨m, -, he⟩ | rfl | rfl
  · unfold EventSwitch.edits at he
    split_ifs at he
    · cases he
    · simp only [List.cons_append, List.mem_cons, List.mem_append, List.mem_flatMap,
        List.not_mem_nil, or_false] at he
      rcases he with rfl | (⟨g, hg, he⟩ | he) | rfl
      · exact .plain (isPlain_switch _)
      · have hchain : g.2 ∈ m.chains r [event] :=
          mem_chains_functions.2 (Or.inr (Or.inr ⟨event, List.mem_cons_self, g, hg, rfl⟩))
        exact isBody_breakingCase (isBody_of_mem_chains hchain) e he
      · exact .plain (isPlain_defaultCase e he)
      · exact .plain (isPlain_closing _)
  · exact .plain (isPlain_closing _)
  · exact .plain isPlain_blank

end

end Lowering
end ObjectLowering
