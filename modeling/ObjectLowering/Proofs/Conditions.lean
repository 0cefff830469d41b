/-
  What a written condition means.

  * `tokens?` splits a text into the tokens of a condition: names, numbers and
    calls, arithmetic, comparisons, `!`, `&&`, `||` and parentheses.
  * `Formula` is the grammar of conditions by ranks, one for every strength of
    binding.  A text has one reading at most (`Formula.eq_of_tokens`).
  * `condition_true_iff`: tests stand before a guard without parentheses, so
    only its first alternative is under them.  A guard with a `||` may be
    true without them (`gate_raised_when_full`).
-/
import ObjectLowering.Proofs.Dispatch
import ObjectLowering.Proofs.LevelNames

namespace ObjectLowering

namespace Code

/-! ## Tokens -/

/-- The comparisons of a condition. -/
inductive Comparison where
  | eq | ne | lt | le | gt | ge
deriving DecidableEq, Repr

/-- The signs of arithmetic. -/
inductive Sign where
  | plus | minus | times | over | modulo
deriving DecidableEq, Repr

/-- The tokens of a condition. -/
inductive Token where
  /-- A name, a number or a call. -/
  | word (text : String)
  | sign (s : Sign)
  | compare (c : Comparison)
  | not
  | and
  | or
  | opening
  | closing
deriving DecidableEq, Repr

/-- Characters of names, of numbers and of qualified names. -/
def isWordChar (c : Char) : Bool := isNameChar c || c == '.' || c == ':'

/-- Puts a word, if there is one, in front of tokens. -/
def putWord (word : List Char) (ts : List Token) : List Token :=
  if word = [] then ts else .word (String.ofList word) :: ts

@[simp] theorem putWord_nil (ts : List Token) : putWord [] ts = ts := rfl

/-- The symbol that a character begins, by the character behind it, and whether that belongs to
    it. -/
def symbol? : Char → Option Char → Option (Token × Bool)
  | '&', some '&' => some (.and, true)
  | '|', some '|' => some (.or, true)
  | '=', some '=' => some (.compare .eq, true)
  | '!', some '=' => some (.compare .ne, true)
  | '<', some '=' => some (.compare .le, true)
  | '>', some '=' => some (.compare .ge, true)
  | '!', _ => some (.not, false)
  | '<', _ => some (.compare .lt, false)
  | '>', _ => some (.compare .gt, false)
  | '(', _ => some (.opening, false)
  | ')', _ => some (.closing, false)
  | '+', _ => some (.sign .plus, false)
  | '-', _ => some (.sign .minus, false)
  | '*', _ => some (.sign .times, false)
  | '/', _ => some (.sign .over, false)
  | '%', _ => some (.sign .modulo, false)
  | _, _ => none

/-- Where a character stands. -/
inductive Place where
  | plain
  /-- In the arguments of a call, which are part of its word, below open parentheses. -/
  | call (depth : Nat)
  /-- Second in a symbol. -/
  | second

/-- The tokens of characters behind the begin of a word. -/
def lex (word : List Char) : Place → List Char → Option (List Token)
  | .plain, [] | .second, [] => some (putWord word [])
  | .call _, [] => none
  | .second, _ :: cs => lex word .plain cs
  | .call depth, c :: cs =>
    if c = '(' then lex (word ++ [c]) (.call (depth + 1)) cs
    else if c = ')' then lex (word ++ [c]) (if depth = 0 then .plain else .call (depth - 1)) cs
    else lex (word ++ [c]) (.call depth) cs
  | .plain, c :: cs =>
    if isWordChar c then lex (word ++ [c]) .plain cs
    else if Text.isBlank c then (lex [] .plain cs).map (putWord word)
    else if c = '(' ∧ word ≠ [] then lex (word ++ [c]) (.call 0) cs
    else match symbol? c cs.head? with
      | none => none
      | some (t, isPair) =>
        (lex [] (if isPair then .second else .plain) cs).map fun ts => putWord word (t :: ts)

/-- The tokens of a text, unless it has others than those of conditions. -/
def tokens? (text : String) : Option (List Token) := lex [] .plain text.toList

/-! ## Formulas -/

/-- How strongly a token joins what stands around it, from the strongest on; not all join. -/
def Token.rank? : Token → Option Nat
  | .sign _ => some 1
  | .compare _ => some 2
  | .and => some 3
  | .or => some 4
  | .word _ | .not | .opening | .closing => none

/-- Conditions by what joins their parts: nothing, or a token of their rank. A whole condition has
    rank 4. -/
inductive Formula : Nat → Type where
  | word (text : String) : Formula 0
  | not (f : Formula 0) : Formula 0
  | negative (f : Formula 0) : Formula 0
  | group (f : Formula 4) : Formula 0
  | lift {k : Nat} (f : Formula k) : Formula (k + 1)
  | join {k : Nat} (f : Formula k) (t : Token) (h : t.rank? = some (k + 1)) (g : Formula (k + 1)) :
    Formula (k + 1)

namespace Formula

/-- The tokens of a condition. -/
def tokens : {k : Nat} → Formula k → List Token
  | _, .word text => [.word text]
  | _, .not f => .not :: f.tokens
  | _, .negative f => .sign .minus :: f.tokens
  | _, .group f => .opening :: (f.tokens ++ [.closing])
  | _, .lift f => f.tokens
  | _, .join f t _ g => f.tokens ++ t :: g.tokens

theorem tokens_ne_nil {k : Nat} (f : Formula k) : f.tokens ≠ [] := by
  induction f with
  | lift f ih => exact ih
  | join f t h g ihf ihg => simp [tokens]
  | _ => simp [tokens]

/-- The truth of a condition, by the truth of its atoms: of words, and of arithmetic and comparisons
    as a whole. -/
def truth (τ : List Token → Bool) : {k : Nat} → Formula k → Bool
  | _, .word text => τ [.word text]
  | _, .not f => !f.truth τ
  | _, .negative f => τ (.sign .minus :: f.tokens)
  | _, .group f => f.truth τ
  | _, .lift f => f.truth τ
  | _, .join f t _ g => match t with
    | .and => f.truth τ && g.truth τ
    | .or => f.truth τ || g.truth τ
    | t => τ (f.tokens ++ t :: g.tokens)

/-- What the tokens of its rank join in a condition. -/
def parts : {k : Nat} → Formula (k + 1) → List (Formula k)
  | _, .lift f => [f]
  | _, .join f _ _ g => f :: g.parts

end Formula

/-- Tokens do not go on with a condition of rank `k`. -/
def Stops (k : Nat) (ts : List Token) : Prop := ∀ t ∈ ts.head?, ∀ j, t.rank? = some j → k < j

theorem Stops.of_succ {k : Nat} {ts : List Token} (h : Stops (k + 1) ts) : Stops k ts :=
  fun t ht j hj => Nat.lt_of_succ_lt (h t ht j hj)

theorem stops_cons {k : Nat} {t : Token} {ts : List Token} :
    Stops k (t :: ts) ↔ ∀ j, t.rank? = some j → k < j := by simp [Stops]

theorem stops_join {k : Nat} {t : Token} {ts : List Token} (h : t.rank? = some (k + 1)) :
    Stops k (t :: ts) ∧ ¬ Stops (k + 1) (t :: ts) := by
  simp [stops_cons, h]

/-- **Conditions are read in one way only.** -/
theorem Formula.eq_of_tokens {k : Nat} {f f' : Formula k} {rest rest' : List Token}
    (h : f.tokens ++ rest = f'.tokens ++ rest') (hs : Stops k rest) (hs' : Stops k rest') :
    f = f' ∧ rest = rest' := by
  induction f generalizing rest rest' with
  | word text => cases f' <;> simp_all [tokens]
  | not f ih =>
    cases f' with
    | not f' =>
      obtain ⟨rfl, rfl⟩ := ih (List.cons.inj h).2 hs hs'
      exact ⟨rfl, rfl⟩
    | _ => simp [tokens] at h
  | negative f ih =>
    cases f' with
    | negative f' =>
      obtain ⟨rfl, rfl⟩ := ih (List.cons.inj h).2 hs hs'
      exact ⟨rfl, rfl⟩
    | _ => simp [tokens] at h
  | group f ih =>
    cases f' with
    | group f' =>
      simp only [tokens, List.cons_append, List.append_assoc, List.cons.injEq, true_and] at h
      have hclosing : ∀ ts, Stops 4 (.closing :: ts) :=
        fun ts => stops_cons.2 fun _ hj => by cases hj
      obtain ⟨rfl, hrest⟩ := ih h (hclosing _) (hclosing _)
      exact ⟨rfl, (List.cons.inj hrest).2⟩
    | _ => simp [tokens] at h
  | lift f ih =>
    cases f' with
    | lift f' =>
      obtain ⟨rfl, rfl⟩ := ih h hs.of_succ hs'.of_succ
      exact ⟨rfl, rfl⟩
    | join f' t' ht' g' =>
      -- `f` would end where a token of its rank follows
      simp only [tokens, List.append_assoc, List.cons_append] at h
      obtain ⟨-, rfl⟩ := ih h hs.of_succ (stops_join ht').1
      exact absurd hs (stops_join ht').2
  | join f t ht g ihf ihg =>
    cases f' with
    | lift f' =>
      simp only [tokens, List.append_assoc, List.cons_append] at h
      obtain ⟨-, rfl⟩ := ihf h (stops_join ht).1 hs'.of_succ
      exact absurd hs' (stops_join ht).2
    | join f' t' ht' g' =>
      simp only [tokens, List.append_assoc, List.cons_append] at h
      obtain ⟨rfl, hrest⟩ := ihf h (stops_join ht).1 (stops_join ht').1
      obtain ⟨rfl, htail⟩ := List.cons.inj hrest
      obtain ⟨rfl, rfl⟩ := ihg htail hs hs'
      exact ⟨rfl, rfl⟩

/-! ## Readings -/

/-- The text is read as the condition `f`. -/
def Reads (text : String) (f : Formula 4) : Prop := tokens? text = some f.tokens

theorem Reads.unique {text : String} {f f' : Formula 4} (h : Reads text f) (h' : Reads text f') :
    f = f' := by
  have htokens : f.tokens ++ [] = f'.tokens ++ [] := by
    rw [Option.some.inj (h.symm.trans h')]
  exact (Formula.eq_of_tokens htokens (by simp [Stops]) (by simp [Stops])).1

theorem lex_word {word cs : List Char} (before : List Char)
    (h : ∀ c ∈ word, isWordChar c = true) :
    lex before .plain (word ++ cs) = lex (before ++ word) .plain cs := by
  induction word generalizing before with
  | nil => simp
  | cons c word ih =>
    rw [List.cons_append, lex, if_pos (h c List.mem_cons_self),
      ih _ fun x hx => h x (List.mem_cons_of_mem _ hx), List.append_assoc]
    rfl

theorem lex_space (word cs : List Char) :
    lex word .plain (' ' :: cs) = (lex [] .plain cs).map (putWord word) := by
  have hword : isWordChar ' ' = false := by decide +kernel
  have hblank : Text.isBlank ' ' = true := by decide +kernel
  rw [lex, if_neg (by simp [hword]), if_pos hblank]

/-- A symbol of twice the same character. -/
theorem lex_double {c : Char} {t : Token} (hword : isWordChar c = false)
    (hblank : Text.isBlank c = false) (hsymbol : symbol? c (some c) = some (t, true))
    (cs : List Char) : lex [] .plain (c :: c :: cs) = (lex [] .plain cs).map (t :: ·) := by
  rw [lex, if_neg (by simp [hword]), if_neg (by simp [hblank]), if_neg (by simp), List.head?_cons,
    hsymbol]
  rfl

/-- An equation of identifiers in front of a condition. -/
theorem tokens?_equation {a b : String} (ha : IsIdentifier a) (hb : IsIdentifier b)
    (text : String) :
    tokens? (a ++ " == " ++ b ++ " && " ++ text) =
      (tokens? text).map ([.word a, .compare .eq, .word b, .and] ++ ·) := by
  have hchars : ∀ {x : String}, IsIdentifier x → ∀ c ∈ x.toList, isWordChar c = true :=
    fun hx c hc => by simp [isWordChar, hx.chars c hc]
  have hput : ∀ {x : String}, IsIdentifier x → ∀ ts, putWord x.toList ts = .word x :: ts := by
    intro x hx ts
    obtain ⟨c, cs, hcs, -⟩ := hx.head
    rw [putWord, if_neg (by simp [hcs]), String.ofList_toList]
  have hequals : (" == " : String).toList = [' ', '=', '=', ' '] := rfl
  have hand : (" && " : String).toList = [' ', '&', '&', ' '] := rfl
  simp only [tokens?, String.toList_append, hequals, hand, List.append_assoc, List.cons_append,
    List.nil_append]
  rw [lex_word _ (hchars ha), lex_space, lex_double (by decide +kernel) (by decide +kernel) rfl,
    lex_space, lex_word _ (hchars hb), lex_space,
    lex_double (by decide +kernel) (by decide +kernel) rfl, lex_space]
  simp only [Option.map_map, List.nil_append]
  refine congrArg (Option.map · _) (funext fun ts => ?_)
  simp only [Function.comp_apply, hput ha, hput hb, putWord_nil]

end Code

namespace Lowering

open Model Code

/-! ## Conditions of branches -/

/-- The atom that a test is written as. -/
def Setting.atom (x : Setting) : List Token :=
  [.word x.var, .compare .eq, .word x.enumerator]

/-- A test as a condition. -/
def Setting.formula (x : Setting) : Formula 2 :=
  .join (.lift (.word x.var)) (.compare .eq) rfl (.lift (.lift (.word x.enumerator)))

/-- Tests and a condition without `||`. -/
def allOf (tests : List Setting) (f : Formula 3) : Formula 3 :=
  tests.foldr (fun x f => .join x.formula .and rfl f) f

/-- What becomes of a guard behind tests: only its first alternative is under them. -/
def underTests (tests : List Setting) : Formula 4 → Formula 4
  | .lift f => .lift (allOf tests f)
  | .join f t h g => .join (allOf tests f) t h g

section
variable {tests : List Setting} {guard : String} {g : Formula 4}

theorem tokens_allOf (tests : List Setting) (f : Formula 3) :
    (allOf tests f).tokens = tests.flatMap (fun x => x.atom ++ [.and]) ++ f.tokens := by
  induction tests with
  | nil => rfl
  | cons x tests ih =>
    have hcons : (allOf (x :: tests) f).tokens = x.atom ++ .and :: (allOf tests f).tokens := rfl
    rw [hcons, ih]
    simp

theorem truth_allOf (τ : List Token → Bool) (tests : List Setting) (f : Formula 3) :
    (allOf tests f).truth τ = (tests.all (fun x => τ x.atom) && f.truth τ) := by
  induction tests with
  | nil => rfl
  | cons x tests ih =>
    have hcons : (allOf (x :: tests) f).truth τ = (τ x.atom && (allOf tests f).truth τ) := rfl
    rw [hcons, ih, List.all_cons, Bool.and_assoc]

theorem tokens_underTests (tests : List Setting) (g : Formula 4) :
    (underTests tests g).tokens = tests.flatMap (fun x => x.atom ++ [.and]) ++ g.tokens := by
  cases g with
  | lift f => exact tokens_allOf tests f
  | join f t h g =>
    rw [underTests, Formula.tokens, tokens_allOf, Formula.tokens, List.append_assoc]

theorem truth_join_or (τ : List Token → Bool) (f : Formula 3) {t : Token}
    (h : t.rank? = some 4) (g : Formula 4) :
    (Formula.join f t h g).truth τ = (f.truth τ || g.truth τ) := by
  obtain rfl : t = .or := by
    cases t <;> simp_all [Token.rank?]
  rfl

/-- A condition is true if one of its alternatives is. -/
theorem truth_eq_any (τ : List Token → Bool) :
    (g : Formula 4) → g.truth τ = g.parts.any (·.truth τ)
  | .lift f => by simp [Formula.truth, Formula.parts]
  | .join f t h g => by
    rw [truth_join_or, truth_eq_any τ g, Formula.parts, List.any_cons]

/-- **Behind tests, a guard is cut at its first `||`.** -/
theorem truth_underTests (τ : List Token → Bool) (tests : List Setting) {g : Formula 4}
    {f : Formula 3} {fs : List (Formula 3)} (hparts : g.parts = f :: fs) :
    (underTests tests g).truth τ =
      (tests.all (fun x => τ x.atom) && f.truth τ || fs.any (·.truth τ)) := by
  cases g with
  | lift f' =>
    rw [Formula.parts] at hparts
    obtain ⟨rfl, rfl⟩ := List.cons.inj hparts
    simp [underTests, Formula.truth, truth_allOf]
  | join f' t h g =>
    rw [Formula.parts] at hparts
    obtain ⟨rfl, rfl⟩ := List.cons.inj hparts
    rw [underTests, truth_join_or, truth_allOf, truth_eq_any τ g]

theorem tokens?_tests (guard : String)
    (htests : ∀ x ∈ tests, IsIdentifier x.var ∧ IsIdentifier x.enumerator) :
    tokens? (String.intercalate " && "
        (tests.map (fun x => x.var ++ " == " ++ x.enumerator) ++ [guard])) =
      (tokens? guard).map (tests.flatMap (fun x => x.atom ++ [.and]) ++ ·) := by
  induction tests with
  | nil => simp
  | cons x tests ih =>
    have hjoin : String.intercalate " && "
          ((x :: tests).map (fun x => x.var ++ " == " ++ x.enumerator) ++ [guard]) =
        x.var ++ " == " ++ x.enumerator ++ " && " ++ String.intercalate " && "
          (tests.map (fun x => x.var ++ " == " ++ x.enumerator) ++ [guard]) := by
      cases tests <;> simp [String.append_assoc]
    obtain ⟨hvar, henumerator⟩ := htests x List.mem_cons_self
    rw [hjoin, tokens?_equation hvar henumerator,
      ih fun y hy => htests y (List.mem_cons_of_mem _ hy), Option.map_map]
    refine congrArg (Option.map · _) (funext fun ts => ?_)
    simp [Setting.atom]

/-- The condition of a branch is read as its guard behind its tests. -/
theorem reads_condition {b : Branch}
    (htests : ∀ x ∈ b.tests, IsIdentifier x.var ∧ IsIdentifier x.enumerator)
    (hg : Reads b.guard g) : Reads b.condition (underTests b.tests g) := by
  have hguard : b.guard ≠ "" := by
    intro hempty
    rw [Reads, hempty] at hg
    exact g.tokens_ne_nil (Option.some.inj hg).symm
  rw [Reads, Branch.condition, if_neg hguard, tokens?_tests _ htests, hg, tokens_underTests]
  rfl

variable {r : Registry} {sm : StateMachine} {l : Level} {s : State}

/-- The settings of an active state are written with identifiers. -/
theorem isIdentifier_activeSettings (hl : l ∈ levelsOf r sm) :
    ∀ s, ∀ x ∈ l.activeSettings (.state s), IsIdentifier x.var ∧ IsIdentifier x.enumerator := by
  have hsetting : ∀ l ∈ levelsOf r sm, ∀ s : State,
      IsIdentifier l.variableName ∧ IsIdentifier (l.stateConstant s) := by
    intro l hl s
    have hstate : IsIdentifier "state_" :=
      ⟨List.all_eq_true.1 (by decide +kernel), 's', "tate_".toList, rfl, by decide⟩
    have hname := isIdentifier_name hl
    exact ⟨hstate.append hname.chars, hname.join (isIdentifier_ident s.name)⟩
  refine levels_induction (P := fun l => ∀ s, ∀ x ∈ l.activeSettings (.state s),
    IsIdentifier x.var ∧ IsIdentifier x.enumerator) ?_ ?_ l hl
  · intro s x hx
    have hsettings : (topLevel r sm).activeSettings (.state s) = [settingAt (topLevel r sm, s)] :=
      rfl
    rw [hsettings] at hx
    obtain rfl := List.mem_singleton.1 hx
    exact hsetting _ List.mem_cons_self s
  · intro l s _ _ _ _ hin ih s' x hx
    have hsettings : (l.insideOf r s).activeSettings (.state s') =
        settingAt (l.insideOf r s, s') :: l.activeSettings (.state s) := rfl
    rw [hsettings] at hx
    rcases List.mem_cons.1 hx with rfl | hx
    · exact hsetting _ hin s'
    · exact ih s x hx

/-- A candidate stands in the case of its label. -/
theorem exists_group {m : Machine} {event : String} {x : Level × State × Transition}
    (hx : x ∈ m.candidates r event) :
    ∃ bs, ((m.branchAt r x).1, bs) ∈ (m.eventSwitch r event).groups ∧ (m.branchAt r x).2 ∈ bs := by
  have hmem : m.branchAt r x ∈ (m.candidates r event).map (m.branchAt r) := List.mem_map_of_mem hx
  rw [eventSwitch_groups]
  refine ⟨_, List.mem_map.2 ⟨(m.branchAt r x).1, ?_, rfl⟩, ?_⟩
  · exact List.mem_eraseDups.2 (List.mem_map_of_mem hmem)
  · exact List.mem_mergeSort.2 (List.mem_map_of_mem
      (List.mem_filter.2 ⟨hmem, beq_self_eq_true _⟩))

/-- The label of a candidate and the tests of its branch are the settings of its source, outermost
    first. -/
theorem branchAt_eq {event : String} {t : Transition}
    (hx : (l, s, t) ∈ (Machine.of r sm).candidates r event) :
    ∃ label tests, (Machine.of r sm).branchAt r (l, s, t) =
        (label, (Machine.of r sm).branch r tests t) ∧
      (l.activeSettings (.state s)).reverse =
        { var := (topLevel r sm).variableName, enumerator := label } :: tests := by
  obtain ⟨hl, hs, hf, -⟩ := mem_candidates.1 hx
  obtain ⟨s₀, nested, -, -, heq, -⟩ := activeSettings_reverse hl hs hf
  refine ⟨(topLevel r sm).stateConstant s₀, nested, ?_, heq⟩
  rw [Machine.branchAt, Machine.triggeredBranch, heq]
  rfl

theorem active_iff_tests (hr : r.WellNested) (hsm : .stateMachine sm ∈ r.elements)
    (hl : l ∈ levelsOf r sm) {label : String} {tests : List Setting} {σ : Store}
    (hsettings : (l.activeSettings (.state s)).reverse =
      { var := (topLevel r sm).variableName, enumerator := label } :: tests) :
    (Machine.of r sm).Active σ l (.state s) tests.length ↔
      σ (topLevel r sm).variableName = (Machine.of r sm).value label ∧
        ∀ x ∈ tests, x.Holds (Machine.of r sm).value σ := by
  have hlength := congrArg List.length hsettings
  have hholds : (∀ x ∈ l.activeSettings (.state s), x.Holds (Machine.of r sm).value σ) ↔
      ∀ x ∈ (l.activeSettings (.state s)).reverse, x.Holds (Machine.of r sm).value σ := by
    simp only [List.mem_reverse]
  simp only [Level.activeSettings, List.length_reverse, List.length_cons] at hlength
  rw [active_iff hr hsm hl, hholds, hsettings, List.forall_mem_cons]
  exact and_iff_right (by omega)

/-- What it takes for a guard not to be cut. -/
theorem cut_eq_iff (tests first others : Bool) :
    (tests && first || others) = (tests && (first || others)) ↔ tests = true ∨ others = false := by
  revert tests first others
  decide

end

/-- **What the condition of a triggered transition means.**  The condition that is written in the
    case of the transition has one reading.  It is true iff the tests and the first alternative of
    the guard are, or one of the other alternatives is.  So it is the conjunction of the tests and
    the guard iff the tests are true or no alternative but the first is; and in the case of the
    label, it says that the source is active and the guard true iff the source is active or no
    alternative but the first is true. -/
theorem condition_true_iff {r : Registry} {sm : StateMachine} {owner event : String} {m : Machine}
    {l : Level} {s : State} {t : Transition} {g : Formula 4} {f : Formula 3}
    {fs : List (Formula 3)} (hr : r.Built) (hsm : sm ∈ (r.owned owner).machines) (hm : m = .of r sm)
    (hx : (l, s, t) ∈ m.candidates r event) (hg : Reads (Text.trim t.guard) g)
    (hparts : g.parts = f :: fs) :
    ∃ label tests branches e,
      (label, branches) ∈ (m.eventSwitch r event).groups ∧ m.branch r tests t ∈ branches ∧
      (l.activeSettings (.state s)).reverse =
        { var := (topLevel r sm).variableName, enumerator := label } :: tests ∧
      (∀ e', Reads (m.branch r tests t).condition e' ↔ e' = e) ∧
      ∀ τ, e.truth τ = (tests.all (fun x => τ x.atom) && f.truth τ || fs.any (·.truth τ)) ∧
        (e.truth τ = (tests.all (fun x => τ x.atom) && g.truth τ) ↔
          tests.all (fun x => τ x.atom) = true ∨ fs.any (·.truth τ) = false) ∧
        ∀ σ, (∀ x ∈ tests, τ x.atom = true ↔ x.Holds m.value σ) →
          σ (topLevel r sm).variableName = m.value label →
          ((e.truth τ = true ↔ m.Active σ l (.state s) tests.length ∧ g.truth τ = true) ↔
            m.Active σ l (.state s) tests.length ∨ fs.any (·.truth τ) = false) := by
  obtain ⟨branches, hbranches, hmem⟩ := exists_group hx
  subst hm
  obtain ⟨hl, -⟩ := mem_candidates.1 hx
  obtain ⟨label, tests, hbranch, hsettings⟩ := branchAt_eq hx
  rw [hbranch] at hbranches hmem
  have htests : ∀ x ∈ tests, IsIdentifier x.var ∧ IsIdentifier x.enumerator := by
    intro x hx
    refine isIdentifier_activeSettings hl s x (List.mem_reverse.1 ?_)
    rw [hsettings]
    exact List.mem_cons_of_mem _ hx
  have hreads : Reads ((Machine.of r sm).branch r tests t).condition (underTests tests g) :=
    reads_condition htests hg
  refine ⟨label, tests, branches, underTests tests g, hbranches, hmem, hsettings,
    fun e' => ⟨fun h => h.unique hreads, fun h => h ▸ hreads⟩, fun τ => ?_⟩
  have htruth := truth_underTests τ tests hparts
  have hcut : (underTests tests g).truth τ = (tests.all (fun x => τ x.atom) && g.truth τ) ↔
      tests.all (fun x => τ x.atom) = true ∨ fs.any (·.truth τ) = false := by
    rw [htruth, truth_eq_any τ g, hparts, List.any_cons]
    exact cut_eq_iff _ _ _
  refine ⟨htruth, hcut, fun σ hτ hlabel => ?_⟩
  have hactive : (Machine.of r sm).Active σ l (.state s) tests.length ↔
      tests.all (fun x => τ x.atom) = true := by
    rw [active_iff_tests hr.wellNested (hr.wellNested.machines owner sm hsm) hl hsettings,
      List.all_eq_true]
    exact ⟨fun h x hx => (hτ x hx).2 (h.2 x hx),
      fun h => ⟨hlabel, fun x hx => (hτ x hx).1 (h x hx)⟩⟩
  rw [hactive, ← Bool.and_eq_true, ← Bool.eq_iff_iff]
  exact hcut

/-! A gate is closed or open, half or fully.  When it is calm or urgent it may be opened further,
    and when it is neither it may be lowered. -/

def gateMachine : StateMachine := { id := "m", name := "M", parent := "gate" }

def gateOpen : State := { id := "open", name := "Open", parent := "m" }

def gateHalf : State := { id := "half", name := "Half", parent := "open" }

def gateFull : State := { id := "full", name := "Full", parent := "open" }

def gateRaise : Transition :=
  { id := "t1", source := "half", target := "full", guard := "calm || urgent", triggers := ["go"] }

def gateLower : Transition :=
  { id := "t2", source := "full", target := "half", guard := "!(calm || urgent)",
    triggers := ["go"] }

def gatehouse : Registry := Registry.prepare { elements := [
  .classifier { id := "gate", name := "Gate", stereotype := "SimObject" },
  .event { id := "go", name := "Go" },
  .stateMachine gateMachine,
  .state { id := "closed", name := "Closed", parent := "m" },
  .state gateOpen,
  .state gateHalf,
  .state gateFull,
  .transition gateRaise,
  .transition gateLower] }

/-- The level inside the open gate. -/
def gateInside : Level := (topLevel gatehouse gateMachine).insideOf gatehouse gateOpen

/-- The machine of the gate with its levels written out. -/
def gateLevels : Machine := ⟨gateMachine, [topLevel gatehouse gateMachine, gateInside]⟩

theorem gateLevels_eq : gateLevels = Machine.of gatehouse gateMachine := by
  have htrees : gatehouse.machineTrees gateMachine.id =
      [.state _ [], .state gateOpen [.state gateHalf [], .state gateFull []]] := rfl
  rw [Machine.of, levelsOf_eq, htrees]
  simp only [nestedLevels]
  rfl

/-- The guard that opens the gate further. -/
def calmOrUrgent : Formula 4 :=
  .join (.lift (.lift (.lift (.word "calm")))) .or rfl
    (.lift (.lift (.lift (.lift (.word "urgent")))))

/-- The guard that lowers it. -/
def neither : Formula 3 := .lift (.lift (.lift (.not (.group calmOrUrgent))))

theorem gate_lowered_when_full :
    gatehouse.Built ∧ gateMachine ∈ (gatehouse.owned "gate").machines ∧
    gateLevels = Machine.of gatehouse gateMachine ∧
    (gateInside, gateFull, gateLower) ∈ gateLevels.candidates gatehouse "Go" ∧
    Reads (Text.trim gateLower.guard) (.lift neither) ∧ (Formula.lift neither).parts = [neither] ∧
    ∃ tests e, Reads (gateLevels.branch gatehouse tests gateLower).condition e ∧
      ∀ τ, e.truth τ = (tests.all (fun x => τ x.atom) && neither.truth τ) := by
  have hbuilt : gatehouse.Built := .prepare (.loaded (by decide +kernel))
  have hmachine : gateMachine ∈ (gatehouse.owned "gate").machines := by decide +kernel
  have hcandidate : (gateInside, gateFull, gateLower) ∈ gateLevels.candidates gatehouse "Go" := by
    decide +kernel
  have hreads : Reads (Text.trim gateLower.guard) (.lift neither) := by
    unfold Reads
    decide +kernel
  have hparts : (Formula.lift neither).parts = [neither] := by rw [Formula.parts]
  obtain ⟨label, tests, branches, e, -, -, -, hread, htruth⟩ :=
    condition_true_iff hbuilt hmachine gateLevels_eq hcandidate hreads hparts
  exact ⟨hbuilt, hmachine, gateLevels_eq, hcandidate, hreads, hparts, tests, e, (hread e).2 rfl,
    fun τ => (htruth τ).2.1.2 (Or.inr rfl)⟩

/-- The gate is fully open. -/
def fullGate : Store := fun _ => .ordinal 1

/-- The condition to open a half-open gate further is true of a fully open one when it is urgent: it
    is written without parentheses around the guard. -/
theorem gate_raised_when_full :
    gatehouse.Built ∧ gateMachine ∈ (gatehouse.owned "gate").machines ∧
    gateLevels = Machine.of gatehouse gateMachine ∧
    (gateInside, gateHalf, gateRaise) ∈ gateLevels.candidates gatehouse "Go" ∧
    Reads (Text.trim gateRaise.guard) calmOrUrgent ∧
    ∃ label b e τ, gateLevels.branchAt gatehouse (gateInside, gateHalf, gateRaise) = (label, b) ∧
      Reads b.condition e ∧ fullGate "state_M" = gateLevels.value label ∧
      (∀ x ∈ b.tests, τ x.atom = true ↔ x.Holds gateLevels.value fullGate) ∧
      e.truth τ = true ∧
      ∀ depth, ¬ gateLevels.Active fullGate gateInside (.state gateHalf) depth := by
  have hbuilt : gatehouse.Built := .prepare (.loaded (by decide +kernel))
  refine ⟨hbuilt, by decide +kernel, gateLevels_eq, by decide +kernel, ?_, _, _,
    underTests [⟨"state_M_Open", "M_Open_Half"⟩] calmOrUrgent, fun a => a == [.word "urgent"], rfl,
    ?_, by decide +kernel, by decide +kernel, by decide +kernel, ?_⟩
  · unfold Reads
    decide +kernel
  · unfold Reads
    decide +kernel
  · rintro depth ⟨-, -, -, hstate, -⟩
    exact absurd hstate (by decide +kernel)

end Lowering
end ObjectLowering
