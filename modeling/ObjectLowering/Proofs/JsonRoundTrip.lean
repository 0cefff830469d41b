/-
  Written JSON is read back.

  * `readText_printed`: a text is read up to its closing quote, whatever its
    characters.
  * `readNumber_printed`: so is an integer, if nothing follows that could
    belong to it.
  * `read_printIndented`: hence every value without fractions and dates is
    read from its indented text.
  * `IsExact.isQuiet`: that text holds neither `<` nor `>`.
-/
import Mathlib.Data.List.Basic
import Mathlib.Data.List.DropRight
import Mathlib.Data.List.TakeWhile
import ObjectLowering.Data.JsonPrinter
import ObjectLowering.Data.JsonReader

namespace ObjectLowering

namespace Text

theorem hexValue?_hexDigit : ∀ n < 16, hexValue? (hexDigit n) = some n := by decide

end Text

namespace Data.Json

open Text

/-! ## Texts -/

/-- Four digits hold a number of sixteen bits. -/
theorem hex4_hexDigits {n : Nat} (h : n < 0x10000) :
    ∃ a b c d, hexDigits hexDigit 4 n = [a, b, c, d] ∧ hex4 a b c d = some n := by
  refine ⟨_, _, _, _, rfl, ?_⟩
  rw [hex4, hexValue?_hexDigit _ (by omega), hexValue?_hexDigit _ (by omega),
    hexValue?_hexDigit _ (by omega), hexValue?_hexDigit _ (by omega)]
  simp only [Option.bind_eq_bind, Option.bind_some, Option.some.injEq]
  omega

/-- The character ends no comment of a page and starts none. -/
def IsQuiet (c : Char) : Prop := c ≠ '<' ∧ c ≠ '>'

instance (c : Char) : Decidable (IsQuiet c) := instDecidableAnd

/-- How a character stands inside a text. -/
inductive Printed (c : Char) : List Char → Prop where
  /-- Escaped by a letter. -/
  | letter {e : Char} (he : escaped? e = some c) (hu : e ≠ 'u') (hq : IsQuiet e) :
    Printed c ['\\', e]
  /-- Escaped by its number. -/
  | number (h : c.toNat < 0x10000) : Printed c ('\\' :: 'u' :: hexDigits hexDigit 4 c.toNat)
  /-- As it is. -/
  | plain (h : 0x20 ≤ c.toNat) (h₁ : c ≠ '"') (h₂ : c ≠ '\\') (hq : IsQuiet c) : Printed c [c]

/-- One of the characters that are escaped by a letter. -/
theorem Printed.ite {c d e : Char} {text : List Char} (he : escaped? e = some d)
    (hquiet : e ≠ 'u' ∧ IsQuiet e) (h : c ≠ d → Printed c text) :
    Printed c (if c = d then ['\\', e] else text) := by
  by_cases hc : c = d
  · rw [if_pos hc]; exact .letter (hc ▸ he) hquiet.1 hquiet.2
  · rw [if_neg hc]; exact h hc

theorem printed_printedChar (c : Char) : Printed c (printedChar c) := by
  unfold printedChar
  refine .ite rfl (by decide) fun hquote => .ite rfl (by decide) fun hbackslash => ?_
  refine .ite rfl (by decide) fun _ => .ite rfl (by decide) fun _ => ?_
  refine .ite rfl (by decide) fun _ => .ite rfl (by decide) fun _ => ?_
  refine .ite rfl (by decide) fun _ => ?_
  split
  · next h =>
    refine .number ?_
    rcases h with h | rfl | rfl | rfl | rfl | rfl
    · omega
    all_goals decide
  · next h =>
    simp only [not_or, Nat.not_lt] at h
    exact .plain h.1 hquote hbackslash ⟨h.2.1, h.2.2.1⟩

theorem readUnits_printedChar (c : Char) (units : List Nat) (rest : List Char) :
    readUnits units (printedChar c ++ rest) = readUnits (c.toNat :: units) rest := by
  have hprinted := printed_printedChar c
  generalize printedChar c = text at hprinted ⊢
  cases hprinted with
  | @letter e he hu =>
    have hread : readUnits units ('\\' :: e :: rest) = readUnits (c.toNat :: units) rest := by
      rw [readUnits, he]
      exact fun _ _ _ _ _ he => absurd he hu
    rw [List.cons_append, List.cons_append, List.nil_append, hread]
  | number h =>
    obtain ⟨w, x, y, z, hdigits, hvalue⟩ := hex4_hexDigits h
    rw [hdigits, List.cons_append, List.cons_append, List.cons_append, List.cons_append,
      List.cons_append, List.cons_append, List.nil_append, readUnits, hvalue]
  | plain h h₁ h₂ =>
    have hread : readUnits units (c :: rest) =
        if c.toNat < 0x20 then none else readUnits (c.toNat :: units) rest := by
      rw [readUnits] <;> simp_all
    rw [List.cons_append, List.nil_append, hread, if_neg (Nat.not_lt.2 h)]

theorem readUnits_printed (cs : List Char) (units : List Nat) (rest : List Char) :
    readUnits units (cs.flatMap printedChar ++ '"' :: rest) =
      some ((cs.map Char.toNat).reverse ++ units, rest) := by
  induction cs generalizing units with
  | nil => rfl
  | cons c cs ih =>
    rw [List.flatMap_cons, List.append_assoc, readUnits_printedChar, ih]
    simp

/-- Characters are no halves of pairs. -/
theorem not_half (c : Char) : isHighHalf c.toNat = false ∧ isLowHalf c.toNat = false := by
  have hvalid : c.toNat.isValidChar := c.valid
  unfold Nat.isValidChar at hvalid
  simp only [isHighHalf, isLowHalf, Bool.and_eq_false_iff, decide_eq_false_iff_not]
  omega

theorem joinUnits_chars (cs tail : List Char) :
    joinUnits tail (cs.map Char.toNat) = cs.reverse ++ tail := by
  induction cs generalizing tail with
  | nil => rfl
  | cons c cs ih =>
    obtain ⟨hhigh, hlow⟩ := not_half c
    cases cs with
    | nil => simp [joinUnits, hhigh, hlow]
    | cons d cs =>
      obtain ⟨hhigh', -⟩ := not_half d
      have hstep : joinUnits tail ((c :: d :: cs).map Char.toNat) =
          joinUnits (c :: tail) ((d :: cs).map Char.toNat) := by
        simp [joinUnits, hhigh, hlow, hhigh']
      rw [hstep, ih]
      simp

/-- **A written text is read back**, and what follows it is left. -/
theorem readText_printed (s : String) (rest : List Char) :
    readText (s.toList.flatMap printedChar ++ '"' :: rest) = some (s, rest) := by
  have hjoin : joinUnits [] ((s.toList.map Char.toNat).reverse ++ []) = s.toList := by
    rw [List.append_nil, ← List.map_reverse, joinUnits_chars, List.reverse_reverse, List.append_nil]
  rw [readText, readUnits_printed]
  simp only [Option.map_some, hjoin, String.ofList_toList]

/-! ## Numbers -/

/-- The character cannot continue a number. -/
def endsNumber (c : Char) : Bool := !isDigit c && c != '.' && c != 'e' && c != 'E'

theorem isDigit_of_mem_toDigits {n : Nat} {c : Char} (h : c ∈ Nat.toDigits 10 n) :
    isDigit c = true := by
  have hd := Nat.isDigit_of_mem_toDigits (by decide) (by decide) h
  simpa [Char.isDigit, isDigit, Char.le_def] using hd

theorem natOfDigits_toDigits (n : Nat) : natOfDigits (Nat.toDigits 10 n) = n :=
  Nat.ofDigitChars_toDigits (b := 10) (by decide) (by decide)

theorem toDigits_cons (n : Nat) : ∃ d ds, Nat.toDigits 10 n = d :: ds ∧ (d = '0' → ds = []) := by
  induction n using Nat.strong_induction_on with
  | _ n ih =>
    by_cases hn : n < 10
    · exact ⟨_, [], Nat.toDigits_of_lt_base hn, fun _ => rfl⟩
    · obtain ⟨d, ds, hds, hzero⟩ := ih (n / 10) (by omega)
      refine ⟨d, ds ++ [(n % 10).digitChar], ?_, fun hd => ?_⟩
      · rw [Nat.toDigits_of_base_le (by decide) (by omega), hds, List.cons_append]
      · -- a leading zero would be the whole of `n / 10`
        have hvalue := natOfDigits_toDigits (n / 10)
        rw [hds, hzero hd, hd] at hvalue
        have : n / 10 = 0 := by rw [← hvalue]; decide
        omega

theorem readUnsigned_printed (isNegative : Bool) (n : Nat) {rest : List Char}
    (hrest : ∀ c ∈ rest.head?, endsNumber c = true) :
    readUnsigned isNegative (Nat.toDigits 10 n ++ rest) =
      some ({ isNegative, digits := n, exponent := 0, isWhole := true }, rest) := by
  have hall : ∀ c ∈ Nat.toDigits 10 n, isDigit c = true := fun c => isDigit_of_mem_toDigits
  have hstop : rest.takeWhile isDigit = [] ∧ rest.dropWhile isDigit = rest ∧
      readFraction rest = some ([], rest) ∧ readExponent rest = some (none, rest) := by
    cases rest with
    | nil => exact ⟨rfl, rfl, rfl, rfl⟩
    | cons c rest =>
      have hc := hrest c rfl
      simp only [endsNumber, Bool.and_eq_true, Bool.not_eq_true', bne_iff_ne] at hc
      refine ⟨by simp [hc], by simp [hc], ?_, ?_⟩
      · rw [readFraction.eq_def]
        split <;> simp_all
      · rw [readExponent.eq_def]
        split <;> simp_all
  obtain ⟨htakeRest, hdropRest, hfraction, hexponent⟩ := hstop
  have htake : (Nat.toDigits 10 n ++ rest).takeWhile isDigit = Nat.toDigits 10 n := by
    rw [List.takeWhile_append_of_pos hall, htakeRest, List.append_nil]
  have hdrop : (Nat.toDigits 10 n ++ rest).dropWhile isDigit = rest := by
    rw [List.dropWhile_append_of_pos hall, hdropRest]
  have hwhole : ((Nat.toDigits 10 n).isEmpty ||
      ((Nat.toDigits 10 n).head? == some '0' && 1 < (Nat.toDigits 10 n).length)) = false := by
    obtain ⟨d, ds, hds, hzero⟩ := toDigits_cons n
    rw [hds]
    by_cases hd : d = '0'
    · simp [hzero hd]
    · simp [hd]
  rw [readUnsigned, htake, hdrop, hwhole]
  simp [hfraction, hexponent, natOfDigits_toDigits]

theorem toList_ofNat (m : Nat) : (toString (Int.ofNat m)).toList = Nat.toDigits 10 m :=
  Nat.toList_repr

theorem toList_negSucc (m : Nat) :
    (toString (Int.negSucc m)).toList = '-' :: Nat.toDigits 10 (m + 1) := by
  rw [show toString (Int.negSucc m) = "-" ++ (m + 1).repr from rfl, String.toList_append,
    Nat.toList_repr]
  rfl

/-- The character may stand at the front of an integer. -/
def startsNumber (c : Char) : Bool := c == '-' || isDigit c

theorem toList_int (n : Int) : ∃ c cs, (toString n).toList = c :: cs ∧ startsNumber c = true := by
  cases n with
  | ofNat m =>
    obtain ⟨d, ds, hds, -⟩ := toDigits_cons m
    have hd := isDigit_of_mem_toDigits (n := m) (hds ▸ List.mem_cons_self)
    exact ⟨d, ds, by rw [toList_ofNat, hds], by simp [startsNumber, hd]⟩
  | negSucc m => exact ⟨'-', _, toList_negSucc m, rfl⟩

theorem ne_of_startsNumber {c x : Char} (hc : startsNumber c = true)
    (hx : startsNumber x = false) : c ≠ x := by
  rintro rfl
  rw [hc] at hx
  cases hx

/-- **A written integer is read back** where nothing continues it. -/
theorem readNumber_printed (n : Int) {rest : List Char}
    (hrest : ∀ c ∈ rest.head?, endsNumber c = true) :
    ∃ numeral, readNumber ((toString n).toList ++ rest) = some (numeral, rest) ∧
      numeral.exact = .int n := by
  cases n with
  | ofNat m =>
    obtain ⟨d, ds, hds, -⟩ := toDigits_cons m
    have hminus : d ≠ '-' := by
      have hd := isDigit_of_mem_toDigits (n := m) (hds ▸ List.mem_cons_self)
      rintro rfl
      exact absurd hd (by decide)
    refine ⟨{ digits := m, exponent := 0, isWhole := true }, ?_, by simp [Numeral.exact]⟩
    rw [toList_ofNat, ← readUnsigned_printed false m hrest, hds, List.cons_append,
      readNumber.eq_def]
    split
    · simp_all
    · rfl
  | negSucc m =>
    refine ⟨{ isNegative := true, digits := m + 1, exponent := 0, isWhole := true }, ?_, ?_⟩
    · rw [toList_negSucc, List.cons_append, readNumber, readUnsigned_printed true (m + 1) hrest]
    · simp [Numeral.exact, Int.negSucc_eq]

/-! ## Blanks -/

section

variable {number : NumberRule} {cs rest : List Char}

theorem skip_append {blanks : List Char} (h : ∀ c ∈ blanks, isSpace c = true) (cs : List Char) :
    skip (blanks ++ cs) = skip cs :=
  List.dropWhile_append_of_pos h

theorem skip_cons {c : Char} (h : isSpace c = false) (cs : List Char) : skip (c :: cs) = c :: cs :=
  List.dropWhile_cons_of_neg (by simp [h])

theorem skip_skip (cs : List Char) : skip (skip cs) = skip cs := List.dropWhile_idempotent _ _

theorem readValue_skip (n : Nat) (cs : List Char) :
    readValue number n (skip cs) = readValue number n cs := by
  cases n with
  | zero => rw [readValue, readValue]
  | succ n => rw [readValue, readValue, skip_skip]

theorem readItems_skip (n : Nat) (cs : List Char) :
    readItems number n (skip cs) = readItems number n cs := by
  cases n with
  | zero => rw [readItems, readItems]
  | succ n => rw [readItems, readItems, readValue_skip]

theorem readFields_skip (n : Nat) (cs : List Char) :
    readFields number n (skip cs) = readFields number n cs := by
  cases n with
  | zero => rw [readFields, readFields]
  | succ n => rw [readFields, readFields, skip_skip]

/-- Blanks in front of a value do not matter. -/
theorem readValue_blanks {blanks : List Char} (h : ∀ c ∈ blanks, isSpace c = true) (n : Nat) :
    readValue number n (blanks ++ cs) = readValue number n cs := by
  rw [← readValue_skip, skip_append h, readValue_skip]

theorem readItems_blanks {blanks : List Char} (h : ∀ c ∈ blanks, isSpace c = true) (n : Nat) :
    readItems number n (blanks ++ cs) = readItems number n cs := by
  rw [← readItems_skip, skip_append h, readItems_skip]

theorem readFields_blanks {blanks : List Char} (h : ∀ c ∈ blanks, isSpace c = true) (n : Nat) :
    readFields number n (blanks ++ cs) = readFields number n cs := by
  rw [← readFields_skip, skip_append h, readFields_skip]

theorem readValue_items {n : Nat} {vs : List Value}
    (h : readItems number n cs = some (vs, rest)) (hne : (skip cs).head? ≠ some ']') :
    readValue number (n + 1) ('[' :: cs) = some (.list vs, rest) := by
  rw [readValue, skip_cons (by decide)]
  simp only
  split
  · simp_all
  · rw [readItems_skip, h]
    rfl

theorem readValue_fields {n : Nat} {fs : List (String × Value)}
    (h : readFields number n cs = some (fs, rest)) (hne : (skip cs).head? ≠ some '\x7d') :
    readValue number (n + 1) ('\x7b' :: cs) = some (.record fs, rest) := by
  rw [readValue, skip_cons (by decide)]
  simp only
  split
  · simp_all
  · rw [readFields_skip, h]
    rfl

end

/-! ## Values -/

/-- The value has neither fractions nor dates. -/
inductive IsExact : Value → Prop where
  | null : IsExact .null
  | bool (b : Bool) : IsExact (.bool b)
  | int (n : Int) : IsExact (.int n)
  | text (s : String) : IsExact (.text s)
  | list {vs : List Value} (h : ∀ v ∈ vs, IsExact v) : IsExact (.list vs)
  | record {fs : List (String × Value)} (h : ∀ f ∈ fs, IsExact f.2) : IsExact (.record fs)

/-- A text of blanks. -/
def IsIndent (indent : String) : Prop := ∀ c ∈ indent.toList, isSpace c = true

theorem IsIndent.deeper {indent : String} (h : IsIndent indent) : IsIndent (indent ++ "  ") := by
  intro c hc
  rw [String.toList_append, List.mem_append] at hc
  rcases hc with hc | hc
  · exact h c hc
  · simp_all [isSpace]

theorem IsIndent.newline {indent : String} (h : IsIndent indent) :
    ∀ c ∈ '\n' :: indent.toList, isSpace c = true :=
  List.forall_mem_cons.2 ⟨rfl, h⟩

/-- The parts behind a bracket, each on its own line, up to the closing bracket. -/
def closedParts (closing : Char) (indent : String) : List String → List Char
  | [] => [closing]
  | [p] => '\n' :: (indent ++ "  ").toList ++ p.toList ++ ('\n' :: indent.toList ++ [closing])
  | p :: q :: ps =>
    '\n' :: (indent ++ "  ").toList ++ p.toList ++ ',' :: closedParts closing indent (q :: ps)

section

variable {indent o c : String} {opening closing : Char}

theorem bracketed_nil (ho : o.toList = [opening]) (hc : c.toList = [closing]) :
    (bracketed o c indent []).toList = [opening, closing] := by
  simp [bracketed, ho, hc]

theorem bracketed_toList (ho : o.toList = [opening]) (hc : c.toList = [closing])
    {parts : List String} (h : parts ≠ []) :
    (bracketed o c indent parts).toList = opening :: closedParts closing indent parts := by
  have hparts : ("\n" ++ String.intercalate ",\n" (parts.map fun p => indent ++ "  " ++ p) ++
      "\n" ++ indent ++ c).toList = closedParts closing indent parts := by
    fun_induction closedParts closing indent parts with
    | case1 => exact absurd rfl h
    | case2 p => simp [hc]
    | case3 p q ps ih =>
      rw [← ih (by simp), List.map_cons, List.map_cons, String.intercalate_cons_cons]
      simp
  rw [bracketed, if_neg (by simpa using h), ← hparts]
  simp [ho]

/-- The text of a field. -/
def fieldText (indent : String) (f : String × Value) : String :=
  printText f.1 ++ ": " ++ printIndented indent f.2

theorem printIndentedItems_eq (indent : String) (vs : List Value) :
    printIndentedItems indent vs = vs.map (printIndented indent) := by
  induction vs with
  | nil => rw [printIndentedItems, List.map_nil]
  | cons v vs ih => rw [printIndentedItems, ih, List.map_cons]

theorem printIndentedFields_eq (indent : String) (fs : List (String × Value)) :
    printIndentedFields indent fs = fs.map (fieldText indent) := by
  induction fs with
  | nil => rw [printIndentedFields, List.map_nil]
  | cons f fs ih => rw [printIndentedFields, ih, List.map_cons, fieldText]

theorem toList_list_nil (indent : String) :
    (printIndented indent (.list [])).toList = ['[', ']'] := by
  rw [printIndented, printIndentedItems_eq]
  exact bracketed_nil (by simp) (by simp)

theorem toList_list {vs : List Value} (h : vs ≠ []) : (printIndented indent (.list vs)).toList =
    '[' :: closedParts ']' indent (vs.map (printIndented (indent ++ "  "))) := by
  rw [printIndented, printIndentedItems_eq]
  exact bracketed_toList (by simp) (by simp) (by simpa using h)

theorem toList_record_nil (indent : String) :
    (printIndented indent (.record [])).toList = ['\x7b', '\x7d'] := by
  rw [printIndented, printIndentedFields_eq]
  exact bracketed_nil (by simp) (by simp)

theorem toList_record {fs : List (String × Value)} (h : fs ≠ []) :
    (printIndented indent (.record fs)).toList =
      '\x7b' :: closedParts '\x7d' indent (fs.map (fieldText (indent ++ "  "))) := by
  rw [printIndented, printIndentedFields_eq]
  exact bracketed_toList (by simp) (by simp) (by simpa using h)

end

/-- The value is read from its text, whatever stands around it. -/
def ReadsBack (v : Value) : Prop :=
  ∀ indent n rest, IsIndent indent → (printIndented indent v).toList.length ≤ n →
    (∀ c ∈ rest.head?, endsNumber c = true) →
    readValue Numeral.exact n ((printIndented indent v).toList ++ rest) = some (v, rest)

theorem isSpace_of_startsNumber {c : Char} (h : startsNumber c = true) : isSpace c = false := by
  simp only [isSpace, Bool.or_eq_false_iff, beq_eq_false_iff_ne]
  refine ⟨⟨⟨?_, ?_⟩, ?_⟩, ?_⟩ <;> exact ne_of_startsNumber h (by decide)

/-- The text of a value does not start with a blank or the end of a list. -/
theorem IsExact.head {v : Value} (h : IsExact v) (indent : String) :
    ∃ c cs, (printIndented indent v).toList = c :: cs ∧ isSpace c = false ∧ c ≠ ']' := by
  cases h with
  | null => exact ⟨'n', "ull".toList, by rw [printIndented]; rfl, by decide, by decide⟩
  | bool b =>
    cases b with
    | false => exact ⟨'f', "alse".toList, by rw [printIndented]; rfl, by decide, by decide⟩
    | true => exact ⟨'t', "rue".toList, by rw [printIndented]; rfl, by decide, by decide⟩
  | int n =>
    obtain ⟨c, cs, hcs, hc⟩ := toList_int n
    refine ⟨c, cs, by rw [printIndented, hcs], isSpace_of_startsNumber hc, ?_⟩
    exact ne_of_startsNumber hc (by decide)
  | text s =>
    have htext : (printText s).toList = '"' :: (s.toList.flatMap printedChar ++ ['"']) := by
      rw [printText, String.toList_ofList, List.cons_append]
    exact ⟨'"', _, by rw [printIndented, htext], by decide, by decide⟩
  | @list vs hvs =>
    cases vs with
    | nil => exact ⟨'[', _, toList_list_nil indent, by decide, by decide⟩
    | cons v vs => exact ⟨'[', _, toList_list (by simp), by decide, by decide⟩
  | @record fs hfs =>
    cases fs with
    | nil => exact ⟨'\x7b', _, toList_record_nil indent, by decide, by decide⟩
    | cons f fs => exact ⟨'\x7b', _, toList_record (by simp), by decide, by decide⟩

section

variable {indent : String}

/-- A reader of parts takes the text of one and goes on as the next character says. -/
structure ReadsPart {α : Type} (reader : Nat → List Char → Option (List α × List Char))
    (closing : Char) (blanks : List Char) (part : String) (x : α) : Prop where
  last : ∀ n tail rest, part.toList.length ≤ n → (∀ c ∈ tail.head?, endsNumber c = true) →
    skip tail = closing :: rest → reader (n + 1) (blanks ++ part.toList ++ tail) = some ([x], rest)
  more : ∀ n tail rest, part.toList.length ≤ n → (∀ c ∈ tail.head?, endsNumber c = true) →
    skip tail = ',' :: rest → reader (n + 1) (blanks ++ part.toList ++ tail) =
      (reader n rest).map fun p => (x :: p.1, p.2)

theorem ReadsBack.readsItem {v : Value} (hv : ReadsBack v) (hindent : IsIndent indent) :
    ReadsPart (readItems Numeral.exact) ']' ('\n' :: indent.toList) (printIndented indent v) v where
  last n tail rest hn htail hnext := by
    rw [List.append_assoc, readItems_blanks hindent.newline, readItems]
    simp only [hv indent n tail hindent hn htail, hnext]
  more n tail rest hn htail hnext := by
    rw [List.append_assoc, readItems_blanks hindent.newline, readItems]
    simp only [hv indent n tail hindent hn htail, hnext]

/-- The name of a field is read, and the value behind it. -/
theorem ReadsBack.readField {f : String × Value} (hv : ReadsBack f.2) (hindent : IsIndent indent)
    {n : Nat} {tail : List Char} (hn : (fieldText indent f).toList.length ≤ n)
    (htail : ∀ c ∈ tail.head?, endsNumber c = true) :
    ∃ text behind, (fieldText indent f).toList ++ tail = '"' :: text ∧
      readText text = some (f.1, ':' :: behind) ∧
      readValue Numeral.exact n behind = some (f.2, tail) := by
  refine ⟨_, ' ' :: ((printIndented indent f.2).toList ++ tail),
    by simp [fieldText, printText], readText_printed _ _, ?_⟩
  rw [← List.singleton_append, readValue_blanks (by simp [isSpace])]
  refine hv indent n tail hindent (Nat.le_trans ?_ hn) htail
  simp only [fieldText, String.toList_append, List.length_append]
  omega

theorem ReadsBack.readsField {f : String × Value} (hv : ReadsBack f.2) (hindent : IsIndent indent) :
    ReadsPart (readFields Numeral.exact) '\x7d' ('\n' :: indent.toList) (fieldText indent f) f where
  last n tail rest hn htail hnext := by
    obtain ⟨text, behind, htext, hname, hvalue⟩ := hv.readField hindent hn htail
    rw [List.append_assoc, readFields_blanks hindent.newline, htext, readFields,
      skip_cons (by decide)]
    simp only [hname, skip_cons (show isSpace ':' = false by decide), hvalue, hnext]
  more n tail rest hn htail hnext := by
    obtain ⟨text, behind, htext, hname, hvalue⟩ := hv.readField hindent hn htail
    rw [List.append_assoc, readFields_blanks hindent.newline, htext, readFields,
      skip_cons (by decide)]
    simp only [hname, skip_cons (show isSpace ':' = false by decide), hvalue, hnext]

/-- **Parts that are read one by one** are read up to the closing bracket behind the last. -/
theorem read_closedParts {α : Type} {reader : Nat → List Char → Option (List α × List Char)}
    {closing : Char} (hclosing : isSpace closing = false) (hindent : IsIndent indent)
    {part : α → String} {xs : List α} (hne : xs ≠ [])
    (h : ∀ x ∈ xs, ReadsPart reader closing ('\n' :: (indent ++ "  ").toList) (part x) x) {n : Nat}
    (hn : (closedParts closing indent (xs.map part)).length ≤ n) (rest : List Char) :
    reader n (closedParts closing indent (xs.map part) ++ rest) = some (xs, rest) := by
  induction xs generalizing n with
  | nil => exact absurd rfl hne
  | cons x xs ih =>
    have hx := h x List.mem_cons_self
    -- either the last part, with the bracket behind it, or a comma and further parts
    cases xs with
    | nil =>
      simp only [List.map_cons, List.map_nil, closedParts, List.length_append,
        List.length_cons] at hn ⊢
      obtain ⟨n, rfl⟩ : ∃ k, n = k + 1 := ⟨n - 1, by omega⟩
      have hskip : skip ('\n' :: indent.toList ++ [closing] ++ rest) = closing :: rest := by
        rw [List.append_assoc, skip_append hindent.newline]
        exact skip_cons hclosing _
      rw [List.append_assoc]
      exact hx.last n _ rest (by omega) (by simp; decide) hskip
    | cons y ys =>
      simp only [List.map_cons, closedParts, List.length_append, List.length_cons] at hn ⊢
      obtain ⟨n, rfl⟩ : ∃ k, n = k + 1 := ⟨n - 1, by omega⟩
      have hrest := ih (by simp) (fun z hz => h z (List.mem_cons_of_mem _ hz)) (n := n)
        (by rw [List.map_cons]; omega)
      rw [List.map_cons] at hrest
      have hmore := hx.more n (',' :: (closedParts closing indent (part y :: ys.map part) ++ rest))
        _ (by omega) (by simp; decide) (skip_cons (by decide) _)
      rw [hrest] at hmore
      rw [List.append_assoc]
      exact hmore

end

theorem readValue_number {number : NumberRule} {c : Char} (hc : startsNumber c = true) (n : Nat)
    (cs : List Char) :
    readValue number (n + 1) (c :: cs) =
      (readNumber (c :: cs)).map fun (x, rest) => (number x, rest) := by
  rw [readValue, skip_cons (isSpace_of_startsNumber hc)]
  split
  case h_7 => rfl
  all_goals
    next he =>
      rw [(List.cons.inj he).1] at hc
      exact absurd hc (by decide)

/-- Every text has a first character, so there is fuel for one step at least. -/
theorem IsExact.fuel {v : Value} (h : IsExact v) {indent : String} {n : Nat}
    (hn : (printIndented indent v).toList.length ≤ n) : ∃ k, n = k + 1 := by
  obtain ⟨c, cs, hcs, -⟩ := h.head indent
  rw [hcs, List.length_cons] at hn
  exact ⟨n - 1, by omega⟩

/-- A closed text of parts starts like the first of them, blanks apart. -/
theorem head?_skip_closedParts {indent p : String} (hindent : IsIndent indent) {c : Char}
    {cs : List Char} (hp : p.toList = c :: cs) (hc : isSpace c = false) (closing : Char)
    (ps : List String) (rest : List Char) :
    (skip (closedParts closing indent (p :: ps) ++ rest)).head? = some c := by
  have hfront : ∃ tail, closedParts closing indent (p :: ps) ++ rest =
      '\n' :: (indent ++ "  ").toList ++ c :: tail := by
    cases ps <;> simp [closedParts, hp]
  obtain ⟨tail, htail⟩ := hfront
  rw [htail, skip_append hindent.deeper.newline, skip_cons hc, List.head?_cons]

/-- **Exact values are read from their texts**, whatever stands around these. -/
theorem IsExact.readsBack {v : Value} (h : IsExact v) : ReadsBack v := by
  induction h with
  | null =>
    intro indent n rest _ hn _
    obtain ⟨n, rfl⟩ := IsExact.null.fuel hn
    rw [printIndented]
    rfl
  | bool b =>
    intro indent n rest _ hn _
    obtain ⟨n, rfl⟩ := (IsExact.bool b).fuel hn
    cases b <;> rw [printIndented] <;> rfl
  | int m =>
    intro indent n rest _ hn hrest
    obtain ⟨n, rfl⟩ := (IsExact.int m).fuel hn
    obtain ⟨c, cs, hcs, hc⟩ := toList_int m
    obtain ⟨numeral, hread, hexact⟩ := readNumber_printed m hrest
    rw [hcs] at hread
    rw [printIndented, hcs, List.cons_append, readValue_number hc, ← List.cons_append, hread]
    simp only [Option.map_some, hexact]
  | text s =>
    intro indent n rest _ hn _
    obtain ⟨n, rfl⟩ := (IsExact.text s).fuel hn
    rw [printIndented, printText, String.toList_ofList, List.cons_append, List.cons_append,
      List.append_assoc, readValue, skip_cons (by decide)]
    simp only [List.singleton_append, readText_printed, Option.map_some]
  | @list vs h ih =>
    intro indent n rest hindent hn _
    obtain ⟨n, rfl⟩ := (IsExact.list h).fuel hn
    cases vs with
    | nil => rw [toList_list_nil]; rfl
    | cons v vs =>
      rw [toList_list (by simp)] at hn ⊢
      have hitems := read_closedParts (n := n) (by decide) hindent (by simp)
        (fun x hx => (ih x hx).readsItem hindent.deeper) (Nat.le_of_succ_le_succ hn) rest
      rw [List.cons_append]
      refine readValue_items hitems ?_
      obtain ⟨c, cs, hcs, hc, hne⟩ := (h v List.mem_cons_self).head (indent ++ "  ")
      rw [List.map_cons, head?_skip_closedParts hindent hcs hc]
      simpa using hne
  | @record fs h ih =>
    intro indent n rest hindent hn _
    obtain ⟨n, rfl⟩ := (IsExact.record h).fuel hn
    cases fs with
    | nil => rw [toList_record_nil]; rfl
    | cons f fs =>
      rw [toList_record (by simp)] at hn ⊢
      have hfields := read_closedParts (n := n) (by decide) hindent (by simp)
        (fun x hx => (ih x hx).readsField hindent.deeper) (Nat.le_of_succ_le_succ hn) rest
      rw [List.cons_append]
      refine readValue_fields hfields ?_
      have hquote : ∃ cs, (fieldText (indent ++ "  ") f).toList = '"' :: cs :=
        ⟨_, by simp [fieldText, printText]; rfl⟩
      obtain ⟨cs, hcs⟩ := hquote
      rw [List.map_cons, head?_skip_closedParts hindent hcs (by decide)]
      simp

/-- **What is written is read back.** -/
theorem read_printIndented {v : Value} (h : IsExact v) {indent : String}
    (hindent : IsIndent indent) : read (printIndented indent v) = some v := by
  have hvalue := h.readsBack indent ((printIndented indent v).toList.length + 1) [] hindent
    (Nat.le_succ _) (by simp)
  rw [List.append_nil] at hvalue
  rw [read, readWith]
  simp only [hvalue]
  rfl

/-! ## Characters -/

theorem isQuiet_of_all {cs : List Char} (h : (cs.all fun c => decide (IsQuiet c)) = true) :
    ∀ c ∈ cs, IsQuiet c := fun c hc => of_decide_eq_true (List.all_eq_true.1 h c hc)

theorem isQuiet_of_isSpace {c : Char} (h : isSpace c = true) : IsQuiet c := by
  constructor <;> rintro rfl <;> exact absurd h (by decide)

theorem isQuiet_hexDigit (n : Nat) : IsQuiet (hexDigit n) := by
  have hall : ∀ c ∈ '0' :: "0123456789abcdef".toList, IsQuiet c :=
    isQuiet_of_all (by decide)
  rw [hexDigit, List.getD_eq_getElem?_getD]
  cases hc : "0123456789abcdef".toList[n]? with
  | none => decide
  | some c => exact hall c (List.mem_cons_of_mem _ (List.mem_of_getElem? hc))

theorem isQuiet_of_mem_hexDigits {c : Char} {width n : Nat}
    (h : c ∈ hexDigits hexDigit width n) : IsQuiet c := by
  induction width generalizing n with
  | zero => simp [hexDigits] at h
  | succ width ih =>
    rw [hexDigits, List.mem_append, List.mem_singleton] at h
    rcases h with h | rfl
    · exact ih h
    · exact isQuiet_hexDigit _

theorem isQuiet_of_mem_printedChar {c x : Char} (h : x ∈ printedChar c) : IsQuiet x := by
  have hprinted := printed_printedChar c
  generalize printedChar c = text at hprinted h
  cases hprinted with
  | letter _ _ hq =>
    rcases List.mem_pair.1 h with rfl | rfl
    · decide
    · exact hq
  | number =>
    rw [List.mem_cons, List.mem_cons] at h
    rcases h with rfl | rfl | h
    · decide
    · decide
    · exact isQuiet_of_mem_hexDigits h
  | plain _ _ _ hq => rw [List.mem_singleton.1 h]; exact hq

theorem isQuiet_of_mem_printText {s : String} {c : Char} (h : c ∈ (printText s).toList) :
    IsQuiet c := by
  simp only [printText, String.toList_ofList, List.cons_append, List.mem_cons, List.mem_append,
    List.not_mem_nil, or_false, List.mem_flatMap] at h
  rcases h with rfl | ⟨x, -, hx⟩ | rfl
  · decide
  · exact isQuiet_of_mem_printedChar hx
  · decide

theorem isQuiet_of_isDigit {c : Char} (h : isDigit c = true) : IsQuiet c := by
  constructor <;> rintro rfl <;> exact absurd h (by decide)

theorem isQuiet_of_mem_closedParts {indent : String} (hindent : IsIndent indent) {closing : Char}
    (hclosing : IsQuiet closing) {parts : List String}
    (h : ∀ p ∈ parts, ∀ c ∈ p.toList, IsQuiet c) :
    ∀ c ∈ closedParts closing indent parts, IsQuiet c := by
  have hinner : ∀ c ∈ '\n' :: (indent ++ "  ").toList, IsQuiet c := fun c hc =>
    isQuiet_of_isSpace (hindent.deeper.newline c hc)
  have houter : ∀ c ∈ '\n' :: indent.toList, IsQuiet c := fun c hc =>
    isQuiet_of_isSpace (hindent.newline c hc)
  fun_induction closedParts closing indent parts with
  | case1 => simpa using hclosing
  | case2 p =>
    refine List.forall_mem_append.2 ⟨List.forall_mem_append.2 ⟨hinner, h p (by simp)⟩, ?_⟩
    exact List.forall_mem_append.2 ⟨houter, List.forall_mem_singleton.2 hclosing⟩
  | case3 p q ps ih =>
    refine List.forall_mem_append.2 ⟨List.forall_mem_append.2 ⟨hinner, h p (by simp)⟩, ?_⟩
    exact List.forall_mem_cons.2 ⟨by decide, ih fun x hx => h x (List.mem_cons_of_mem _ hx)⟩

/-- **No character of a written value is part of a comment marker.** -/
theorem IsExact.isQuiet {v : Value} (h : IsExact v) {indent : String} (hindent : IsIndent indent) :
    ∀ c ∈ (printIndented indent v).toList, IsQuiet c := by
  induction h generalizing indent with
  | null => rw [printIndented]; exact isQuiet_of_all (by decide)
  | bool b => cases b <;> rw [printIndented] <;> exact isQuiet_of_all (by decide)
  | int n =>
    rw [printIndented]
    cases n with
    | ofNat m =>
      rw [toList_ofNat]
      exact fun c hc => isQuiet_of_isDigit (isDigit_of_mem_toDigits hc)
    | negSucc m =>
      rw [toList_negSucc, List.forall_mem_cons]
      exact ⟨by decide, fun c hc => isQuiet_of_isDigit (isDigit_of_mem_toDigits hc)⟩
  | text s =>
    intro c hc
    rw [printIndented] at hc
    exact isQuiet_of_mem_printText hc
  | @list vs h ih =>
    cases vs with
    | nil => rw [toList_list_nil]; exact isQuiet_of_all (by decide)
    | cons v vs =>
      rw [toList_list (by simp), List.forall_mem_cons]
      refine ⟨by decide, isQuiet_of_mem_closedParts hindent (by decide) fun p hp => ?_⟩
      obtain ⟨x, hx, rfl⟩ := List.mem_map.1 hp
      exact ih x hx hindent.deeper
  | @record fs h ih =>
    cases fs with
    | nil => rw [toList_record_nil]; exact isQuiet_of_all (by decide)
    | cons f fs =>
      rw [toList_record (by simp), List.forall_mem_cons]
      refine ⟨by decide, isQuiet_of_mem_closedParts hindent (by decide) fun p hp c hc => ?_⟩
      obtain ⟨x, hx, rfl⟩ := List.mem_map.1 hp
      simp only [fieldText, String.toList_append, List.mem_append] at hc
      rcases hc with (hc | hc) | hc
      · exact isQuiet_of_mem_printText hc
      · exact isQuiet_of_all (by decide) c hc
      · exact ih x hx hindent.deeper c hc

end Data.Json
end ObjectLowering
