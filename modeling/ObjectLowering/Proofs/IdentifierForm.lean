/-
  The form of identifiers.

  * `words`: the longest stretches of name characters in a name.
  * `identBody_eq`: an identifier is made of the words of its name, with one
    `_` between neighbours, whatever stood there.
  * `ident_cases`: one more `_` stands in front of an ASCII digit, or in the
    place of no words at all.
  * `ident_eq_iff`: the texts that are their own identifiers.
  * `ident_form`: so every identifier is one of these, and mapping it again
    changes nothing.  It begins with a decimal digit iff the first name
    character of the name is a digit beyond ASCII, which no `_` guards
    (`wide_digit_leads`).
-/
import ObjectLowering.Proofs.Identifiers

namespace ObjectLowering.Code

open Text

/-- What stands in front of, between and behind the other characters of a text; parts can be
    empty. -/
def stretches (cs : List Char) : List (List Char) := cs.splitOnP fun c => !isNameChar c

/-- The words of a text: its longest stretches of name characters. -/
def words (cs : List Char) : List (List Char) := (stretches cs).filter (· ≠ [])

/-- The first name character of a name, if it has one. -/
def firstNameChar? (name : String) : Option Char := name.toList.find? isNameChar

/-- The text begins with a decimal digit of any script. -/
def LeadsWithDigit (s : String) : Prop := ∃ c, s.toList.head? = some c ∧ isDigit c = true

/-- The character is an ASCII digit. -/
def IsPlainDigit (c : Char) : Prop := '0' ≤ c ∧ c ≤ '9'

/-- The name has no name character, or an ASCII digit is the first. -/
def NeedsGuard (name : String) : Prop := ∀ c, firstNameChar? name = some c → IsPlainDigit c

/-! ## Words -/

section
variable {c : Char} {cs first : List Char} {rest : List (List Char)}

theorem stretches_cons_gap (hc : isNameChar c = false) (cs : List Char) :
    stretches (c :: cs) = [] :: stretches cs := by
  rw [stretches, List.splitOnP_cons_eq_if_modifyHead, if_pos (by simp [hc]), stretches]

theorem stretches_cons_nameChar (hc : isNameChar c = true) (h : stretches cs = first :: rest) :
    stretches (c :: cs) = (c :: first) :: rest := by
  rw [stretches] at h ⊢
  rw [List.splitOnP_cons_eq_if_modifyHead, if_neg (by simp [hc]), h, List.modifyHead_cons]

theorem words_cons_gap (hc : isNameChar c = false) (cs : List Char) :
    words (c :: cs) = words cs := by
  rw [words, stretches_cons_gap hc, List.filter_cons_of_neg (by simp), words]

theorem words_cons_nameChar (hc : isNameChar c = true) (h : stretches cs = first :: rest) :
    words (c :: cs) = (c :: first) :: rest.filter (· ≠ []) := by
  rw [words, stretches_cons_nameChar hc h, List.filter_cons_of_pos (by simp)]

end

theorem words_dropWhile (cs : List Char) :
    words (cs.dropWhile fun c => !isNameChar c) = words cs := by
  induction cs with
  | nil => rfl
  | cons c cs ih =>
    by_cases hc : isNameChar c = true
    · rw [List.dropWhile_cons_of_neg (by simp [hc])]
    · rw [List.dropWhile_cons_of_pos (by simp [hc]), ih, words_cons_gap (by simpa using hc)]

/-- Joined words are the first of them, and every other behind a `_`. -/
theorem intercalate_cons (first : List Char) (rest : List (List Char)) :
    ['_'].intercalate (first :: rest) = first ++ rest.flatMap ('_' :: ·) := by
  induction rest generalizing first with
  | nil => simp
  | cons second rest ih =>
    rw [List.intercalate_cons_cons, ih, List.flatMap_cons, List.append_assoc]
    rfl

/-- With a gap open, every word gets a `_` in front; with none open, the text goes on with what is
    left of a stretch, and the words behind it get theirs. -/
theorem closeGaps_words (cs : List Char) :
    closeGaps true cs = (words cs).flatMap ('_' :: ·) ∧
    ∃ first rest, stretches cs = first :: rest ∧
      closeGaps false cs = first ++ (rest.filter (· ≠ [])).flatMap ('_' :: ·) := by
  induction cs with
  | nil => exact ⟨rfl, [], [], rfl, rfl⟩
  | cons c cs ih =>
    obtain ⟨hopen, first, rest, hsplit, hclosed⟩ := ih
    by_cases hc : isNameChar c = true
    · refine ⟨?_, c :: first, rest, stretches_cons_nameChar hc hsplit, ?_⟩
      · rw [closeGaps, if_pos hc, if_pos rfl, hclosed, words_cons_nameChar hc hsplit,
          List.flatMap_cons]
        rfl
      · rw [closeGaps, if_pos hc, if_neg (by simp), hclosed]
        rfl
    · have hgap : isNameChar c = false := by simpa using hc
      refine ⟨?_, [], stretches cs, stretches_cons_gap hgap cs, ?_⟩
      · rw [closeGaps, if_neg hc, hopen, words_cons_gap hgap]
      · rw [closeGaps, if_neg hc, hopen, List.nil_append, words]

/-- The body of an identifier starts with the first name character, if there is one. -/
theorem identBody_cases (cs : List Char) :
    (cs.dropWhile (fun c => !isNameChar c) = [] ∧ identBody cs = []) ∨
    ∃ c ds, isNameChar c = true ∧ cs.dropWhile (fun c => !isNameChar c) = c :: ds ∧
      identBody cs = c :: closeGaps false ds := by
  rw [identBody]
  cases hcs : cs.dropWhile fun c => !isNameChar c with
  | nil => exact Or.inl ⟨rfl, rfl⟩
  | cons c ds =>
    have hc : isNameChar c = true := by
      have hhead := List.head?_dropWhile_not (fun c => !isNameChar c) cs
      rw [hcs] at hhead
      simpa using hhead
    refine Or.inr ⟨c, ds, hc, rfl, ?_⟩
    rw [closeGaps, if_pos hc, if_neg (by simp)]

/-- **An identifier is made of words**, joined by `_`. -/
theorem identBody_eq (cs : List Char) : identBody cs = ['_'].intercalate (words cs) := by
  rw [← words_dropWhile cs]
  rcases identBody_cases cs with ⟨hcs, hbody⟩ | ⟨c, ds, hc, hcs, hbody⟩
  · rw [hcs, hbody]
    rfl
  · -- the stretch at the front is a word, since it starts with `c`
    obtain ⟨-, first, rest, hsplit, hclosed⟩ := closeGaps_words ds
    rw [hcs, hbody, hclosed, words_cons_nameChar hc hsplit, intercalate_cons]
    rfl

/-! ## The front of an identifier -/

theorem head?_identBody (name : String) : (identBody name.toList).head? = firstNameChar? name := by
  rw [firstNameChar?, List.find?_eq_head?_dropWhile_not]
  rcases identBody_cases name.toList with ⟨hcs, hbody⟩ | ⟨c, ds, -, hcs, hbody⟩
  · rw [hcs, hbody]
  · rw [hcs, hbody]
    rfl

/-- An identifier is the body, behind one `_` if the name needs it. -/
theorem ident_cases (name : String) :
    (NeedsGuard name ∧ (ident name).toList = '_' :: identBody name.toList) ∨
    (¬ NeedsGuard name ∧ (ident name).toList = identBody name.toList) := by
  rw [NeedsGuard, ← head?_identBody, ident, String.toList_ofList]
  cases hbody : identBody name.toList with
  | nil => exact Or.inl ⟨by simp, rfl⟩
  | cons c cs =>
    rw [guardBody, List.head?_cons]
    by_cases hplain : '0' ≤ c ∧ c ≤ '9'
    · rw [if_pos hplain]
      exact Or.inl ⟨fun d hd => Option.some.inj hd ▸ hplain, rfl⟩
    · rw [if_neg hplain]
      exact Or.inr ⟨fun h => hplain (h c rfl), rfl⟩

theorem isDigit_underscore : isDigit '_' = false := by decide +kernel

/-- The `_` in front guards ASCII digits only. -/
theorem leadsWithDigit_ident_iff (name : String) :
    LeadsWithDigit (ident name) ↔
      ∃ c, firstNameChar? name = some c ∧ isDigit c = true ∧ ¬ IsPlainDigit c := by
  rcases ident_cases name with ⟨hguard, htext⟩ | ⟨hguard, htext⟩
  · refine iff_of_false ?_ ?_
    · rintro ⟨c, hc, hdigit⟩
      rw [htext, List.head?_cons] at hc
      obtain rfl := Option.some.inj hc
      rw [isDigit_underscore] at hdigit
      cases hdigit
    · rintro ⟨c, hc, -, hwide⟩
      exact hwide (hguard c hc)
  · rw [LeadsWithDigit, htext, head?_identBody]
    constructor
    · rintro ⟨c, hc, hdigit⟩
      refine ⟨c, hc, hdigit, fun hplain => hguard fun d hd => ?_⟩
      rw [hc] at hd
      exact Option.some.inj hd ▸ hplain
    · rintro ⟨c, hc, hdigit, -⟩
      exact ⟨c, hc, hdigit⟩

/-! ## Identifiers of names -/

/-- The texts that are their own identifiers. -/
theorem ident_eq_iff (s : String) : ident s = s ↔ IsIdentifier s :=
  ⟨fun h => h ▸ isIdentifier_ident s, IsIdentifier.ident_eq⟩

/-- What the identifier of a name looks like. -/
structure HasForm (name text : String) : Prop where
  nonempty : text ≠ ""
  chars : ∀ c ∈ text.toList, c = '_' ∨ isLetter c = true ∨ isDigit c = true
  /-- It has the words of the name, with one `_` between neighbours, and one more in front if the
      name needs it. -/
  guarded : NeedsGuard name → text.toList = '_' :: ['_'].intercalate (words name.toList)
  plain : ¬ NeedsGuard name → text.toList = ['_'].intercalate (words name.toList)
  /-- It is its own identifier. -/
  again : ident text = text
  /-- So is the name itself iff it has name characters only, one at least, and no ASCII digit in
      front. -/
  same_iff : text = name ↔ IsIdentifier name
  /-- It begins with a decimal digit iff the first name character of the name is one beyond ASCII. -/
  leadsWithDigit_iff : LeadsWithDigit text ↔
    ∃ c, firstNameChar? name = some c ∧ isDigit c = true ∧ ¬ IsPlainDigit c

/-- **The form of identifiers**, for every name. -/
theorem ident_form (name : String) : HasForm name (ident name) where
  nonempty := (isIdentifier_ident name).ne_empty
  chars c hc := by
    by_cases h : c = '_'
    · exact Or.inl h
    · exact Or.inr (isLetter_or_isDigit ((isIdentifier_ident name).chars c hc) h)
  guarded h := by
    rcases ident_cases name with ⟨-, htext⟩ | ⟨hnot, -⟩
    · rw [htext, identBody_eq]
    · exact absurd h hnot
  plain h := by
    rcases ident_cases name with ⟨hguard, -⟩ | ⟨-, htext⟩
    · exact absurd hguard h
    · rw [htext, identBody_eq]
  again := (isIdentifier_ident name).ident_eq
  same_iff := ident_eq_iff name
  leadsWithDigit_iff := leadsWithDigit_ident_iff name

/-- A digit of full width stays in front of the identifier, where a plain one gets a `_`. -/
theorem wide_digit_leads :
    ident "３d" = "３d" ∧ LeadsWithDigit (ident "３d") ∧ ident "3d" = "_3d" := by
  have hwide : ident "３d" = "３d" := by decide +kernel
  refine ⟨hwide, ?_, by decide +kernel⟩
  rw [hwide]
  exact ⟨'３', rfl, by decide +kernel⟩

end ObjectLowering.Code
