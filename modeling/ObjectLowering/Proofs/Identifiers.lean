/-
  Identifiers and id keys.

  * `IsIdentifier` holds of the texts that `ident` leaves alone.
  * Upper case keeps name characters and makes no digits, which is read off
    the tables (`image_letters`); so constant names, and the keys that are
    joined from them, are identifiers.
  * `keyOf_injective`: a key and the last name in it determine the stem.
-/
import Mathlib.Data.List.Basic
import Mathlib.Data.List.TakeWhile
import ObjectLowering.Lowering.Lower

namespace ObjectLowering

namespace Text

/-! ## Tables -/

/-- The numbers from `a` to `b` lie in one stretch without gaps of a table. -/
def spans (a b : Nat) : List Stretch → Bool
  | [] => false
  | s :: rest =>
    match Nat.ble s.first a with
    | false => false
    | true =>
      match Nat.ble b s.last with
      | true => Nat.beq s.step 1
      | false => spans a b rest

/-- No stretch of a sorted table has a number from `a` to `b` between its ends. -/
def misses (a b : Nat) : List Stretch → Bool
  | [] => true
  | s :: rest =>
    match Nat.ble s.first b with
    | false => true
    | true =>
      match Nat.ble a s.last with
      | true => false
      | false => misses a b rest

theorem inTable_of_spans {table : List Stretch} {a b n : Nat} (h : spans a b table = true)
    (ha : a ≤ n) (hb : n ≤ b) : inTable table n = true := by
  induction table with
  | nil => simp [spans] at h
  | cons s rest ih =>
    rw [spans] at h
    split at h
    · simp at h
    · next hf =>
      have hf := Nat.le_of_ble_eq_true hf
      rw [inTable, if_neg (by omega), Bool.or_eq_true]
      split at h
      · next hl =>
        have hl := Nat.le_of_ble_eq_true hl
        left
        simp only [Stretch.covers, Nat.eq_of_beq_eq_true h, Nat.mod_one, beq_self_eq_true,
          Bool.and_true, Bool.and_eq_true, decide_eq_true_eq]
        omega
      · exact Or.inr (ih h)

theorem notInTable_of_misses {table : List Stretch} {a b n : Nat} (h : misses a b table = true)
    (ha : a ≤ n) (hb : n ≤ b) : inTable table n = false := by
  induction table with
  | nil => rfl
  | cons s rest ih =>
    rw [misses] at h
    rw [inTable]
    split at h
    · next hf =>
      have hf := Nat.not_le_of_not_ble_eq_true (Bool.eq_false_iff.1 hf)
      rw [if_pos (by omega)]
    · split at h
      · simp at h
      · next hl =>
        have hl := Nat.not_le_of_not_ble_eq_true (Bool.eq_false_iff.1 hl)
        have hc : s.covers n = false := by
          simp only [Stretch.covers, Bool.and_eq_false_iff, decide_eq_false_iff_not]
          omega
        rw [hc, ih h]
        simp

theorem shifted_cases (table : List Shift) (n : Nat) :
    shifted table n = n ∨ ∃ s ∈ table, s.first ≤ n ∧ n ≤ s.last ∧ (n - s.first) % s.step = 0 ∧
      shifted table n = s.image + (n - s.first) := by
  induction table with
  | nil => exact Or.inl rfl
  | cons s rest ih =>
    rw [shifted]
    split_ifs with h₁ h₂
    · exact Or.inl rfl
    · simp only [Bool.and_eq_true, decide_eq_true_eq, beq_iff_eq] at h₂
      exact Or.inr ⟨s, by simp, by omega, h₂.1, h₂.2, rfl⟩
    · rcases ih with h | ⟨x, hx, h⟩
      · exact Or.inl h
      · exact Or.inr ⟨x, by simp [hx], h⟩

/-- What the table of upper-case forms is checked for: all images are code points beyond the ASCII
    digits, and images of name characters are letters. -/
def Shift.isSound (s : Shift) : Bool :=
  0x5f < s.first && 0x39 < s.image &&
    (s.image + (s.last - s.first) < 0xd800 ||
      (0xdfff < s.image && s.image + (s.last - s.first) < 0x110000)) &&
    (spans s.image (s.image + (s.last - s.first)) letterTable ||
      (misses s.first s.last letterTable && misses s.first s.last digitTable) ||
      (List.range' s.first (s.last - s.first + 1)).all fun n =>
        (n - s.first) % s.step != 0 || inTable letterTable (s.image + (n - s.first)))

/-- Images of letters and digits are letters. -/
def Shift.keepsLetters (s : Shift) : Bool :=
  spans s.image (s.image + (s.last - s.first)) letterTable ||
    (misses s.first s.last letterTable && misses s.first s.last digitTable) ||
    (List.range' s.first (s.last - s.first + 1)).all fun n =>
      (n - s.first) % s.step != 0 || inTable letterTable (s.image + (n - s.first))

theorem Shift.isLetter_image {s : Shift} {n : Nat} (h : s.keepsLetters = true)
    (hf : s.first ≤ n) (hl : n ≤ s.last) (hm : (n - s.first) % s.step = 0)
    (hn : inTable letterTable n = true ∨ inTable digitTable n = true) :
    inTable letterTable (s.image + (n - s.first)) = true := by
  simp only [keepsLetters, Bool.or_eq_true, Bool.and_eq_true] at h
  rcases h with (hspan | ⟨hnl, hnd⟩) | hall
  · exact inTable_of_spans hspan (by omega) (by omega)
  · simp [notInTable_of_misses hnl hf hl, notInTable_of_misses hnd hf hl] at hn
  · have hk := List.all_eq_true.1 hall n (by rw [List.mem_range'_1]; omega)
    simpa [hm] using hk

theorem toUpperTable_sound : toUpperTable.all Shift.isSound = true := by decide +kernel

end Text

namespace Code

open Text

/-! ## Upper case of name characters -/

theorem toNat_ofNat {n : Nat} (h : n.isValidChar) : (Char.ofNat n).toNat = n := by
  rw [Char.ofNat, dif_pos h]
  rfl

/-- A name character besides `_` is a letter or a digit. -/
theorem isLetter_or_isDigit {c : Char} (h : isNameChar c = true) (hc : c ≠ '_') :
    isLetter c = true ∨ isDigit c = true := by
  simpa [isNameChar, hc] using h

section

variable {s : Shift} {c : Char}
  (hvalid : s.image + (s.last - s.first) < 0xd800 ∨
    0xdfff < s.image ∧ s.image + (s.last - s.first) < 0x110000)
  (hf : s.first ≤ c.toNat) (hl : c.toNat ≤ s.last)

include hvalid hf hl

theorem toNat_image :
    (Char.ofNat (s.image + (c.toNat - s.first))).toNat = s.image + (c.toNat - s.first) :=
  toNat_ofNat (by unfold Nat.isValidChar; omega)

theorem isLetter_image (hletters : s.keepsLetters = true) (hm : (c.toNat - s.first) % s.step = 0)
    (hc : isNameChar c = true) (hne : c ≠ '_') :
    isLetter (Char.ofNat (s.image + (c.toNat - s.first))) = true := by
  rw [isLetter, toNat_image hvalid hf hl]
  exact Shift.isLetter_image hletters hf hl hm (isLetter_or_isDigit hc hne)

end

/-- The upper-case form of a character is the character itself, or lies beyond the ASCII digits and
    is a letter if the character may stand in a name. -/
theorem upperChar_cases (c : Char) :
    upperChar c = c ∨
      (0x39 < (upperChar c).toNat ∧ (isNameChar c = true → isLetter (upperChar c) = true)) := by
  rcases shifted_cases toUpperTable c.toNat with h | ⟨s, hs, hf, hl, hm, h⟩
  · left; rw [upperChar, h, Char.ofNat_toNat]
  · right
    have hsound := List.all_eq_true.1 toUpperTable_sound s hs
    simp only [Shift.isSound, Bool.and_eq_true, decide_eq_true_eq] at hsound
    obtain ⟨⟨⟨h5f, h39⟩, hvalid⟩, hletters⟩ := hsound
    simp only [Bool.or_eq_true, Bool.and_eq_true, decide_eq_true_eq] at hvalid
    have hne : c ≠ '_' := fun he => by rw [he] at hf; simp at hf; omega
    rw [upperChar, h]
    refine ⟨?_, fun hc => isLetter_image hvalid hf hl hletters hm hc hne⟩
    rw [toNat_image hvalid hf hl]
    omega

theorem isNameChar_upperChar {c : Char} (h : isNameChar c = true) :
    isNameChar (upperChar c) = true := by
  rcases upperChar_cases c with hc | ⟨-, hc⟩
  · rw [hc]; exact h
  · simp [isNameChar, hc h]

/-! ## Identifiers -/

/-- The text has name characters only, at least one, and no ASCII digit in front. -/
structure IsIdentifier (s : String) : Prop where
  chars : ∀ c ∈ s.toList, isNameChar c = true
  head : ∃ c cs, s.toList = c :: cs ∧ ¬ ('0' ≤ c ∧ c ≤ '9')

theorem closeGaps_eq {cs : List Char} (h : ∀ c ∈ cs, isNameChar c = true) :
    closeGaps false cs = cs := by
  induction cs with
  | nil => rfl
  | cons c cs ih =>
    rw [closeGaps, if_pos (h c (by simp)), if_neg (by simp), ih fun x hx => h x (by simp [hx])]

theorem isNameChar_of_mem_closeGaps {cs : List Char} {c : Char} {gap : Bool}
    (h : c ∈ closeGaps gap cs) : isNameChar c = true := by
  induction cs generalizing gap with
  | nil => simp [closeGaps] at h
  | cons x cs ih =>
    rw [closeGaps] at h
    by_cases hx : isNameChar x = true
    · rw [if_pos hx] at h
      by_cases hg : gap = true
      · rw [if_pos hg, List.mem_cons, List.mem_cons] at h
        rcases h with rfl | rfl | h
        · rfl
        · exact hx
        · exact ih h
      · rw [if_neg hg, List.mem_cons] at h
        rcases h with rfl | h
        · exact hx
        · exact ih h
    · rw [if_neg hx] at h; exact ih h

theorem IsIdentifier.ident_eq {s : String} (h : IsIdentifier s) : ident s = s := by
  obtain ⟨c, cs, hs, hd⟩ := h.head
  have hbody : identBody s.toList = s.toList := by
    have hc : isNameChar c = true := h.chars c (by simp [hs])
    rw [identBody, hs, List.dropWhile_cons_of_neg (by simp [hc]), ← hs]
    exact closeGaps_eq h.chars
  rw [ident, hbody, hs, guardBody, if_neg hd, ← hs, String.ofList_toList]

theorem isIdentifier_ident (s : String) : IsIdentifier (ident s) := by
  have hbody : ∀ c ∈ identBody s.toList, isNameChar c = true :=
    fun c hc => isNameChar_of_mem_closeGaps hc
  rw [ident]
  cases h : identBody s.toList with
  | nil => exact ⟨by simp [guardBody, isNameChar], ⟨'_', [], by simp [guardBody], by decide⟩⟩
  | cons c cs =>
    rw [h] at hbody
    by_cases hd : '0' ≤ c ∧ c ≤ '9'
    · rw [guardBody, if_pos hd]
      refine ⟨fun x hx => ?_, ⟨'_', c :: cs, by simp, by decide⟩⟩
      rw [String.toList_ofList, List.mem_cons] at hx
      rcases hx with rfl | hx
      · rfl
      · exact hbody x hx
    · rw [guardBody, if_neg hd]
      exact ⟨by rw [String.toList_ofList]; exact hbody, ⟨c, cs, by simp, hd⟩⟩

/-- Upper case leads from identifiers to identifiers. -/
theorem IsIdentifier.toUpper {s : String} (h : IsIdentifier s) : IsIdentifier (toUpper s) := by
  refine ⟨fun c hc => ?_, ?_⟩
  · rw [Text.toUpper, String.toList_ofList, List.mem_map] at hc
    obtain ⟨x, hx, rfl⟩ := hc
    exact isNameChar_upperChar (h.chars x hx)
  · obtain ⟨c, cs, hs, hd⟩ := h.head
    refine ⟨upperChar c, cs.map upperChar, by simp [Text.toUpper, hs], ?_⟩
    rcases upperChar_cases c with hc | ⟨hc, -⟩
    · rw [hc]; exact hd
    · rintro ⟨-, h9⟩
      have : (upperChar c).toNat ≤ 0x39 := h9
      omega

theorem isIdentifier_constantName (s : String) : IsIdentifier (constantName s) :=
  (isIdentifier_ident s).toUpper

theorem IsIdentifier.ne_empty {s : String} (h : IsIdentifier s) : s ≠ "" := by
  rintro rfl
  obtain ⟨c, cs, hs, -⟩ := h.head
  simp at hs

end Code

namespace Lowering

open Code

variable {stem stem' name name' : String}

/-! ## Keys -/

theorem keyOf_eq (h : IsIdentifier stem) (name : String) :
    keyOf stem name = stem ++ "_" ++ constantName name := by
  rw [keyOf, if_neg h.ne_empty]

theorem isIdentifier_keyOf (h : IsIdentifier stem) (name : String) :
    IsIdentifier (keyOf stem name) := by
  rw [keyOf_eq h]
  refine ⟨fun c hc => ?_, ?_⟩
  · simp only [String.toList_append, List.mem_append] at hc
    rcases hc with (hc | hc) | hc
    · exact h.chars c hc
    · rw [show c = '_' by simpa using hc]; rfl
    · exact (isIdentifier_constantName name).chars c hc
  · obtain ⟨c, cs, hs, hd⟩ := h.head
    exact ⟨c, _, by simp only [String.toList_append, hs, List.cons_append]; rfl, hd⟩

theorem length_lt_keyOf (h : IsIdentifier stem) (name : String) :
    stem.length < (keyOf stem name).length := by
  rw [keyOf_eq h, String.length_append, String.length_append]
  have : "_".length = 1 := by decide
  omega

/-- A key and the last name in it determine the stem. -/
theorem keyOf_injective (h : IsIdentifier stem) (h' : IsIdentifier stem')
    (he : keyOf stem name = keyOf stem' name) : stem = stem' := by
  rw [keyOf_eq h, keyOf_eq h', ← String.toList_inj] at he
  simp only [String.toList_append, List.append_assoc] at he
  exact String.toList_inj.1 (List.append_cancel_right he)

theorem isIdentifier_defaultStem : IsIdentifier defaultStem where
  chars := List.all_eq_true.1 (by decide +kernel)
  head := ⟨'A', "TTR".toList, rfl, by decide⟩

theorem isIdentifier_defaultStateStem : IsIdentifier defaultStateStem where
  chars := List.all_eq_true.1 (by decide +kernel)
  head := ⟨'S', "TATE".toList, rfl, by decide⟩

/-- Configured stems are identifiers. -/
theorem isIdentifier_ofTexts (feature state : String) :
    IsIdentifier (Stems.ofTexts feature state).feature ∧
      IsIdentifier (Stems.ofTexts feature state).state := by
  simp only [Stems.ofTexts]
  constructor
  · split_ifs
    · exact isIdentifier_defaultStem
    · exact isIdentifier_constantName feature
  · split_ifs
    · exact isIdentifier_defaultStateStem
    · exact isIdentifier_constantName state

end Lowering
end ObjectLowering
