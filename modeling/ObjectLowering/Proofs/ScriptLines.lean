/-
  The statements of a script, line by line.

  * `codeLines` are the lines of a text that are neither blank nor comments,
    `readLines` and `unreadLines` the lines in front of the first that is too
    long, and the rest.
  * `IsCut` says of groups of lines that they are cut behind the lines that end
    a statement, and nowhere else; `groupLines_isCut` and `IsCut.eq_groupLines`
    that this describes one grouping.
  * `splitOn_statementText`: the lines of a group are the lines of its
    statement, but for the blanks around them.
  * `statements_cut`: so statements lose and reorder nothing of what is read;
    they lose exactly the code behind the first line that is too long, and that
    line itself.
-/
import Mathlib.Data.List.DropRight
import Mathlib.Data.List.ModifyLast
import ObjectLowering.Proofs.Statements

namespace ObjectLowering

namespace Text

/-! ## Parts and blanks -/

theorem eq_false_of_mem_splitOnP {α : Type} {p : α → Bool} {xs part : List α}
    (h : part ∈ xs.splitOnP p) : ∀ x ∈ part, p x = false := by
  induction xs generalizing part with
  | nil =>
    rw [List.splitOnP_nil, List.mem_singleton] at h
    simp [h]
  | cons x xs ih =>
    rw [List.splitOnP_cons_eq_if_modifyHead] at h
    split_ifs at h with hx
    · rcases List.mem_cons.1 h with rfl | h
      · simp
      · exact ih h
    · obtain ⟨first, rest, hparts⟩ := List.exists_cons_of_ne_nil (List.splitOnP_ne_nil p xs)
      rw [hparts, List.modifyHead_cons, List.mem_cons] at h
      rcases h with rfl | h
      · have hfirst := ih (hparts ▸ List.mem_cons_self)
        simpa [hx] using hfirst
      · exact ih (hparts ▸ List.mem_cons_of_mem _ h)

/-- No part holds the separator. -/
theorem not_mem_of_mem_splitOn {separator : Char} {s part : String}
    (h : part ∈ splitOn separator s) : separator ∉ part.toList := by
  obtain ⟨cs, hcs, rfl⟩ := List.mem_map.1 h
  intro hmem
  rw [String.toList_ofList] at hmem
  have hno := eq_false_of_mem_splitOnP hcs separator hmem
  simp at hno

/-- The text without the blanks at its front. -/
def trimFront (s : String) : String := String.ofList (s.toList.dropWhile isBlank)

/-- Lines without the blanks in front of the first and behind the last. -/
def trimOuter (ls : List String) : List String :=
  (ls.modifyHead trimFront).modifyLast (trimEnd isBlank)

theorem exists_not_isBlank {s : String} (h : isBlankText s = false) :
    ∃ c ∈ s.toList, isBlank c = false := by
  simpa [isBlankText] using h

/-- Blanks in front are removed up to a text that is not blank. -/
theorem dropWhile_isBlank_append {s : String} (h : isBlankText s = false) (cs : List Char) :
    (s.toList ++ cs).dropWhile isBlank = s.toList.dropWhile isBlank ++ cs := by
  obtain ⟨c, hc, hblank⟩ := exists_not_isBlank h
  rw [List.dropWhile_append, if_neg]
  rw [List.isEmpty_iff, List.dropWhile_eq_nil_iff]
  intro hall
  simp [hall c hc] at hblank

theorem dropWhileEnd_isBlank_append {s : String} (h : isBlankText s = false) (cs : List Char) :
    dropWhileEnd isBlank (cs ++ s.toList) = cs ++ dropWhileEnd isBlank s.toList := by
  obtain ⟨c, hc, hblank⟩ := exists_not_isBlank h
  rw [dropWhileEnd, dropWhileEnd, List.reverse_append, List.dropWhile_append, if_neg]
  · rw [List.reverse_append, List.reverse_reverse]
  · rw [List.isEmpty_iff, List.dropWhile_eq_nil_iff]
    intro hall
    simp [hall c (List.mem_reverse.2 hc)] at hblank

theorem isBlankText_trimFront {s : String} (h : isBlankText s = false) :
    isBlankText (trimFront s) = false := by
  obtain ⟨c, hc, hblank⟩ := exists_not_isBlank h
  rw [isBlankText, trimFront, String.toList_ofList, List.all_eq_false]
  refine ⟨c, ?_, by simp [hblank]⟩
  rw [← List.takeWhile_append_dropWhile (p := isBlank) (l := s.toList), List.mem_append] at hc
  refine hc.resolve_left fun hfront => ?_
  rw [List.mem_takeWhile_imp hfront] at hblank
  cases hblank

theorem mem_of_mem_trimFront {s : String} {c : Char} (h : c ∈ (trimFront s).toList) :
    c ∈ s.toList := by
  rw [trimFront, String.toList_ofList] at h
  exact (List.dropWhile_sublist _).mem h

theorem mem_of_mem_trimEnd {s : String} {c : Char} (h : c ∈ (trimEnd isBlank s).toList) :
    c ∈ s.toList := by
  rw [trimEnd, String.toList_ofList] at h
  exact (List.rdropWhile_prefix isBlank s.toList).mem h

/-- Trimming a text of whole lines, the first and the last of which are not blank. -/
theorem trim_unlines {ls front : List String} {first last : String}
    (hls : (first :: ls).modifyHead trimFront = front ++ [last])
    (hfirst : isBlankText first = false) (hlast : isBlankText last = false) :
    trim (unlines (first :: ls)) = unlines front ++ trimEnd isBlank last := by
  have hfront : (unlines (first :: ls)).toList.dropWhile isBlank =
      (unlines (front ++ [last])).toList := by
    rw [← hls, List.modifyHead_cons, unlines_cons, unlines_cons, String.append_assoc,
      String.append_assoc, String.toList_append, String.toList_append (s := trimFront first),
      dropWhile_isBlank_append hfirst, trimFront, String.toList_ofList]
  have hend : (unlines (front ++ [last])).toList =
      (unlines front).toList ++ last.toList ++ ['\n'] := by
    rw [unlines_append]
    simp [unlines]
  rw [trim, trimList, hfront, hend]
  rw [show dropWhileEnd isBlank ((unlines front).toList ++ last.toList ++ ['\n']) =
      dropWhileEnd isBlank ((unlines front).toList ++ last.toList) from
    List.rdropWhile_concat_pos _ _ _ (by decide)]
  rw [dropWhileEnd_isBlank_append hlast, String.ofList_append, String.ofList_toList]
  rfl

theorem splitOn_unlines_append {front : List String} (h : ∀ l ∈ front, '\n' ∉ l.toList)
    {last : String} (hlast : '\n' ∉ last.toList) :
    splitOn '\n' (unlines front ++ last) = front ++ [last] := by
  induction front with
  | nil =>
    have hone : splitOn '\n' (String.intercalate "\n" [last]) = [last] :=
      splitOn_intercalate_newline (by simpa using hlast) (by simp)
    rw [String.intercalate_singleton] at hone
    simpa [unlines] using hone
  | cons l front ih =>
    rw [unlines_cons, String.append_assoc, splitOn_line (h l (by simp)),
      ih fun x hx => h x (by simp [hx]), List.cons_append]

end Text

namespace Schema

open Text

/-! ## Lines -/

/-- The line does not end the scan. -/
def isShort (line : String) : Bool := line.utf8ByteSize < lineLimit

/-- The lines of a text that belong to statements. -/
def codeLines (s : String) : List String := ((splitOn '\n' s).map dropReturn).filter isCodeLine

/-- The lines of a text in front of the first that is too long. -/
def readLines (s : String) : List String := ((splitOn '\n' s).takeWhile isShort).map dropReturn

/-- The first line of a text that is too long, and all behind it. -/
def unreadLines (s : String) : List String := ((splitOn '\n' s).dropWhile isShort).map dropReturn

theorem readLines_append_unreadLines (s : String) :
    readLines s ++ unreadLines s = (splitOn '\n' s).map dropReturn := by
  rw [readLines, unreadLines, ← List.map_append, List.takeWhile_append_dropWhile]

/-- At most an empty line at the end is left out. -/
theorem rawLines_cases (s : String) :
    splitOn '\n' s = rawLines s ∨ splitOn '\n' s = rawLines s ++ [""] := by
  rw [rawLines]
  split
  · next rest h =>
    right
    rw [← List.reverse_cons, ← h, List.reverse_reverse]
  · left
    rw [List.reverse_reverse]

theorem filter_scanLines (s : String) :
    (scanLines s).filter isCodeLine = (readLines s).filter isCodeLine := by
  have hscan : scanLines s = ((rawLines s).takeWhile isShort).map dropReturn := rfl
  rw [hscan, readLines]
  rcases rawLines_cases s with h | h <;> rw [h]
  rw [List.takeWhile_append]
  split_ifs with hall
  · have hraw : (rawLines s).takeWhile isShort = rawLines s :=
      (List.takeWhile_prefix isShort).eq_of_length hall
    have hempty : ([""] : List String).takeWhile isShort = [""] := by decide
    rw [hraw, hempty, List.map_append, List.filter_append]
    have hcode : ([""].map dropReturn).filter isCodeLine = [] := by decide
    rw [hcode, List.append_nil]
  · rfl

theorem newline_not_mem {s l : String} (h : l ∈ readLines s) : '\n' ∉ l.toList := by
  obtain ⟨raw, hraw, rfl⟩ := List.mem_map.1 h
  have hno := not_mem_of_mem_splitOn (List.takeWhile_prefix isShort |>.mem hraw)
  rw [dropReturn]
  split_ifs
  · rw [String.toList_ofList]
    exact fun hmem => hno ((List.dropLast_sublist _).mem hmem)
  · exact hno

theorem isBlankText_of_isCodeLine {l : String} (h : isCodeLine l = true) :
    isBlankText l = false := by
  simp only [isCodeLine, Bool.and_eq_true, Bool.not_eq_true'] at h
  exact h.1

/-! ## Groups -/

/-- Groups of lines, cut behind the lines that end a statement and at the end of all lines. -/
structure IsCut (lines : List String) (groups : List (List String)) : Prop where
  flatten_eq : groups.flatten = lines
  ne_nil : ∀ g ∈ groups, g ≠ []
  /-- No cut is missing. -/
  inner : ∀ g ∈ groups, ∀ l ∈ g.dropLast, endsStatement l = false
  /-- No cut is made elsewhere. -/
  ended : ∀ g ∈ groups.dropLast, ∀ l ∈ g.getLast?, endsStatement l = true

namespace IsCut

variable {lines front : List String} {groups : List (List String)} {l : String}

theorem nil : IsCut [] [] := ⟨rfl, by simp, by simp, by simp⟩

theorem singleton (hne : lines ≠ []) (h : ∀ l ∈ lines, endsStatement l = false) :
    IsCut lines [lines] where
  flatten_eq := by simp
  ne_nil := by simpa using hne
  inner g hg l hl := by
    rw [List.mem_singleton.1 hg] at hl
    exact h l ((List.dropLast_sublist _).mem hl)
  ended := by simp

theorem cons (h : IsCut lines groups) (hfront : ∀ l ∈ front, endsStatement l = false)
    (hl : endsStatement l = true) :
    IsCut (front ++ [l] ++ lines) ((front ++ [l]) :: groups) where
  flatten_eq := by rw [List.flatten_cons, h.flatten_eq]
  ne_nil g hg := by
    rcases List.mem_cons.1 hg with rfl | hg
    · simp
    · exact h.ne_nil g hg
  inner g hg x hx := by
    rcases List.mem_cons.1 hg with rfl | hg
    · rw [List.dropLast_concat] at hx
      exact hfront x hx
    · exact h.inner g hg x hx
  ended g hg x hx := by
    cases groups with
    | nil => simp at hg
    | cons next rest =>
      rw [List.dropLast_cons_cons] at hg
      rcases List.mem_cons.1 hg with rfl | hg
      · rw [List.getLast?_concat, Option.mem_some_iff] at hx
        exact hx ▸ hl
      · exact h.ended g hg x hx

theorem tail {g : List String} (h : IsCut lines (g :: groups)) : IsCut groups.flatten groups where
  flatten_eq := rfl
  ne_nil x hx := h.ne_nil x (List.mem_cons_of_mem g hx)
  inner x hx := h.inner x (List.mem_cons_of_mem g hx)
  ended x hx := by
    cases groups with
    | nil => simp at hx
    | cons next rest => exact h.ended x (by rw [List.dropLast_cons_cons]; simp [hx])

end IsCut

theorem groupLines_isCut (begun ls : List String) (h : ∀ l ∈ begun, endsStatement l = false) :
    IsCut (begun.reverse ++ ls) (groupLines begun ls) := by
  induction ls generalizing begun with
  | nil =>
    rw [groupLines, List.append_nil]
    split_ifs with hempty
    · rw [List.isEmpty_iff.1 hempty]
      exact .nil
    · exact .singleton (by simpa using hempty) (by simpa using h)
  | cons l ls ih =>
    rw [groupLines]
    split_ifs with hl
    · have hbegun : ∀ x ∈ begun.reverse, endsStatement x = false := by simpa using h
      simpa using (ih [] (by simp)).cons hbegun hl
    · simpa using ih (l :: begun) (by simpa [hl] using h)

/-- No other groups are cut like this. -/
theorem IsCut.eq_groupLines {lines : List String} {groups : List (List String)}
    (h : IsCut lines groups) : groups = groupLines [] lines := by
  induction groups generalizing lines with
  | nil => rw [← h.flatten_eq]; rfl
  | cons g groups ih =>
    obtain ⟨front, l, rfl⟩ := List.eq_nil_or_concat' g |>.resolve_left (h.ne_nil g (by simp))
    have hfront : ∀ x ∈ front, endsStatement x = false := by
      simpa using h.inner (front ++ [l]) (by simp)
    rw [← h.flatten_eq, List.flatten_cons, List.append_assoc, groupLines_append hfront,
      List.singleton_append, groupLines, ← ih h.tail]
    cases groups with
    | nil =>
      split_ifs
      · simp
      · simp [groupLines]
    | cons next rest =>
      have hl : endsStatement l = true := h.ended (front ++ [l]) (by simp) l (by simp)
      rw [if_pos hl]
      simp

/-! ## Statements -/

/-- The lines of a statement are the lines of its group, without the blanks around them. -/
theorem splitOn_statementText {g : List String} (hne : g ≠ [])
    (hline : ∀ l ∈ g, '\n' ∉ l.toList) (hblank : ∀ l ∈ g, isBlankText l = false) :
    splitOn '\n' (statementText g) = trimOuter g := by
  cases g with
  | nil => exact absurd rfl hne
  | cons first rest =>
    have hkept : ∀ l ∈ (first :: rest).modifyHead trimFront,
        '\n' ∉ l.toList ∧ isBlankText l = false := by
      intro l hl
      rcases List.mem_cons.1 hl with rfl | hl
      · exact ⟨fun hmem => hline first (by simp) (mem_of_mem_trimFront hmem),
          isBlankText_trimFront (hblank first (by simp))⟩
      · exact ⟨hline l (by simp [hl]), hblank l (by simp [hl])⟩
    obtain ⟨front, last, hsplit⟩ :=
      List.eq_nil_or_concat' ((first :: rest).modifyHead trimFront) |>.resolve_left (by simp)
    have hlast := hkept last (by rw [hsplit]; simp)
    have hfront : ∀ l ∈ front, '\n' ∉ l.toList := fun l hl =>
      (hkept l (by rw [hsplit]; simp [hl])).1
    rw [statementText, ← unlines, trim_unlines hsplit (hblank first (by simp)) hlast.2,
      splitOn_unlines_append hfront fun hmem => hlast.1 (mem_of_mem_trimEnd hmem), trimOuter,
      hsplit, List.modifyLast_concat]

/-- How the statements of a text come from its lines. -/
structure Splitting (s : String) (groups : List (List String)) : Prop where
  /-- There is a statement for each group. -/
  statements_eq : statements s = groups.map statementText
  /-- It holds the lines of the group. -/
  lines_eq : ∀ g ∈ groups, splitOn '\n' (statementText g) = trimOuter g
  /-- Together the groups are the code that is read, cut where statements end. -/
  cut : IsCut ((readLines s).filter isCodeLine) groups
  /-- There is one way to cut it. -/
  only : ∀ groups', IsCut ((readLines s).filter isCodeLine) groups' → groups' = groups
  /-- All code is read iff there is none behind a line that is too long, nor in that line. -/
  complete_iff : groups.flatten = codeLines s ↔ ∀ l ∈ unreadLines s, isCodeLine l = false

/-- **Statements lose nothing that is read.** -/
theorem statements_cut (s : String) : ∃ groups, Splitting s groups := by
  have hcut : IsCut ((readLines s).filter isCodeLine)
      (groupLines [] ((readLines s).filter isCodeLine)) := groupLines_isCut [] _ (by simp)
  refine ⟨groupLines [] ((readLines s).filter isCodeLine), ?_, fun g hg => ?_, hcut,
    fun groups' h => h.eq_groupLines, ?_⟩
  · rw [statements, filter_scanLines]
  · have hcode : ∀ l ∈ g, l ∈ readLines s ∧ isCodeLine l = true := fun l hl => by
      rw [← List.mem_filter, ← hcut.flatten_eq]
      exact List.mem_flatten.2 ⟨g, hg, hl⟩
    exact splitOn_statementText (hcut.ne_nil g hg) (fun l hl => newline_not_mem (hcode l hl).1)
      fun l hl => isBlankText_of_isCodeLine (hcode l hl).2
  · rw [hcut.flatten_eq, codeLines, ← readLines_append_unreadLines, List.filter_append,
      List.self_eq_append_right, List.filter_eq_nil_iff]
    simp

/-! A comment of 65536 bytes between two statements. -/

def overlongNote : String := "-- " ++ String.ofList (List.replicate 65533 '-')

def notedScript : String := unlines ["SELECT 1;", overlongNote, "SELECT 2;"]

theorem utf8ByteSize_dashes (n : Nat) :
    (String.ofList (List.replicate n '-')).utf8ByteSize = n := by
  induction n with
  | zero => rfl
  | succ n ih =>
    rw [List.replicate_succ', String.ofList_append, String.utf8ByteSize_append, ih]
    rfl

theorem mem_dashes {n : Nat} {c : Char} (h : c ∈ (String.ofList (List.replicate n '-')).toList) :
    c = '-' := by
  rw [String.toList_ofList] at h
  exact List.eq_of_mem_replicate h

theorem mem_overlongNote {c : Char} (h : c ∈ overlongNote.toList) : c = '-' ∨ c = ' ' := by
  rw [overlongNote, String.toList_append, List.mem_append] at h
  rcases h with h | h
  · simpa using h
  · exact Or.inl (mem_dashes h)

theorem splitOn_notedScript :
    splitOn '\n' notedScript = ["SELECT 1;", overlongNote, "SELECT 2;", ""] := by
  refine splitOn_unlines fun l hl => ?_
  simp only [List.mem_cons, List.not_mem_nil, or_false] at hl
  rcases hl with rfl | rfl | rfl
  · decide
  · intro hmem
    simpa using mem_overlongNote hmem
  · decide

/-- The comment does not count, and with it goes the statement behind it. -/
theorem note_hides_statement :
    codeLines notedScript = ["SELECT 1;", "SELECT 2;"] ∧
      statements notedScript = ["SELECT 1;"] := by
  have hreturn : dropReturn overlongNote = overlongNote := by
    rw [dropReturn, if_neg]
    intro hends
    have hmem := (endsWith_iff.1 hends).mem (a := '\r') (by decide)
    simpa using mem_overlongNote hmem
  have hlong : isShort overlongNote = false := by
    rw [isShort, overlongNote, String.utf8ByteSize_append, utf8ByteSize_dashes]
    decide
  have hnote : isCodeLine overlongNote = false := isCodeLine_comment _
  constructor
  · rw [codeLines, splitOn_notedScript]
    simp only [List.map_cons, List.map_nil, hreturn]
    rw [List.filter_cons_of_pos (by decide), List.filter_cons_of_neg (by simp [hnote])]
    decide
  · have hread : readLines notedScript = ["SELECT 1;"] := by
      rw [readLines, splitOn_notedScript, List.takeWhile_cons_of_pos (by decide),
        List.takeWhile_cons_of_neg (by simp [hlong])]
      decide
    rw [statements, filter_scanLines, hread]
    decide

end Schema
end ObjectLowering
