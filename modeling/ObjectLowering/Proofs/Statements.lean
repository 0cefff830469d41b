/-
  The statements of a schema's script.

  The script is written as text and read again line by line.

  * `script_lines`: a script is made of whole lines; outside of comments they
    are `Table.lines`.
  * Inside a statement all characters are `isSqlChar`, so no line looks like a
    comment or ends the statement early.
  * `statements_script`: hence the statements read are those of the tables, in
    order, and a database that refuses none executes exactly these.
-/
import Mathlib.Algebra.GroupWithZero.Nat
import ObjectLowering.Proofs.FileNames
import ObjectLowering.Proofs.Paths
import ObjectLowering.Proofs.TableNames
import ObjectLowering.Proofs.TypeNames
import ObjectLowering.Schema.Deployment

namespace ObjectLowering

namespace Text

/-! ## Lines -/

/-- A text of whole lines. -/
def unlines (ls : List String) : String := String.join (ls.map (· ++ "\n"))

theorem unlines_cons (l : String) (ls : List String) :
    unlines (l :: ls) = l ++ "\n" ++ unlines ls :=
  String.join_cons

theorem unlines_append (ls ms : List String) : unlines (ls ++ ms) = unlines ls ++ unlines ms := by
  rw [unlines, List.map_append, String.join_append]
  rfl

theorem unlines_flatMap {α : Type} (xs : List α) (f : α → List String) :
    unlines (xs.flatMap f) = String.join (xs.map fun x => unlines (f x)) := by
  induction xs with
  | nil => rfl
  | cons x xs ih => rw [List.flatMap_cons, unlines_append, ih, List.map_cons, String.join_cons]

theorem splitOn_unlines {ls : List String} (h : ∀ l ∈ ls, '\n' ∉ l.toList) :
    splitOn '\n' (unlines ls) = ls ++ [""] := by
  induction ls with
  | nil => rfl
  | cons l ls ih =>
    rw [unlines_cons, splitOn_line (h l (by simp)), ih fun x hx => h x (by simp [hx]),
      List.cons_append]

theorem unlines_eq_intercalate {ls : List String} (h : ls ≠ []) :
    unlines ls = String.intercalate "\n" ls ++ "\n" := by
  induction ls with
  | nil => exact absurd rfl h
  | cons l ls ih =>
    cases ls with
    | nil => simp [unlines]
    | cons m ls =>
      rw [unlines_cons, ih (by simp), String.intercalate_cons_cons, ← String.append_assoc]

theorem splitOn_intercalate_newline {ls : List String} (h : ∀ l ∈ ls, '\n' ∉ l.toList)
    (hne : ls ≠ []) : splitOn '\n' (String.intercalate "\n" ls) = ls := by
  rw [splitOn, String.toList_intercalate, show "\n".toList = ['\n'] from rfl,
    List.splitOn_intercalate _ (by simpa using h) (by simpa using hne), List.map_map]
  simp [Function.comp_def]

theorem mem_of_mem_trim {s : String} {c : Char} (h : c ∈ (trim s).toList) : c ∈ s.toList := by
  rw [trim, String.toList_ofList, trimList, dropWhileEnd, List.mem_reverse] at h
  exact (List.dropWhile_sublist _).mem (List.mem_reverse.1 ((List.dropWhile_sublist _).mem h))

@[simp] theorem isBlankText_append (a b : String) :
    isBlankText (a ++ b) = (isBlankText a && isBlankText b) := by
  simp [isBlankText]

end Text

namespace Schema

open Model Lowering Code Text

/-! ## Lines of a statement -/

/-- The characters of a statement but for line ends and the semicolon behind it. -/
def isSqlChar (c : Char) : Bool := isNameChar c || [' ', '(', ')', ','].contains c

/-- A text of such characters. -/
def isSqlText (s : String) : Bool := s.toList.all isSqlChar

/-- A text of such characters that is not blank. -/
def isSqlLine (s : String) : Bool := isSqlText s && !isBlankText s

/-- The marks of comments, statements and lines are no such characters. -/
theorem any_isSqlChar_marks : ['-', ';', '\n', '\r'].any isSqlChar = false := by decide +kernel

theorem isSqlChar_of_mark {c : Char} (h : c ∈ ['-', ';', '\n', '\r']) : isSqlChar c = false := by
  simpa using List.any_eq_false.1 any_isSqlChar_marks c h

/-- The texts in statements that depend on no model. -/
def fixedTexts : List String :=
  ["object_id", "key", "value", " PRIMARY KEY", " NOT NULL", "CREATE TABLE IF NOT EXISTS ",
    "PRIMARY KEY (object_id, key)", "FOREIGN KEY (object_id) REFERENCES ",
    "(object_id) ON DELETE CASCADE"]

theorem isSqlLine_fixed : ∀ s ∈ fixedTexts, isSqlLine s = true := by decide +kernel

theorem isSqlText_fixed {s : String} (h : s ∈ fixedTexts) : isSqlText s = true :=
  (Bool.and_eq_true_iff.1 (isSqlLine_fixed s h)).1

/-- The types that a dialect has for columns. -/
theorem isSqlLine_types : ∀ d ∈ [Dialect.postgres, Dialect.sqlite],
    ∀ type ∈ [d.int, d.float, d.text, d.bool, d.struct], isSqlLine type = true := by
  decide +kernel

@[simp] theorem isSqlText_append (a b : String) :
    isSqlText (a ++ b) = (isSqlText a && isSqlText b) := by
  simp [isSqlText]

/-- A line stays one between texts without other characters. -/
theorem isSqlLine_around {a b line : String} (ha : isSqlText a = true)
    (h : isSqlLine line = true) (hb : isSqlText b = true) : isSqlLine (a ++ line ++ b) = true := by
  simp_all [isSqlLine]

theorem isSqlLine_before {a b line : String} (h : isSqlLine line = true)
    (ha : isSqlText a = true) (hb : isSqlText b = true) : isSqlLine (line ++ a ++ b) = true := by
  simp_all [isSqlLine]

theorem isSqlText_tableName (s : String) : isSqlText (tableName s) = true :=
  List.all_eq_true.2 fun c hc => by simp [isSqlChar, isNameChar_of_mem_tableName s c hc]

section

variable {line : String}

theorem not_mem_of_isSqlLine (h : isSqlLine line = true) {c : Char} (hc : isSqlChar c = false) :
    c ∉ line.toList := by
  intro hm
  rw [isSqlLine, Bool.and_eq_true, isSqlText, List.all_eq_true] at h
  exact absurd (h.1 c hm) (by simp [hc])

theorem isCodeLine_of_isSqlLine (h : isSqlLine line = true) : isCodeLine line = true := by
  have hdash : startsWith (trim line) "--" = false := by
    rw [Bool.eq_false_iff]
    intro hs
    have hm : '-' ∈ (trim line).toList := (startsWith_iff.1 hs).mem (by decide)
    exact not_mem_of_isSqlLine h (isSqlChar_of_mark (by simp)) (mem_of_mem_trim hm)
  rw [isSqlLine, Bool.and_eq_true] at h
  rw [isCodeLine, h.2, hdash]
  rfl

theorem endsStatement_of_isSqlLine (h : isSqlLine line = true) : endsStatement line = false := by
  rw [Bool.eq_false_iff]
  intro hs
  have hm : ';' ∈ (trim line).toList := (endsWith_iff.1 hs).mem (by decide)
  exact not_mem_of_isSqlLine h (isSqlChar_of_mark (by simp)) (mem_of_mem_trim hm)

end

/-! ## Tables as lines -/

/-- The columns and the constraints of a table. -/
def Table.items (t : Table) : List String := t.columns.map Column.text ++ t.constraints

/-- Items on lines of their own, with commas between them. -/
def itemLines : List String → List String
  | [] => []
  | [x] => ["    " ++ x]
  | x :: y :: rest => ("    " ++ x ++ ",") :: itemLines (y :: rest)

/-- The line that opens the statement of a table. -/
def Table.opening (t : Table) : String := "CREATE TABLE IF NOT EXISTS " ++ t.name ++ " ("

/-- The lines of the statement that creates a table. -/
def Table.lines (t : Table) : List String := t.opening :: itemLines t.items ++ [");"]

/-- The statement that creates a table, without the line end behind it. -/
def Table.statement (t : Table) : String :=
  t.opening ++ "\n    " ++ String.intercalate ",\n    " t.items ++ "\n);"

/-- The table is written with characters of statements only. -/
structure Table.IsSql (t : Table) : Prop where
  opening : isSqlLine t.opening = true
  items : ∀ x ∈ t.items, isSqlLine x = true
  ne_nil : t.items ≠ []

section

variable {t : Table} {ts : List Table}

theorem unlines_itemLines {items : List String} (h : items ≠ []) :
    unlines (itemLines items) = "    " ++ String.intercalate ",\n    " items ++ "\n" := by
  induction items with
  | nil => exact absurd rfl h
  | cons x items ih =>
    cases items with
    | nil => simp [itemLines, unlines]
    | cons y rest =>
      rw [itemLines, unlines_cons, ih (by simp), String.intercalate_cons_cons, ← String.toList_inj]
      simp

theorem Table.text_eq_statement (t : Table) : t.text = t.statement ++ "\n" := by
  rw [← String.toList_inj]
  unfold text statement opening items
  simp only [String.toList_append, List.append_assoc, String.reduceToList, List.cons_append,
    List.nil_append]

/-- The text of a table is made of its lines. -/
theorem Table.text_eq_lines (h : t.items ≠ []) : t.text = unlines t.lines := by
  rw [text_eq_statement, lines, List.cons_append, unlines_cons, unlines_append, unlines_itemLines h,
    ← String.toList_inj]
  simp only [statement, unlines, List.map_cons, List.map_nil, String.join_cons, String.join_nil,
    String.toList_append, List.append_assoc, String.reduceToList, List.cons_append, List.nil_append]

theorem Table.statement_eq_lines (h : t.items ≠ []) :
    t.statement = String.intercalate "\n" t.lines := by
  have htext : t.statement ++ "\n" = String.intercalate "\n" t.lines ++ "\n" := by
    rw [← text_eq_statement, text_eq_lines h, unlines_eq_intercalate (by simp [lines])]
  rw [← String.toList_inj, String.toList_append, String.toList_append] at htext
  exact String.toList_inj.1 (List.append_cancel_right htext)

theorem isSqlLine_of_mem_itemLines {items : List String} (h : ∀ x ∈ items, isSqlLine x = true)
    {line : String} (hm : line ∈ itemLines items) : isSqlLine line = true := by
  fun_induction itemLines items with
  | case1 => cases hm
  | case2 x =>
    rw [List.mem_singleton.1 hm, ← String.append_empty (s := "    " ++ x)]
    exact isSqlLine_around (by decide) (h x (by simp)) (by decide)
  | case3 x y rest ih =>
    rcases List.mem_cons.1 hm with rfl | hm
    · exact isSqlLine_around (by decide) (h x (by simp)) (by decide)
    · exact ih (fun z hz => h z (by simp [hz])) hm

theorem Table.IsSql.isSqlLine_front (h : t.IsSql) {line : String}
    (hm : line ∈ t.opening :: itemLines t.items) : isSqlLine line = true := by
  rcases List.mem_cons.1 hm with rfl | hm
  · exact h.opening
  · exact isSqlLine_of_mem_itemLines h.items hm

theorem Table.IsSql.not_mem (h : t.IsSql) {c : Char} (hc : isSqlChar c = false) (hs : c ≠ ';') :
    ∀ line ∈ t.lines, c ∉ line.toList := by
  intro line hm
  rcases List.mem_append.1 hm with hm | hm
  · exact not_mem_of_isSqlLine (h.isSqlLine_front hm) hc
  · rw [List.mem_singleton.1 hm]
    have hp : c ≠ ')' := fun he => by rw [he] at hc; exact absurd hc (by decide)
    simp [hp, hs]

theorem Table.IsSql.isCodeLine (h : t.IsSql) : ∀ line ∈ t.lines, isCodeLine line = true := by
  intro line hm
  rcases List.mem_append.1 hm with hm | hm
  · exact isCodeLine_of_isSqlLine (h.isSqlLine_front hm)
  · rw [List.mem_singleton.1 hm]; decide

/-- Only the last line ends the statement of a table. -/
theorem Table.IsSql.filter_endsStatement (h : t.IsSql) : t.lines.filter endsStatement = [");"] := by
  have hfront : (t.opening :: itemLines t.items).filter endsStatement = [] :=
    List.filter_eq_nil_iff.2 fun line hm => by
      simp [endsStatement_of_isSqlLine (h.isSqlLine_front hm)]
  rw [lines, List.filter_append, hfront]
  decide

/-! ## Reading statements -/

theorem groupLines_append {ls : List String} (h : ∀ l ∈ ls, endsStatement l = false)
    (begun rest : List String) :
    groupLines begun (ls ++ rest) = groupLines (ls.reverse ++ begun) rest := by
  induction ls generalizing begun with
  | nil => rfl
  | cons l ls ih =>
    rw [List.cons_append, groupLines, if_neg (by simp [h l]), ih fun x hx => h x (by simp [hx])]
    simp

/-- The lines of tables are grouped by table. -/
theorem groupLines_tables (h : ∀ t ∈ ts, t.IsSql) :
    groupLines [] (ts.flatMap Table.lines) = ts.map Table.lines := by
  induction ts with
  | nil => rfl
  | cons t ts ih =>
    have hfront : ∀ l ∈ t.opening :: itemLines t.items, endsStatement l = false := fun l hm =>
      endsStatement_of_isSqlLine ((h t (by simp)).isSqlLine_front hm)
    rw [List.flatMap_cons, Table.lines, List.append_assoc, groupLines_append hfront,
      List.singleton_append, groupLines, if_pos (by decide),
      ih fun x hx => h x (by simp [hx])]
    simp [Table.lines]

theorem trim_statement (t : Table) : trim (t.statement ++ "\n") = t.statement := by
  have hfirst : ∃ cs, t.statement.toList = 'C' :: cs := by
    unfold Table.statement Table.opening
    simp only [String.toList_append, String.reduceToList, List.cons_append]
    exact ⟨_, rfl⟩
  have hlast : t.statement.toList.getLast? = some ';' := getLast?_append_text _ rfl
  obtain ⟨cs, hcs⟩ := hfirst
  have hfront : (t.statement ++ "\n").toList.dropWhile isBlank = t.statement.toList ++ ['\n'] := by
    rw [String.toList_append, hcs, List.cons_append, List.dropWhile_cons_of_neg (by decide)]
    rfl
  rw [trim, trimList, hfront, dropWhileEnd_append_of_last hlast (by decide),
    show dropWhileEnd isBlank ['\n'] = [] by decide, List.append_nil, String.ofList_toList]

theorem statementText_lines (h : t.items ≠ []) : statementText t.lines = t.statement := by
  have htext := Table.text_eq_lines h
  rw [statementText, ← unlines, ← htext, Table.text_eq_statement, trim_statement]

end

/-! ## Tables of units -/

section

variable {d : Dialect} {u : CodeUnit} {units : List CodeUnit} {text : String}

theorem isSqlLine_column (hd : d ∈ [Dialect.postgres, Dialect.sqlite]) (c : Category) :
    isSqlLine (d.column c) = true :=
  isSqlLine_types d hd _ (by cases c <;> simp [Dialect.column])

theorem isSqlLine_key (hd : d ∈ [Dialect.postgres, Dialect.sqlite]) (type : String) :
    isSqlLine (d.key type) = true :=
  isSqlLine_types d hd _ (by unfold Dialect.key; split <;> simp)

theorem isSqlLine_columnText {name type : String} {demand : Demand}
    (hn : isSqlText name = true) (ht : isSqlLine type = true) :
    isSqlLine (Column.text ⟨name, type, demand⟩) = true := by
  have hdemand : isSqlText demand.text = true := by
    cases demand with
    | primaryKey => exact isSqlText_fixed (by simp [fixedTexts, Demand.text])
    | notNull => exact isSqlText_fixed (by simp [fixedTexts, Demand.text])
    | nothing => rfl
  refine isSqlLine_around ?_ ht hdemand
  rw [isSqlText_append, hn]
  rfl

theorem isSqlLine_opening {t : Table} (h : isSqlText t.name = true) : isSqlLine t.opening = true :=
  isSqlLine_before (isSqlLine_fixed _ (by simp [fixedTexts])) h (by decide)

theorem isSql_classTable (hd : d ∈ [Dialect.postgres, Dialect.sqlite]) (name : String)
    (members : List Member) : (classTables d name members).table.IsSql where
  opening := isSqlLine_opening (isSqlText_tableName name)
  items x hx := by
    simp only [Table.items, classTables, List.append_nil, List.map_cons, List.map_map,
      List.mem_cons, List.mem_map, Function.comp_apply] at hx
    rcases hx with rfl | ⟨m, -, rfl⟩
    · exact isSqlLine_columnText (isSqlText_fixed (by simp [fixedTexts]))
        (isSqlLine_column hd .string)
    · exact isSqlLine_columnText (isSqlText_tableName m.name) (isSqlLine_column hd m.category)
  ne_nil := by simp [Table.items, classTables]

theorem isSql_sideTable (hd : d ∈ [Dialect.postgres, Dialect.sqlite]) {table : String}
    (h : isSqlText table = true) (m : Member) : (sideTable d table m).IsSql where
  opening := by
    refine isSqlLine_opening ?_
    rw [sideTable, isSqlText_append, isSqlText_append, h, isSqlText_tableName]
    decide
  items x hx := by
    simp only [Table.items, sideTable, List.map_cons, List.map_nil, List.mem_append, List.mem_cons,
      List.not_mem_nil, or_false] at hx
    rcases hx with (rfl | rfl | rfl) | rfl | rfl
    · exact isSqlLine_columnText (isSqlText_fixed (by simp [fixedTexts]))
        (isSqlLine_column hd .string)
    · exact isSqlLine_columnText (isSqlText_fixed (by simp [fixedTexts]))
        (isSqlLine_key hd m.storage.key)
    · exact isSqlLine_columnText (isSqlText_fixed (by simp [fixedTexts]))
        (isSqlLine_column hd m.category)
    · exact isSqlLine_fixed _ (by simp [fixedTexts])
    · exact isSqlLine_before (isSqlLine_fixed _ (by simp [fixedTexts])) h
        (isSqlText_fixed (by simp [fixedTexts]))
  ne_nil := by simp [Table.items, sideTable]

theorem isSql_tablesOf (hd : d ∈ [Dialect.postgres, Dialect.sqlite]) :
    ∀ t ∈ tablesOf d u, t.IsSql := by
  intro t ht
  rcases List.mem_cons.1 ht with rfl | ht
  · exact isSql_classTable hd u.name u.data
  · obtain ⟨m, -, rfl⟩ := List.mem_map.1 ht
    exact isSql_sideTable hd (isSqlText_tableName u.name) m

/-! ## Scripts -/

/-- The lines of the tables of a unit, behind an empty line and a comment. -/
def unitLines (d : Dialect) (u : CodeUnit) : List String :=
  "" :: ("-- " ++ u.name) :: (tablesOf d u).flatMap Table.lines

/-- The first line of a script. -/
def headerLine (d : Dialect) : String :=
  "-- Code generated by simgen (" ++ d.name ++ "). DO NOT EDIT."

/-- The lines of a script. -/
def scriptLines (d : Dialect) (units : List CodeUnit) : List String :=
  headerLine d :: (units.filter isTabled).flatMap (unitLines d)

theorem classTables_text (hd : d ∈ [Dialect.postgres, Dialect.sqlite]) (u : CodeUnit) :
    (classTables d u.name u.data).text = unlines (unitLines d u) := by
  have htables : String.join ((tablesOf d u).map Table.text) =
      unlines ((tablesOf d u).flatMap Table.lines) := by
    rw [unlines_flatMap]
    exact congrArg String.join (List.map_congr_left fun t ht =>
      Table.text_eq_lines (isSql_tablesOf hd t ht).ne_nil)
  have hname : (classTables d u.name u.data).className = u.name := rfl
  rw [unitLines, unlines_cons, unlines_cons, ← htables, ← String.toList_inj]
  simp only [ClassTables.text, tablesOf, hname, String.toList_append, List.append_assoc,
    String.reduceToList, List.cons_append, List.nil_append, List.map_cons]

theorem scriptHeader_eq (d : Dialect) : scriptHeader d = headerLine d ++ "\n" := by
  rw [← String.toList_inj]
  unfold scriptHeader headerLine
  simp only [String.toList_append, List.append_assoc, String.reduceToList, List.cons_append,
    List.nil_append]

/-- The first line of a script is a comment. -/
theorem headerLine_comment (d : Dialect) : ∃ rest, headerLine d = "-- " ++ rest := by
  refine ⟨"Code generated by simgen (" ++ d.name ++ "). DO NOT EDIT.", ?_⟩
  rw [← String.toList_inj]
  unfold headerLine
  simp only [String.toList_append, String.reduceToList, List.cons_append, List.nil_append]

theorem script_lines (hd : d ∈ [Dialect.postgres, Dialect.sqlite])
    (h : script d units = .ok text) : text = unlines (scriptLines d units) := by
  obtain ⟨-, rfl⟩ := script_eq_ok.1 h
  have hunits := List.map_congr_left (l := units.filter isTabled) fun u _ => classTables_text hd u
  rw [scriptLines, unlines_cons, unlines_flatMap, hunits, scriptHeader_eq]

theorem not_mem_headerLine (hd : d ∈ [Dialect.postgres, Dialect.sqlite]) {c : Char}
    (hc : c = '\n' ∨ c = '\r') : c ∉ (headerLine d).toList := by
  have hclear : ∀ d ∈ [Dialect.postgres, Dialect.sqlite],
      '\n' ∉ (headerLine d).toList ∧ '\r' ∉ (headerLine d).toList := by decide
  rcases hc with rfl | rfl
  · exact (hclear d hd).1
  · exact (hclear d hd).2

/-- Line ends stand at the end of lines only. -/
theorem not_mem_scriptLines (hd : d ∈ [Dialect.postgres, Dialect.sqlite]) {c : Char}
    (hc : c = '\n' ∨ c = '\r') : ∀ line ∈ scriptLines d units, c ∉ line.toList := by
  have hmark : isSqlChar c = false := isSqlChar_of_mark (by simp [hc])
  have hnot : isNameChar c = false := (Bool.or_eq_false_iff.1 hmark).1
  have hsigns : c ≠ ';' ∧ c ≠ '-' ∧ c ≠ ' ' := by rcases hc with rfl | rfl <;> decide
  intro line hline
  rcases List.mem_cons.1 hline with rfl | hline
  · exact not_mem_headerLine hd hc
  obtain ⟨u, -, hline⟩ := List.mem_flatMap.1 hline
  rcases List.mem_cons.1 hline with rfl | hline
  · simp
  rcases List.mem_cons.1 hline with rfl | hline
  · have hname : c ∉ u.name.toList := fun hm => by
      have := (isIdentifier_ident u.classifier.name).chars c hm
      simp [hnot] at this
    simp [hname, hsigns]
  · obtain ⟨t, ht, hline⟩ := List.mem_flatMap.1 hline
    exact (isSql_tablesOf hd t ht).not_mem hmark hsigns.1 line hline

theorem isCodeLine_comment (rest : String) : isCodeLine ("-- " ++ rest) = false := by
  have htrim : (trim ("-- " ++ rest)).toList =
      ['-', '-'] ++ dropWhileEnd isBlank (' ' :: rest.toList) := by
    have hfront : ("-- " ++ rest).toList.dropWhile isBlank = ['-', '-'] ++ ' ' :: rest.toList := by
      rw [String.toList_append]
      exact List.dropWhile_cons_of_neg (by decide)
    rw [trim, String.toList_ofList, trimList, hfront,
      dropWhileEnd_append_of_last (c := '-') (by decide) (by decide)]
  have hstarts : startsWith (trim ("-- " ++ rest)) "--" = true := by
    rw [startsWith_iff, htrim]
    exact List.prefix_append ['-', '-'] _
  rw [isCodeLine, hstarts, Bool.not_true, Bool.and_false]

/-- Without comments and empty lines, the lines of the tables are left. -/
theorem filter_scriptLines (hd : d ∈ [Dialect.postgres, Dialect.sqlite]) :
    (scriptLines d units).filter isCodeLine =
      ((units.filter isTabled).flatMap (tablesOf d)).flatMap Table.lines := by
  have hunit : ∀ u, (unitLines d u).filter isCodeLine = (tablesOf d u).flatMap Table.lines := by
    intro u
    rw [unitLines, List.filter_cons_of_neg (by decide),
      List.filter_cons_of_neg (by simp [isCodeLine_comment]), List.filter_eq_self]
    intro line hline
    obtain ⟨t, ht, hline⟩ := List.mem_flatMap.1 hline
    exact (isSql_tablesOf hd t ht).isCodeLine line hline
  obtain ⟨rest, hheader⟩ := headerLine_comment d
  rw [scriptLines, List.filter_cons_of_neg (by simp [hheader, isCodeLine_comment]),
    List.filter_flatMap]
  simp only [hunit, List.flatMap_assoc]

/-- The lines read from a script without overlong lines are those it was written with. -/
theorem scanLines_script (hd : d ∈ [Dialect.postgres, Dialect.sqlite])
    (h : script d units = .ok text)
    (hshort : ∀ line ∈ splitOn '\n' text, line.utf8ByteSize < lineLimit) :
    scanLines text = scriptLines d units := by
  have hsplit : splitOn '\n' text = scriptLines d units ++ [""] := by
    rw [script_lines hd h]
    exact splitOn_unlines (not_mem_scriptLines hd (Or.inl rfl))
  have hraw : rawLines text = scriptLines d units := by
    rw [rawLines, hsplit, List.reverse_append]
    simp
  have hkept : (scriptLines d units).takeWhile (fun l => l.utf8ByteSize < lineLimit) =
      scriptLines d units := by
    rw [List.takeWhile_eq_self_iff]
    intro line hm
    simpa using hshort line (by rw [hsplit]; exact List.mem_append_left _ hm)
  have hdrop : ∀ line ∈ scriptLines d units, dropReturn line = line := by
    intro line hm
    have hreturn : endsWith line "\r" = false := by
      rw [Bool.eq_false_iff]
      intro he
      exact not_mem_scriptLines hd (Or.inr rfl) line hm ((endsWith_iff.1 he).mem (by decide))
    rw [dropReturn, if_neg (by simp [hreturn])]
  rw [scanLines, hraw, hkept]
  exact List.map_congr_left hdrop |>.trans (List.map_id _)

/-- **The statements of a script** are those of its tables. -/
theorem statements_tables (hd : d ∈ [Dialect.postgres, Dialect.sqlite])
    (h : script d units = .ok text)
    (hshort : ∀ line ∈ splitOn '\n' text, line.utf8ByteSize < lineLimit) :
    statements text = ((units.filter isTabled).flatMap (tablesOf d)).map Table.statement := by
  have hsql : ∀ t ∈ (units.filter isTabled).flatMap (tablesOf d), t.IsSql := by
    intro t ht
    obtain ⟨u, -, ht⟩ := List.mem_flatMap.1 ht
    exact isSql_tablesOf hd t ht
  rw [statements, scanLines_script hd h hshort, filter_scriptLines hd, groupLines_tables hsql,
    List.map_map]
  exact List.map_congr_left fun t ht => statementText_lines (hsql t ht).ne_nil

end

/-! ## Deployment -/

section

variable {db : Database} {ss : List String}

theorem execute_succeeds_iff : (db.execute ss).2 = none ↔ ∀ s ∈ ss, db.refusal s = none := by
  induction ss with
  | nil => simp [Database.execute]
  | cons s ss ih =>
    rw [Database.execute]
    cases hs : db.refusal s with
    | some cause => simp [hs]
    | none => simpa [hs] using ih

theorem executed_of_succeeds (h : (db.execute ss).2 = none) : (db.execute ss).1 = ss := by
  induction ss with
  | nil => rfl
  | cons s ss ih =>
    rw [Database.execute] at h ⊢
    cases hs : db.refusal s with
    | some cause => simp [hs] at h
    | none =>
      rw [hs] at h
      exact congrArg (s :: ·) (ih h)

/-- A deployment succeeds iff there is a source, the database answers and no statement is refused,
    and then all statements were executed. -/
theorem deploy_succeeds_iff (d : Dialect) (source text : String) :
    ((db.deploy d source text).failure = none ↔ isBlankText source = false ∧ db.openFault = none ∧
      db.pingFault = none ∧ ∀ s ∈ statements text, db.refusal s = none) ∧
    ((db.deploy d source text).failure = none →
      (db.deploy d source text).executed = statements text) := by
  rw [← execute_succeeds_iff, Database.deploy]
  cases isBlankText source <;> cases db.openFault <;> cases db.pingFault <;>
    simp +contextual [executed_of_succeeds]

end

/-- A statement from `CREATE` to the closing parenthesis, with no comments in it and no end before
    its last line. -/
structure IsCreation (s : String) : Prop where
  starts : startsWith s "CREATE TABLE IF NOT EXISTS " = true
  ends : endsWith s "\n);" = true
  code : ∀ line ∈ splitOn '\n' s, isCodeLine line = true
  closed : (splitOn '\n' s).filter endsStatement = [");"]

theorem isCreation_statement {t : Table} (h : t.IsSql) : IsCreation t.statement := by
  have hlines : splitOn '\n' t.statement = t.lines := by
    rw [Table.statement_eq_lines h.ne_nil]
    exact splitOn_intercalate_newline (h.not_mem (isSqlChar_of_mark (by simp)) (by decide))
      (by simp [Table.lines])
  refine ⟨?_, endsWith_append _ _, hlines ▸ h.isCodeLine, hlines ▸ h.filter_endsStatement⟩
  unfold Table.statement Table.opening
  rw [String.append_assoc, String.append_assoc, String.append_assoc, String.append_assoc]
  exact startsWith_append _ _

/-- What is read and executed of the script for `units`. -/
structure ScriptStatements (d : Dialect) (units : List CodeUnit) (text : String) : Prop where
  /-- One statement for each unit with tables, followed by one for each of its keyed members. -/
  statements_eq : statements text = (units.filter isTabled).flatMap fun u =>
    (classTables d u.name u.data).table.statement ::
      (keyedMembers u).map fun m => (sideTable d (tableName u.name) m).statement
  creations : ∀ s ∈ statements text, IsCreation s
  length_eq : (statements text).length =
    ((units.filter isTabled).map fun u => 1 + (keyedMembers u).length).sum
  /-- A deployment succeeds iff there is a source, the database answers and no statement is
      refused. -/
  succeeds_iff : ∀ (db : Database) (source : String), (db.deploy d source text).failure = none ↔
    isBlankText source = false ∧ db.openFault = none ∧ db.pingFault = none ∧
      ∀ s ∈ statements text, db.refusal s = none
  /-- Then it has executed all statements. -/
  executed : ∀ (db : Database) (source : String), (db.deploy d source text).failure = none →
    (db.deploy d source text).executed = statements text
  /-- In the units of a batch, and in each selection of them, those with tables are the simulation
      objects. -/
  simObjects : ∀ (r : Registry) (stems : Stems) (ids : IdTable) (cancel : Cancellation),
    units ⊆ (lowerAll r stems ids cancel).units →
    units.filter isTabled = units.filter fun u => u.family = .simObject

/-- **Scripts are read as they were written.** -/
theorem statements_script {d : Dialect} {units : List CodeUnit} {text : String}
    (hd : d ∈ [Dialect.postgres, Dialect.sqlite]) (h : script d units = .ok text)
    (hshort : ∀ line ∈ splitOn '\n' text, line.utf8ByteSize < lineLimit) :
    ScriptStatements d units text := by
  have htables := statements_tables hd h hshort
  have hunit : ∀ u, (tablesOf d u).map Table.statement =
      (classTables d u.name u.data).table.statement ::
        (keyedMembers u).map fun m => (sideTable d (tableName u.name) m).statement := by
    intro u
    rw [tablesOf, List.map_cons, classTables, List.map_map]
    rfl
  have hstatements := htables
  rw [List.map_flatMap, List.flatMap_congr fun u _ => hunit u] at hstatements
  refine {
    statements_eq := hstatements
    creations := fun s hs => ?_
    length_eq := ?_
    succeeds_iff := fun db source => (deploy_succeeds_iff d source text).1
    executed := fun db source => (deploy_succeeds_iff d source text).2
    simObjects := fun r stems ids cancel hsub => ?_ }
  · rw [htables] at hs
    obtain ⟨t, ht, rfl⟩ := List.mem_map.1 hs
    obtain ⟨u, -, ht⟩ := List.mem_flatMap.1 ht
    exact isCreation_statement (isSql_tablesOf hd t ht)
  · rw [hstatements, List.length_flatMap]
    simp [Nat.add_comm]
  · refine List.filter_congr fun u hu => ?_
    rw [Bool.eq_iff_iff, isTabled_iff (hsub hu), decide_eq_true_iff]

/-- The script for `harbour` is read as a statement for ships, one for their log, and one for
    tugs. -/
theorem harbour_statements :
    ∃ text, script .sqlite (defaultUnits harbour) = .ok text ∧ (statements text).length = 3 := by
  have hscript : script .sqlite (defaultUnits harbour) = .ok _ :=
    script_eq_ok.2 ⟨by decide +kernel, rfl⟩
  have hshort : ∀ line ∈ splitOn '\n' (unlines (scriptLines .sqlite (defaultUnits harbour))),
      line.utf8ByteSize < lineLimit := by
    rw [splitOn_unlines (not_mem_scriptLines (by simp) (Or.inl rfl))]
    decide +kernel
  rw [← script_lines (by simp) hscript] at hshort
  refine ⟨_, hscript, ?_⟩
  rw [(statements_script (by simp) hscript hshort).length_eq]
  decide +kernel

end Schema
end ObjectLowering
