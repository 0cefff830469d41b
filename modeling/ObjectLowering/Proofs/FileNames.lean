/-
  Which files of a batch can be told apart.

  Files are called by the identifiers of class names, and headers are guarded
  by the upper-case form.  Both lose differences between names, and nothing
  checks for it.

  * `assemble_names_nodup_iff`, `assemble_guards_nodup_iff`: files have names
    of their own iff the identifiers differ, headers have guards of their own
    iff the upper-case forms do.
  * `Layout.allStored_iff`, `Layout.writeFiles_kept`: what the names mean for
    files that are stored, in memory and anywhere.
  * `included_eq_self_iff`: what the guards mean for headers that are read one
    after the other.
  * `lowerAll_files`: all this for the files of a batch.
-/
import ObjectLowering.Artifact.Writer
import ObjectLowering.Proofs.Batches
import ObjectLowering.Proofs.Stores
import ObjectLowering.Proofs.TypeNames

namespace ObjectLowering

namespace Text

theorem afterFront?_append (front cs : List Char) : afterFront? front (front ++ cs) = some cs := by
  induction front with
  | nil => rfl
  | cons c front ih => rw [List.cons_append, afterFront?, if_pos rfl, ih]

theorem splitOn_line {line : String} (h : '\n' ∉ line.toList) (rest : String) :
    splitOn '\n' (line ++ "\n" ++ rest) = line :: splitOn '\n' rest := by
  have hline : ∀ c ∈ line.toList, (c == '\n') = false := fun c hc =>
    beq_false_of_ne fun he => h (he ▸ hc)
  have htext : (line ++ "\n" ++ rest).toList = line.toList ++ '\n' :: rest.toList := by simp
  rw [splitOn, splitOn, htext, List.splitOn,
    List.splitOnP_append_cons_of_forall_mem hline '\n' (by decide), List.map_cons,
    String.ofList_toList]
  rfl

end Text

namespace Code

theorem render_three_lines {a b c : String} (ha : a ≠ "") (hb : b ≠ "") (hc : c ≠ "")
    (es : List Edit) : ∃ rest, render (.line a :: .line b :: .line c :: es) =
      a ++ "\n" ++ (b ++ "\n" ++ (c ++ "\n" ++ rest)) := by
  set first := Stream.apply (Stream.apply (Stream.apply {} (.line a)) (.line b)) (.line c)
    with hfirst
  obtain ⟨more, hmore⟩ := Stream.lines_front first es
  have hlines : first.lines.toList = [a, b, c] := by
    simp [hfirst, Stream.apply, Stream.line, ha, hb, hc, indented]
  refine ⟨String.join (more.map (· ++ "\n")), ?_⟩
  rw [render, List.foldl_cons, List.foldl_cons, List.foldl_cons, Stream.text, ← hmore, hlines,
    List.map_append, String.join_append, ← String.toList_inj]
  simp [String.join]

theorem IsIdentifier.no_newline {name : String} (h : IsIdentifier name) : '\n' ∉ name.toList := by
  intro hmem
  have hname := h.chars _ hmem
  rw [isNameChar_of_isBlank (by decide)] at hname
  cases hname

theorem constantName_ident (name : String) : constantName (ident name) = constantName name := by
  rw [constantName, (isIdentifier_ident name).ident_eq, constantName]

end Code

namespace Artifact

open Lowering Code Text Data Model

/-! ## Names of files -/

variable {l : Layout} {units : List CodeUnit} {u v : CodeUnit} {f g : SourceFile}

theorem header_name_ne (a b : String) : a ++ ".h" ≠ b ++ ".cpp" := by
  intro h
  have hlast := congrArg (fun s => s.toList.getLast?) h
  simp at hlast

theorem names_unitFiles (l : Layout) (units : List CodeUnit) (u : CodeUnit) :
    (unitFiles l units u).map (·.name) = [u.name ++ ".h"] ∨
      (unitFiles l units u).map (·.name) = [u.name ++ ".h", u.name ++ ".cpp"] := by
  unfold unitFiles
  split_ifs
  · exact Or.inl rfl
  · exact Or.inr rfl

/-- **Names of files**: they are distinct iff the units have names of their own. -/
theorem assemble_names_nodup_iff (l : Layout) (units : List CodeUnit) :
    ((assemble l units).map (·.name)).Nodup ↔ (units.map (·.name)).Nodup := by
  have hown : ∀ u ∈ units, ((unitFiles l units u).map (·.name)).Nodup := by
    intro u _
    rcases names_unitFiles l units u with h | h <;> rw [h]
    · exact List.nodup_singleton _
    · simp
  have hapart : ∀ u v : CodeUnit, List.Disjoint ((unitFiles l units u).map (·.name))
      ((unitFiles l units v).map (·.name)) ↔ u.name ≠ v.name := by
    intro u v
    rcases names_unitFiles l units u with hu | hu <;>
      rcases names_unitFiles l units v with hv | hv <;> rw [hu, hv] <;>
      simp [header_name_ne, (header_name_ne _ _).symm, eq_comm]
  -- the names of one unit never clash, so all depends on pairs of units
  rw [assemble, List.map_flatMap, List.nodup_flatMap, List.Nodup, List.pairwise_map]
  constructor
  · rintro ⟨-, h⟩
    exact h.imp fun {u v} => (hapart u v).1
  · intro h
    exact ⟨hown, h.imp fun {u v} => (hapart u v).2⟩

/-! ## Guards of headers -/

/-- The headers among files. -/
def headers (files : List SourceFile) : List SourceFile :=
  files.filter fun f => f.contentType == "text/x-c++hdr"

/-- The macro that the second line of a text asks for and the third line defines. -/
def guardOf? (text : String) : Option String :=
  match splitOn '\n' text with
  | _ :: asked :: defined :: _ =>
    ((afterFront? "#ifndef ".toList asked.toList).map String.ofList).filter fun name =>
      defined == "#define " ++ name
  | _ => none

/-- The header of a unit among given units. -/
def headerFile (l : Layout) (units : List CodeUnit) (u : CodeUnit) : SourceFile :=
  { name := u.name ++ ".h", className := u.name, contentType := "text/x-c++hdr"
    content := render (headerEdits l units u) }

theorem headers_assemble (l : Layout) (units : List CodeUnit) :
    headers (assemble l units) = units.map (headerFile l units) := by
  have hone : ∀ u, headers (unitFiles l units u) = [headerFile l units u] := by
    intro u
    unfold unitFiles
    split_ifs <;> rfl
  rw [assemble, headers, List.filter_flatMap, List.map_eq_flatMap]
  exact congrArg units.flatMap (funext hone)

theorem includeGuard_inj {a b : String} :
    includeGuard a = includeGuard b ↔ constantName a = constantName b := by
  rw [includeGuard, includeGuard, ← String.toList_inj, ← String.toList_inj]
  simp

theorem guardOf?_headerFile (l : Layout) (units : List CodeUnit) (u : CodeUnit) :
    guardOf? (headerFile l units u).content = some (includeGuard u.name) := by
  have hguard : '\n' ∉ (includeGuard u.name).toList := by
    simp [includeGuard, (isIdentifier_constantName u.name).no_newline]
  have hasked : '\n' ∉ ("#ifndef " ++ includeGuard u.name).toList := by simpa using hguard
  have hdefined : '\n' ∉ ("#define " ++ includeGuard u.name).toList := by simpa using hguard
  have hbanner : '\n' ∉ banner.toList := by decide
  obtain ⟨rest, hrest⟩ := render_three_lines (a := banner)
    (b := "#ifndef " ++ includeGuard u.name) (c := "#define " ++ includeGuard u.name)
    (by decide) (by simp) (by simp) ((headerEdits l units u).drop 3)
  have hcontent : (headerFile l units u).content =
      banner ++ "\n" ++ ("#ifndef " ++ includeGuard u.name ++ "\n" ++
        ("#define " ++ includeGuard u.name ++ "\n" ++ rest)) := by
    rw [headerFile, ← hrest]
    rfl
  have hfront := afterFront?_append "#ifndef ".toList (includeGuard u.name).toList
  rw [hcontent, guardOf?, splitOn_line hbanner, splitOn_line hasked, splitOn_line hdefined]
  simp only [String.toList_append, hfront, Option.map_some, String.ofList_toList,
    Option.filter_some, beq_self_eq_true, if_true]

/-- **Guards of headers**: they are distinct iff the names of the units differ in upper case. -/
theorem assemble_guards_nodup_iff (l : Layout) (units : List CodeUnit) :
    ((headers (assemble l units)).map fun f => guardOf? f.content).Nodup ↔
      (units.map fun u => constantName u.name).Nodup := by
  rw [headers_assemble, List.map_map, List.Nodup, List.pairwise_map, List.Nodup, List.pairwise_map]
  refine List.Pairwise.iff fun u v => ?_
  simp [guardOf?_headerFile, includeGuard_inj]

/-! ## Headers that are read -/

/-- The headers that are read when some are included in turn: one whose macro is defined is passed
    over, else it defines its macro. -/
def included : List String → List SourceFile → List SourceFile
  | _, [] => []
  | defined, f :: rest =>
    match guardOf? f.content with
    | some macroName =>
      if macroName ∈ defined then included defined rest
      else f :: included (macroName :: defined) rest
    | none => f :: included defined rest

theorem length_included_le (defined : List String) (hs : List SourceFile) :
    (included defined hs).length ≤ hs.length := by
  induction hs generalizing defined with
  | nil => exact le_refl 0
  | cons f rest ih =>
    unfold included
    split
    · split_ifs
      · exact (ih defined).trans (Nat.le_succ _)
      · exact Nat.succ_le_succ (ih _)
    · exact Nat.succ_le_succ (ih _)

/-- Guarded headers are all read iff their macros are distinct and not defined before. -/
theorem included_eq_self_iff {defined : List String} {hs : List SourceFile}
    (hguards : ∀ f ∈ hs, guardOf? f.content ≠ none) :
    included defined hs = hs ↔
      (hs.map fun f => guardOf? f.content).Nodup ∧
        ∀ f ∈ hs, ∀ g ∈ defined, guardOf? f.content ≠ some g := by
  -- the macros that are defined grow with every header that is read
  induction hs generalizing defined with
  | nil => simp [included]
  | cons f rest ih =>
    have hrest : ∀ f ∈ rest, guardOf? f.content ≠ none := fun x hx =>
      hguards x (List.mem_cons_of_mem _ hx)
    obtain ⟨name, hname⟩ := Option.ne_none_iff_exists'.1 (hguards f List.mem_cons_self)
    unfold included
    rw [hname]
    simp only
    split_ifs with hdefined
    · -- the header is passed over, so one is missing
      constructor
      · intro h
        have hlength := congrArg List.length h
        have hle := length_included_le defined rest
        simp only [List.length_cons] at hlength
        omega
      · rintro ⟨-, hfree⟩
        exact absurd hname (hfree f List.mem_cons_self name hdefined)
    · rw [List.cons_inj_right, ih hrest]
      simp only [List.map_cons, List.nodup_cons, List.mem_cons, List.mem_map, hname]
      constructor
      · rintro ⟨hnodup, hfree⟩
        refine ⟨⟨?_, hnodup⟩, ?_⟩
        · rintro ⟨x, hx, he⟩
          exact hfree x hx name (Or.inl rfl) he
        · rintro x (rfl | hx) g hg he
          · rw [hname] at he
            exact hdefined (Option.some.inj he ▸ hg)
          · exact hfree x hx g (Or.inr hg) he
      · rintro ⟨⟨hnot, hnodup⟩, hfree⟩
        refine ⟨hnodup, ?_⟩
        rintro x hx g (rfl | hg) he
        · exact hnot ⟨x, hx, he⟩
        · exact hfree x (Or.inr hx) g hg he

/-! ## Files that are stored -/

/-- A file on its way into a store. -/
def Layout.upload (l : Layout) (f : SourceFile) : Upload :=
  { key := l.key f.name, body := .ok f.content, properties := f.properties
    overwrites := l.overwrites }

/-- What a store in memory keeps of a file. -/
def Layout.stored (l : Layout) (f : SourceFile) : Stored :=
  { info := describe (l.upload f) f.content, content := f.content }

theorem store_memory (s : MemoryStore) (hkey : isBlankText (l.key f.name) = false) :
    l.store (.memory s) false f.name f.content f.properties =
      if (s.objects.lookup (l.key f.name)).isSome ∧ !l.overwrites then
        (.memory s, .error (.refused (l.key f.name) (.taken (l.key f.name))))
      else
        (.memory { objects := putEntry (l.key f.name) (l.stored f) s.objects },
          .ok (l.stored f).info) := by
  by_cases h : (s.objects.lookup (l.key f.name)).isSome ∧ !l.overwrites
  · simp only [Layout.store, Sink.put, MemoryStore.put, hkey, if_pos h, Except.mapError,
      Bool.false_eq_true, if_false]
  · simp only [Layout.store, Sink.put, MemoryStore.put, hkey, if_neg h, Except.mapError,
      Bool.false_eq_true, if_false]
    rfl

/-- What a store in memory holds after files were stored, one in place of another. -/
def Layout.entered (l : Layout) (objects : List (String × Stored)) (files : List SourceFile) :
    List (String × Stored) :=
  files.foldl (fun es f => putEntry (l.key f.name) (l.stored f) es) objects

/-- No key of files is taken, by objects or by a file before. -/
def Layout.Free (l : Layout) (objects : List (String × Stored)) (files : List SourceFile) : Prop :=
  (files.map fun f => l.key f.name).Nodup ∧ ∀ f ∈ files, objects.lookup (l.key f.name) = none

theorem Layout.free_cons {objects : List (String × Stored)} {rest : List SourceFile} :
    l.Free objects (f :: rest) ↔ objects.lookup (l.key f.name) = none ∧
      l.Free (putEntry (l.key f.name) (l.stored f) objects) rest := by
  simp only [Layout.Free, List.map_cons, List.nodup_cons, List.mem_map, List.mem_cons,
    lookup_putEntry]
  constructor
  · rintro ⟨⟨hnot, hnodup⟩, hfree⟩
    refine ⟨hfree f (Or.inl rfl), hnodup, fun x hx => ?_⟩
    rw [if_neg fun he => hnot ⟨x, hx, he⟩]
    exact hfree x (Or.inr hx)
  · rintro ⟨hf, hnodup, hfree⟩
    have hne : ∀ x ∈ rest, l.key x.name ≠ l.key f.name := by
      intro x hx he
      have hx := hfree x hx
      rw [if_pos he] at hx
      cases hx
    refine ⟨⟨fun ⟨x, hx, he⟩ => hne x hx he, hnodup⟩, ?_⟩
    rintro x (rfl | hx)
    · exact hf
    · have hfree := hfree x hx
      rwa [if_neg (hne x hx)] at hfree

/-- **Writing into memory** fails iff a key is taken and files are not replaced. -/
theorem writeFiles_memory {files : List SourceFile} (s : MemoryStore) (infos : List Info)
    (hkeys : ∀ f ∈ files, isBlankText (l.key f.name) = false) :
    ((l.writeFiles false { sink := .memory s, infos } files).failure = none ↔
      l.overwrites = true ∨ l.Free s.objects files) ∧
    ((l.writeFiles false { sink := .memory s, infos } files).failure = none →
      (l.writeFiles false { sink := .memory s, infos } files).sink =
        .memory { objects := l.entered s.objects files }) := by
  induction files generalizing s infos with
  | nil => exact ⟨by simp [Layout.writeFiles, Layout.Free], fun _ => rfl⟩
  | cons f rest ih =>
    have hrest : ∀ f ∈ rest, isBlankText (l.key f.name) = false := fun x hx =>
      hkeys x (List.mem_cons_of_mem _ hx)
    rw [Layout.writeFiles, if_neg (by decide), store_memory s (hkeys f List.mem_cons_self)]
    by_cases h : (s.objects.lookup (l.key f.name)).isSome ∧ !l.overwrites
    · rw [if_pos h, Layout.free_cons]
      obtain ⟨htaken, hkeep⟩ := h
      -- the file is refused, so writing stops here
      refine ⟨⟨fun hnone => (by cases hnone), ?_⟩, fun hnone => (by cases hnone)⟩
      rintro (hover | ⟨hfree, -⟩)
      · rw [hover] at hkeep
        cases hkeep
      · rw [hfree] at htaken
        cases htaken
    · rw [if_neg h, Layout.free_cons]
      obtain ⟨hfailure, hsink⟩ :=
        ih { objects := putEntry (l.key f.name) (l.stored f) s.objects } _ hrest
      refine ⟨hfailure.trans ?_, hsink⟩
      cases hover : l.overwrites with
      | true => simp
      | false =>
        have hfree : s.objects.lookup (l.key f.name) = none :=
          Option.not_isSome_iff_eq_none.1 fun htaken => h ⟨htaken, by rw [hover]; rfl⟩
        simp [hfree]

/-! ## Keys -/

/-- Keys are the names of files behind a text that depends on the layout alone. -/
theorem Layout.key_eq (l : Layout) :
    ∃ front, Path.IsFront front ∧ ∀ name, Path.IsFileName name → l.key name = front ++ name := by
  by_cases hfolder : l.folder = ""
  · refine ⟨"", Or.inl rfl, fun name _ => ?_⟩
    rw [Layout.key, if_pos hfolder, String.empty_append]
  · obtain ⟨front, hfront, hjoin⟩ := Path.join_front l.folder (Or.inl rfl)
    refine ⟨front, hfront, fun name h => ?_⟩
    rw [Layout.key, if_neg hfolder, ← hjoin name h, String.empty_append]

theorem Layout.key_inj {a b : String} (ha : Path.IsFileName a) (hb : Path.IsFileName b) :
    l.key a = l.key b ↔ a = b := by
  obtain ⟨front, -, hfront⟩ := l.key_eq
  rw [hfront a ha, hfront b hb, String.append_right_inj]

theorem name_of_mem (hf : f ∈ assemble l units) :
    ∃ name, IsIdentifier name ∧ (f.name = name ++ ".h" ∨ f.name = name ++ ".cpp") := by
  obtain ⟨u, -, hfu⟩ := List.mem_flatMap.1 hf
  refine ⟨u.name, isIdentifier_ident _, ?_⟩
  have hname : f.name ∈ (unitFiles l units u).map (·.name) := List.mem_map_of_mem hfu
  rcases names_unitFiles l units u with h | h <;> rw [h] at hname
  · exact Or.inl (List.mem_singleton.1 hname)
  · simpa using hname

theorem isArtifactName_append {name ending : String} (h : IsIdentifier name)
    (hending : ending ∈ [".h", ".cpp"]) : IsArtifactName (name ++ ending) := by
  have hslash : ∀ e ∈ [".h", ".cpp"], '/' ∉ e.toList := by decide
  have hlength : ∀ e ∈ [".h", ".cpp"], 2 ≤ e.length := by decide
  have hlast : ∀ e ∈ [".h", ".cpp"], e.toList.getLast? ≠ some 'a' := by decide
  have hname : '/' ∉ name.toList := fun hmem => absurd (h.chars _ hmem) (by decide)
  have hlong : 2 < (name ++ ending).length := by
    have hpos : name.length ≠ 0 := fun h0 => h.ne_empty (String.length_eq_zero_iff.1 h0)
    have hending := hlength ending hending
    rw [String.length_append]
    omega
  refine ⟨⟨?_, ?_, ?_, ?_⟩, fun other he => hlast ending hending ?_⟩
  · rw [String.toList_append, List.mem_append]
    exact not_or.2 ⟨hname, hslash ending hending⟩
  iterate 3
    intro he
    rw [he] at hlong
    exact absurd hlong (by decide)
  · have hend := congrArg (fun s => s.toList.getLast?) he
    have hsome : ending.toList ≠ [] := fun h0 => by
      have := hlength ending hending
      rw [← String.length_toList, h0] at this
      cases this
    rw [String.toList_append, String.toList_append, List.getLast?_append_of_ne_nil _ hsome,
      List.getLast?_append_of_ne_nil _ (by decide)] at hend
    exact hend

theorem isArtifactName_of_mem (hf : f ∈ assemble l units) : IsArtifactName f.name := by
  obtain ⟨name, hname, h | h⟩ := name_of_mem hf <;> rw [h]
  · exact isArtifactName_append hname (by decide)
  · exact isArtifactName_append hname (by decide)

theorem key_not_blank (hf : f ∈ assemble l units) : isBlankText (l.key f.name) = false := by
  obtain ⟨front, -, hfront⟩ := l.key_eq
  have hdot : '.' ∈ (l.key f.name).toList := by
    rw [hfront _ (isArtifactName_of_mem hf).toIsFileName]
    obtain ⟨name, -, h | h⟩ := name_of_mem hf <;> simp [h]
  exact List.all_eq_false.2 ⟨'.', hdot, by decide⟩

theorem keys_nodup_iff (l : Layout) (units : List CodeUnit) :
    ((assemble l units).map fun f => l.key f.name).Nodup ↔
      ((assemble l units).map (·.name)).Nodup := by
  unfold List.Nodup
  rw [List.pairwise_map, List.pairwise_map]
  refine List.Pairwise.iff_of_mem fun {f g} hf hg => ?_
  exact not_congr (Layout.key_inj (isArtifactName_of_mem hf).toIsFileName
    (isArtifactName_of_mem hg).toIsFileName)

/-! ## Files that are kept -/

section
variable {s : Sink} {infos : List Info} {files rest : List SourceFile}

theorem Layout.writeFiles_cons
    (h : (l.writeFiles false { sink := s, infos } (f :: rest)).failure = none) :
    ∃ s' info, s.put (l.upload f) = (s', .ok info) ∧
      l.writeFiles false { sink := s, infos } (f :: rest) =
        l.writeFiles false { sink := s', infos := infos ++ [info] } rest := by
  have hstore : l.store s false f.name f.content f.properties =
      ((s.put (l.upload f)).1, (s.put (l.upload f)).2.mapError (.refused (l.key f.name))) := rfl
  rw [Layout.writeFiles, if_neg (by decide), hstore] at h ⊢
  cases hanswer : (s.put (l.upload f)).2 with
  | error e =>
    rw [hanswer] at h
    cases h
  | ok info => exact ⟨_, info, Prod.ext rfl hanswer, rfl⟩

theorem Layout.holds_of_writeFiles {name content : String} (hname : IsArtifactName name)
    (hfiles : ∀ f ∈ files, IsArtifactName f.name ∧ name ≠ f.name)
    (hholds : s.Holds (l.key name) content)
    (h : (l.writeFiles false { sink := s, infos } files).failure = none) :
    (l.writeFiles false { sink := s, infos } files).sink.Holds (l.key name) content := by
  obtain ⟨front, hfront, hkey⟩ := l.key_eq
  induction files generalizing s infos with
  | nil => exact hholds
  | cons f rest ih =>
    obtain ⟨s', info, hput, hrest⟩ := l.writeFiles_cons h
    obtain ⟨hf, hne⟩ := hfiles f List.mem_cons_self
    rw [hrest] at h ⊢
    refine ih (fun x hx => hfiles x (List.mem_cons_of_mem _ hx)) ?_ h
    rw [hkey name hname.toIsFileName] at hholds ⊢
    exact Sink.holds_of_put hfront hf hname hne (hkey f.name hf.toIsFileName) rfl hput hholds

/-- **Files with names of their own** are all found in the store after they were written. -/
theorem Layout.writeFiles_kept (hfiles : ∀ f ∈ files, IsArtifactName f.name)
    (hnames : (files.map (·.name)).Nodup)
    (h : (l.writeFiles false { sink := s, infos } files).failure = none) :
    ∀ f ∈ files, (l.writeFiles false { sink := s, infos } files).sink.Holds (l.key f.name)
      (s.kept f.content) := by
  obtain ⟨front, hfront, hkey⟩ := l.key_eq
  induction files generalizing s infos with
  | nil =>
    intro f hf
    cases hf
  | cons g rest ih =>
    obtain ⟨s', info, hput, hrest⟩ := l.writeFiles_cons h
    obtain ⟨hnot, hnodup⟩ := List.nodup_cons.1 hnames
    have hg := hfiles g List.mem_cons_self
    have hothers : ∀ x ∈ rest, IsArtifactName x.name := fun x hx =>
      hfiles x (List.mem_cons_of_mem _ hx)
    rw [hrest] at h ⊢
    intro f hf
    rcases List.mem_cons.1 hf with rfl | hf
    · -- what is written first has to outlast the rest
      refine l.holds_of_writeFiles hg (fun x hx => ⟨hothers x hx, fun he => ?_⟩) ?_ h
      · exact hnot (List.mem_map.2 ⟨x, hx, he.symm⟩)
      · exact Sink.holds_put hfront hg (hkey _ hg.toIsFileName) rfl hput
    · rw [← Sink.kept_put rfl hput]
      exact ih hothers hnodup h f hf

end

/-! ## Files that are all in a store -/

theorem Layout.entered_nil (l : Layout) (files : List SourceFile) :
    l.entered [] files = entriesOf (files.map fun f => (l.key f.name, l.stored f)) := by
  rw [Layout.entered, entriesOf, List.foldl_map]

/-- What becomes of files that are stored in memory, where nothing was before. -/
def Layout.writtenFiles (l : Layout) (files : List SourceFile) : Written :=
  l.writeFiles false { sink := .memory {} } files

/-- All files are in the store in memory, every one of them with its own content. -/
def Layout.AllStored (l : Layout) (files : List SourceFile) : Prop :=
  (l.writtenFiles files).failure = none ∧
    ∃ s : MemoryStore, (l.writtenFiles files).sink = .memory s ∧
      s.objects.length = files.length ∧ ∀ f ∈ files, s.get (l.key f.name) = .ok (l.stored f)

/-- **Stored files**: all are in the store iff they have keys of their own. -/
theorem Layout.allStored_iff {files : List SourceFile}
    (hkeys : ∀ f ∈ files, isBlankText (l.key f.name) = false) :
    l.AllStored files ↔ (files.map fun f => l.key f.name).Nodup := by
  obtain ⟨hfailure, hsink⟩ := writeFiles_memory {} [] hkeys
  have hnames : (files.map fun f => (l.key f.name, l.stored f)).map (·.1) =
      files.map fun f => l.key f.name := List.map_map
  constructor
  · rintro ⟨hnone, s, hs, hlength, -⟩
    rw [Layout.writtenFiles, hsink hnone, Layout.entered_nil] at hs
    cases hs
    rw [← hnames, ← length_entriesOf_iff, hlength, List.length_map]
  · intro hnodup
    have hnone := hfailure.2 (Or.inr ⟨hnodup, fun _ _ => rfl⟩)
    have hpairs := hnames ▸ hnodup
    refine ⟨hnone, _, hsink hnone, ?_, fun f hf => ?_⟩
    · rw [Layout.entered_nil, (length_entriesOf_iff _).2 hpairs, List.length_map]
    · have hfound := (lookup_entriesOf_iff hpairs).2 (List.mem_map_of_mem hf)
      rw [MemoryStore.get, Layout.entered_nil, hfound]

/-! ## Batches -/

/-- Every selection of headers is read in full. -/
def AllRead (files : List SourceFile) : Prop :=
  ∀ hs, hs.Sublist (headers files) → included [] hs = hs

theorem allRead_iff (l : Layout) (units : List CodeUnit) :
    AllRead (assemble l units) ↔ (units.map fun u => constantName u.name).Nodup := by
  have hguards : ∀ f ∈ headers (assemble l units), guardOf? f.content ≠ none := by
    intro f hf
    rw [headers_assemble] at hf
    obtain ⟨u, -, rfl⟩ := List.mem_map.1 hf
    rw [guardOf?_headerFile]
    exact Option.some_ne_none _
  rw [← assemble_guards_nodup_iff l]
  constructor
  · intro h
    exact ((included_eq_self_iff hguards).1 (h _ (List.Sublist.refl _))).1
  · intro hnodup hs hsub
    refine (included_eq_self_iff fun f hf => hguards f (hsub.subset hf)).2 ⟨?_, ?_⟩
    · exact hnodup.sublist (hsub.map _)
    · rintro f - g ⟨⟩

/-- What tells files apart that were made for classifiers. -/
structure Distinction (l : Layout) (cs : List Classifier) (files : List SourceFile) : Prop where
  /-- Files have names of their own iff the classifiers have identifiers of their own. -/
  names : (files.map (·.name)).Nodup ↔ (cs.map fun c => ident c.name).Nodup
  /-- Headers have guards of their own iff the identifiers differ in upper case. -/
  guards : ((headers files).map fun f => guardOf? f.content).Nodup ↔
    (cs.map fun c => constantName c.name).Nodup
  /-- The guards are the stronger condition. -/
  both : (files.map (·.name)).Nodup ∧ ((headers files).map fun f => guardOf? f.content).Nodup ↔
    (cs.map fun c => constantName c.name).Nodup
  /-- Files that share a name are refused, unless one is to replace another. -/
  accepted : (l.writtenFiles files).failure = none ↔
    l.overwrites = true ∨ (cs.map fun c => ident c.name).Nodup
  /-- No file is lost in the store iff the identifiers differ. -/
  stored : l.AllStored files ↔ (cs.map fun c => ident c.name).Nodup
  /-- In whatever store files with names of their own are written, all are found there. -/
  kept : (cs.map fun c => ident c.name).Nodup → ∀ s : Sink,
    (l.writeFiles false { sink := s } files).failure = none → ∀ f ∈ files,
      (l.writeFiles false { sink := s } files).sink.Holds (l.key f.name) (s.kept f.content)
  /-- No header is passed over iff the identifiers differ in upper case. -/
  read : AllRead files ↔ (cs.map fun c => constantName c.name).Nodup

theorem nodup_ident_of_constantName {cs : List Classifier}
    (h : (cs.map fun c => constantName c.name).Nodup) : (cs.map fun c => ident c.name).Nodup := by
  have hmap : (cs.map fun c => constantName c.name) =
      (cs.map fun c => ident c.name).map toUpper := by
    rw [List.map_map]
    rfl
  rw [hmap] at h
  exact h.of_map

/-- **Files of a batch** that has not failed: their names are distinct iff the identifiers of the
    eligible classifiers are, and their guards iff these are distinct in upper case.  Then, and
    only then, is every file found in the store and every header read. -/
theorem lowerAll_files {r : Registry} {stems : Stems} {ids : IdTable} {cancel : Cancellation}
    (h : (lowerAll r stems ids cancel).hasFailed = false) (l : Layout) :
    Distinction l (r.classifiers.filter isEligible)
      (assemble l (lowerAll r stems ids cancel).units) := by
  rw [← units_classifiers h]
  generalize (lowerAll r stems ids cancel).units = units
  have hidents : (units.map (·.classifier)).map (fun c => ident c.name) = units.map (·.name) :=
    List.map_map
  have hconstants : (units.map (·.classifier)).map (fun c => constantName c.name) =
      units.map fun u => constantName u.name := by
    rw [List.map_map]
    exact List.map_congr_left fun u _ => (constantName_ident _).symm
  have hkeys : ∀ f ∈ assemble l units, isBlankText (l.key f.name) = false := fun f hf =>
    key_not_blank hf
  have hnames : ((assemble l units).map (·.name)).Nodup ↔
      ((units.map (·.classifier)).map fun c => ident c.name).Nodup := by
    rw [hidents]
    exact assemble_names_nodup_iff l units
  have hguards : ((headers (assemble l units)).map fun f => guardOf? f.content).Nodup ↔
      ((units.map (·.classifier)).map fun c => constantName c.name).Nodup := by
    rw [hconstants]
    exact assemble_guards_nodup_iff l units
  refine {
    names := hnames, guards := hguards, both := ?_, accepted := ?_, stored := ?_
    kept := fun hidents s hnone => ?_, read := ?_ }
  · rw [hnames, hguards]
    exact and_iff_right_of_imp nodup_ident_of_constantName
  · rw [Layout.writtenFiles, (writeFiles_memory {} [] hkeys).1, Layout.Free, keys_nodup_iff, hnames]
    exact or_congr_right (and_iff_left fun _ _ => rfl)
  · rw [Layout.allStored_iff hkeys, keys_nodup_iff, hnames]
  · exact l.writeFiles_kept (fun f hf => isArtifactName_of_mem hf) (hnames.2 hidents) hnone
  · rw [hconstants]
    exact allRead_iff l units

/-! A pump house.  Later it gets a pump whose name has the identifier of the first one, or a valve
whose name differs from that of the first one in case. -/

def pumpElements : List Element := [
  .classifier { id := "pump", name := "Fuel Pump" },
  .attribute { id := "rate", name := "rate", parent := "pump", typed := { typeName := "double" } },
  .classifier { id := "valve", name := "Valve" }]

def pumpHouse : Registry := Registry.prepare { elements := pumpElements }

def twoPumpHouse : Registry := Registry.prepare { elements := pumpElements ++ [
  .classifier { id := "spare", name := "Fuel_Pump" }] }

def twoValveHouse : Registry := Registry.prepare { elements := pumpElements ++ [
  .classifier { id := "bypass", name := "valve" }] }

/-- The batch of a registry with the usual stems and ids. -/
def batchOf (r : Registry) : Batch :=
  lowerAll r (.ofTexts "" "") { hash := Digest.XxHash.hash } .never

theorem pumpHouse_files :
    (batchOf pumpHouse).hasFailed = false ∧
      ((assemble {} (batchOf pumpHouse).units).map (·.name)).Nodup ∧
      ({} : Layout).AllStored (assemble {} (batchOf pumpHouse).units) ∧
      AllRead (assemble {} (batchOf pumpHouse).units) := by
  have hbatch : (batchOf pumpHouse).hasFailed = false := by decide +kernel
  have hfiles := lowerAll_files hbatch {}
  have hidents : ((pumpHouse.classifiers.filter isEligible).map fun c => ident c.name).Nodup := by
    decide +kernel
  have hconstants :
      ((pumpHouse.classifiers.filter isEligible).map fun c => constantName c.name).Nodup := by
    decide +kernel
  exact ⟨hbatch, hfiles.names.2 hidents, hfiles.stored.2 hidents, hfiles.read.2 hconstants⟩

/-- The first pump is lost in the store without an error.  The valves are stored, but only one of
    them is read. -/
theorem pump_lost_and_valve_hidden :
    ((batchOf twoPumpHouse).hasFailed = false ∧
      ¬ ((assemble {} (batchOf twoPumpHouse).units).map (·.name)).Nodup ∧
      (({ overwrites := true } : Layout).writtenFiles
        (assemble { overwrites := true } (batchOf twoPumpHouse).units)).failure = none ∧
      ¬ ({ overwrites := true } : Layout).AllStored
        (assemble { overwrites := true } (batchOf twoPumpHouse).units)) ∧
    (batchOf twoValveHouse).hasFailed = false ∧
      ((assemble {} (batchOf twoValveHouse).units).map (·.name)).Nodup ∧
      ¬ ((headers (assemble {} (batchOf twoValveHouse).units)).map fun f =>
        guardOf? f.content).Nodup ∧
      ¬ AllRead (assemble {} (batchOf twoValveHouse).units) := by
  have hpumps : ¬ ((batchOf twoPumpHouse).units.map (·.name)).Nodup := by decide +kernel
  have hvalves : ¬ ((batchOf twoValveHouse).units.map fun u => constantName u.name).Nodup := by
    decide +kernel
  refine ⟨⟨by decide +kernel, ?_, ?_, ?_⟩, by decide +kernel, ?_, ?_, ?_⟩
  · rw [assemble_names_nodup_iff]
    exact hpumps
  · exact (writeFiles_memory {} [] fun f hf => key_not_blank hf).1.2 (Or.inl rfl)
  · rw [Layout.allStored_iff fun f hf => key_not_blank hf, keys_nodup_iff, assemble_names_nodup_iff]
    exact hpumps
  · rw [assemble_names_nodup_iff]
    decide +kernel
  · rw [assemble_guards_nodup_iff]
    exact hvalves
  · rw [allRead_iff]
    exact hvalves

end Artifact

end ObjectLowering
