/-
  Paths and the keys of files below a root.

  * `segments_clean`: cleaning a path keeps its segments.
  * `segments_join`: a path that never climbs goes on from where it starts.
  * `Layout.IsAccepted.places`: the files of a layout are kept in one directory
    below the root, each beside its sidecar, when the layout has a folder that
    the store accepts.
-/
import ObjectLowering.Proofs.FileNames

namespace ObjectLowering

/-! ## Patterns in texts -/

namespace Text

theorem afterFront?_isSome {front cs : List Char} :
    (afterFront? front cs).isSome ↔ front <+: cs := by
  induction front generalizing cs with
  | nil => simp [afterFront?]
  | cons p front ih =>
    cases cs with
    | nil => simp [afterFront?]
    | cons c cs =>
      rw [afterFront?, List.cons_prefix_cons]
      split_ifs with h
      · simp [h, ih]
      · simp [h]

theorem cutFirst?_isSome {pattern cs : List Char} :
    (cutFirst? pattern cs).isSome ↔ pattern <:+: cs := by
  induction cs with
  | nil => simp [cutFirst?]
  | cons c cs ih =>
    have hfront : (afterFront? pattern (c :: cs)).isSome ↔ pattern <+: c :: cs :=
      afterFront?_isSome
    rw [cutFirst?, List.infix_cons_iff, ← hfront, ← ih]
    cases afterFront? pattern (c :: cs) <;> simp

theorem holds_iff {s pattern : String} : holds s pattern = true ↔ pattern.toList <:+: s.toList :=
  cutFirst?_isSome

theorem startsWith_iff {s front : String} :
    startsWith s front = true ↔ front.toList <+: s.toList :=
  afterFront?_isSome

theorem endsWith_iff {s tail : String} : endsWith s tail = true ↔ tail.toList <:+ s.toList := by
  rw [endsWith, afterFront?_isSome, List.reverse_prefix]

theorem startsWith_append (a b : String) : startsWith (a ++ b) a = true := by
  rw [startsWith_iff, String.toList_append]
  exact List.prefix_append _ _

theorem endsWith_append (a b : String) : endsWith (a ++ b) b = true := by
  rw [endsWith_iff, String.toList_append]
  exact List.suffix_append _ _

/-- What does not hold a character is found on one side of it. -/
theorem infix_around {pattern a b : List Char} {c : Char} (hc : c ∉ pattern) :
    pattern <:+: a ++ c :: b ↔ pattern <:+: a ∨ pattern <:+: b := by
  have hempty : ∀ {front : List Char}, (∀ x ∈ front, x ∈ pattern) → front <+: c :: b →
      front = [] := by
    intro front hfront hstarts
    cases front with
    | nil => rfl
    | cons x front =>
      obtain ⟨rfl, -⟩ := List.cons_prefix_cons.1 hstarts
      exact absurd (hfront x List.mem_cons_self) hc
  rw [List.infix_append_iff, List.infix_cons_iff]
  constructor
  · rintro (h | (h | h) | ⟨front, rest, rfl, hfront, hrest⟩)
    · exact Or.inl h
    · rw [hempty (fun x hx => hx) h]
      exact Or.inl (List.nil_infix ..)
    · exact Or.inr h
    · rw [hempty (fun x hx => List.mem_append_right _ hx) hrest, List.append_nil]
      exact Or.inl hfront.isInfix
  · rintro (h | h)
    · exact Or.inl h
    · exact Or.inr (Or.inl (Or.inr h))

end Text

/-! ## Segments -/

namespace Text.Path

variable {path root rest name x : String} {rooted : Bool}

/-- A path is a name, or a name in front of a slash and a path. -/
theorem slash_induction {P : String → Prop} (hname : ∀ a, '/' ∉ a.toList → P a)
    (hslash : ∀ a b, '/' ∉ a.toList → P b → P (a ++ "/" ++ b)) (path : String) : P path := by
  induction hn : path.toList.length using Nat.strong_induction_on generalizing path with
  | _ n ih =>
    by_cases h : '/' ∈ path.toList
    · obtain ⟨a, b, hsplit, ha⟩ := List.eq_append_cons_of_mem h
      have hpath : path = String.ofList a ++ "/" ++ String.ofList b :=
        String.toList_inj.1 (by simp [hsplit])
      have hlength : b.length < n := by
        rw [← hn, hsplit]
        simp
        omega
      rw [hpath]
      exact hslash _ _ (by simpa using ha) (ih _ hlength _ (by simp))
    · exact hname path h

theorem splitOn_of_not_mem (h : '/' ∉ path.toList) : splitOn '/' path = [path] := by
  have hpath : ∀ c ∈ path.toList, (c == '/') = false := fun c hc =>
    beq_false_of_ne fun he => h (he ▸ hc)
  rw [splitOn, List.splitOn, List.splitOnP_eq_singleton hpath, List.map_singleton,
    String.ofList_toList]

theorem slash_not_mem_of_mem_splitOn (h : x ∈ splitOn '/' path) : '/' ∉ x.toList := by
  induction path using slash_induction with
  | hname a ha =>
    rw [splitOn_of_not_mem ha, List.mem_singleton] at h
    exact h ▸ ha
  | hslash a b ha ih =>
    rw [splitOn_slash, splitOn_of_not_mem ha, List.singleton_append, List.mem_cons] at h
    rcases h with rfl | h
    · exact ha
    · exact ih h

/-- What holds no slash is found in a path iff it is found between two slashes. -/
theorem infix_iff_splitOn {pattern : List Char} (hpattern : '/' ∉ pattern) :
    pattern <:+: path.toList ↔ ∃ x ∈ splitOn '/' path, pattern <:+: x.toList := by
  induction path using slash_induction with
  | hname a ha => simp [splitOn_of_not_mem ha]
  | hslash a b ha ih =>
    have htext : (a ++ "/" ++ b).toList = a.toList ++ '/' :: b.toList := by simp
    rw [splitOn_slash, splitOn_of_not_mem ha, htext, infix_around hpattern, ih]
    simp

theorem dots_not_mem (h : ¬ "..".toList <:+: path.toList) : ".." ∉ splitOn '/' path := fun hmem =>
  h ((infix_iff_splitOn (by decide)).2 ⟨_, hmem, List.infix_refl _⟩)

/-- A segment that stays in a cleaned path. -/
def isKept (x : String) : Bool := x != "" && x != "."

/-- Segments that never climb are added one by one. -/
theorem foldl_addSegment {xs : List String} (h : ".." ∉ xs) (cleaned : List String) :
    xs.foldl (addSegment rooted) cleaned = (xs.filter isKept).reverse ++ cleaned := by
  induction xs generalizing cleaned with
  | nil => rfl
  | cons x xs ih =>
    obtain ⟨hx, hxs⟩ := List.ne_and_not_mem_of_not_mem_cons h
    rw [List.foldl_cons, ih hxs, List.filter_cons]
    unfold addSegment
    by_cases hkept : x = "" ∨ x = "."
    · have : isKept x = false := by rcases hkept with rfl | rfl <;> rfl
      rw [if_pos hkept, this]
      rfl
    · have : isKept x = true := by simpa [isKept] using hkept
      rw [if_neg hkept, if_neg hx.symm, this]
      simp

theorem segments_of_not_mem (h : ".." ∉ splitOn '/' path) :
    segments path = (splitOn '/' path).filter isKept := by
  rw [segments, foldl_addSegment h, List.append_nil, List.reverse_reverse]

theorem mem_splitOn_of_mem_segments (h : ".." ∉ splitOn '/' path) (hx : x ∈ segments path) :
    x ∈ splitOn '/' path := by
  rw [segments_of_not_mem h] at hx
  exact List.mem_of_mem_filter hx

theorem IsFileName.segments_eq (h : IsFileName name) : segments name = [name] := by
  have hsegments : segments ("" ++ name) = segments "" ++ [name] := segments_front (Or.inl rfl) h
  rwa [String.empty_append] at hsegments

theorem isRooted_slash (hroot : root ≠ "") (rest : String) :
    isRooted (root ++ "/" ++ rest) = isRooted root := by
  have hne : root.toList ≠ [] := fun he => hroot (String.toList_eq_nil_iff.1 he)
  rw [isRooted, isRooted, String.append_assoc, String.toList_append,
    List.head?_append_of_ne_nil _ hne]

/-- A path that never climbs goes on from where it starts. -/
theorem segments_join (hroot : root ≠ "") (h : ".." ∉ splitOn '/' rest) :
    segments (root ++ "/" ++ rest) = segments root ++ segments rest := by
  rw [segments_of_not_mem h, segments, isRooted_slash hroot rest, splitOn_slash, List.foldl_append,
    foldl_addSegment h, List.reverse_append, List.reverse_reverse, segments]

/-! ## Cleaned paths -/

/-- Cleaned segments, last first: names, and steps up before them where there is no root. -/
def IsCleaned (rooted : Bool) (cleaned : List String) : Prop :=
  ∃ names n, cleaned = names ++ List.replicate n ".." ∧ (∀ x ∈ names, IsFileName x) ∧
    (rooted = true → n = 0)

theorem IsCleaned.addSegment {cleaned : List String} (h : IsCleaned rooted cleaned)
    (hx : '/' ∉ x.toList) : IsCleaned rooted (addSegment rooted cleaned x) := by
  obtain ⟨names, n, rfl, hnames, hn⟩ := h
  unfold Path.addSegment
  by_cases hskip : x = "" ∨ x = "."
  · rw [if_pos hskip]
    exact ⟨names, n, rfl, hnames, hn⟩
  rw [if_neg hskip]
  by_cases hup : x = ".."
  · rw [if_pos hup]
    cases names with
    | nil =>
      cases n with
      | zero =>
        cases rooted with
        | true => exact ⟨[], 0, rfl, by simp, fun _ => rfl⟩
        | false => exact ⟨[], 1, rfl, by simp, nofun⟩
      | succ n => exact ⟨[], n + 2, rfl, by simp, fun h => absurd (hn h) (by simp)⟩
    | cons y names =>
      have hy := (hnames y List.mem_cons_self).ne_dots
      simp only [List.cons_append, if_neg hy]
      exact ⟨names, n, rfl, fun z hz => hnames z (List.mem_cons_of_mem _ hz), hn⟩
  · rw [if_neg hup]
    obtain ⟨hempty, hdot⟩ := not_or.1 hskip
    refine ⟨x :: names, n, rfl, fun z hz => ?_, hn⟩
    rcases List.mem_cons.1 hz with rfl | hz
    · exact ⟨hx, hempty, hdot, hup⟩
    · exact hnames z hz

theorem isCleaned_segments (path : String) : IsCleaned (isRooted path) (segments path).reverse := by
  have hfold : ∀ (xs cleaned : List String), (∀ x ∈ xs, '/' ∉ x.toList) →
      IsCleaned (isRooted path) cleaned →
      IsCleaned (isRooted path) (xs.foldl (Path.addSegment (isRooted path)) cleaned) := by
    intro xs
    induction xs with
    | nil => exact fun cleaned _ h => h
    | cons x xs ih =>
      intro cleaned hxs h
      exact ih _ (fun y hy => hxs y (List.mem_cons_of_mem _ hy))
        (h.addSegment (hxs x List.mem_cons_self))
  rw [segments, List.reverse_reverse]
  exact hfold _ [] (fun x hx => slash_not_mem_of_mem_splitOn hx) ⟨[], 0, rfl, by simp, fun _ => rfl⟩

theorem IsCleaned.slash {cleaned : List String} (h : IsCleaned rooted cleaned) (hx : x ∈ cleaned) :
    '/' ∉ x.toList ∧ x ≠ "" := by
  obtain ⟨names, n, rfl, hnames, -⟩ := h
  rcases List.mem_append.1 hx with hx | hx
  · exact ⟨(hnames x hx).slash, (hnames x hx).ne_empty⟩
  · rw [List.eq_of_mem_replicate hx]
    decide

/-- Cleaned segments are kept as they are. -/
theorem IsCleaned.foldl {cleaned : List String} (h : IsCleaned rooted cleaned) :
    cleaned.reverse.foldl (Path.addSegment rooted) [] = cleaned := by
  obtain ⟨names, n, rfl, hnames, hn⟩ := h
  have hups :
      (List.replicate n "..").foldl (Path.addSegment rooted) [] = List.replicate n ".." := by
    cases rooted with
    | true => rw [hn rfl]; rfl
    | false =>
      clear hn
      induction n with
      | zero => rfl
      | succ n ih =>
        rw [List.replicate_succ', List.foldl_append, ih, ← List.replicate_succ']
        cases n <;> rfl
  have hdots : ".." ∉ names.reverse := fun hmem => (hnames _ (List.mem_reverse.1 hmem)).ne_dots rfl
  have hkept : names.reverse.filter isKept = names.reverse := by
    refine List.filter_eq_self.2 fun x hx => ?_
    have hx := hnames x (List.mem_reverse.1 hx)
    simp [isKept, hx.ne_empty, hx.ne_dot]
  rw [List.reverse_append, List.reverse_replicate, List.foldl_append, hups, foldl_addSegment hdots,
    hkept, List.reverse_reverse]

theorem splitOn_intercalate {xs : List String} (hxs : ∀ x ∈ xs, '/' ∉ x.toList) (hne : xs ≠ []) :
    splitOn '/' (String.intercalate "/" xs) = xs := by
  induction xs with
  | nil => exact absurd rfl hne
  | cons x xs ih =>
    have hx := splitOn_of_not_mem (hxs x List.mem_cons_self)
    cases xs with
    | nil => simpa using hx
    | cons y ys =>
      rw [String.intercalate_cons_cons, splitOn_slash, hx,
        ih (fun z hz => hxs z (List.mem_cons_of_mem _ hz)) (by simp)]
      rfl

theorem isRooted_ofSegments {xs : List String} (h : IsCleaned rooted xs.reverse) :
    isRooted (ofSegments rooted xs) = rooted := by
  cases xs with
  | nil => cases rooted <;> rfl
  | cons x xs =>
    rw [ofSegments, if_neg (by simp)]
    cases rooted with
    | true => simp [isRooted]
    | false =>
      obtain ⟨hslash, hne⟩ := h.slash (List.mem_reverse.2 List.mem_cons_self)
      obtain ⟨c, cs, hcs⟩ := List.exists_cons_of_ne_nil (mt String.toList_eq_nil_iff.1 hne)
      have hc : c ≠ '/' := by
        rintro rfl
        exact hslash (by simp [hcs])
      cases xs <;> simp [isRooted, String.intercalate_cons_cons, hcs, hc]

theorem segments_ofSegments {xs : List String} (h : IsCleaned rooted xs.reverse) :
    segments (ofSegments rooted xs) = xs := by
  have hfold := h.foldl
  rw [List.reverse_reverse] at hfold
  rw [segments, isRooted_ofSegments h]
  cases xs with
  | nil => cases rooted <;> rfl
  | cons x xs =>
    have hsplit : splitOn '/' (String.intercalate "/" (x :: xs)) = x :: xs :=
      splitOn_intercalate (fun y hy => (h.slash (List.mem_reverse.2 hy)).1) (by simp)
    rw [ofSegments, if_neg (by simp)]
    cases rooted with
    | true =>
      have hslash := splitOn_slash "" (String.intercalate "/" (x :: xs))
      rw [String.empty_append] at hslash
      rw [if_pos rfl, hslash, hsplit, List.foldl_append, show
        (splitOn '/' "").foldl (Path.addSegment true) [] = [] from rfl, hfold, List.reverse_reverse]
    | false =>
      rw [if_neg (by decide), String.empty_append, hsplit, hfold, List.reverse_reverse]

/-- Cleaning a path keeps its segments. -/
theorem segments_clean (path : String) : segments (clean path) = segments path :=
  segments_ofSegments (isCleaned_segments path)

theorem splitOn_clean (hrooted : isRooted path = false) (hne : segments path ≠ []) :
    splitOn '/' (clean path) = segments path := by
  have hslash : ∀ x ∈ segments path, '/' ∉ x.toList := fun x hx =>
    ((isCleaned_segments path).slash (List.mem_reverse.2 hx)).1
  rw [clean, ofSegments, hrooted, if_neg (by simpa using hne), if_neg (by decide),
    String.empty_append, splitOn_intercalate hslash hne]

theorem isRooted_clean (path : String) : isRooted (clean path) = isRooted path :=
  isRooted_ofSegments (isCleaned_segments path)

end Text.Path

/-! ## Keys below a root -/

namespace Artifact

open Files Text

/-- The name of a file that can be stored in any folder. -/
structure IsStorable (name : String) : Prop extends IsArtifactName name where
  nonblank : isBlankText name = false
  dots : ¬ "..".toList <:+: name.toList

/-- The store accepts a folder, or there is none. -/
def Layout.IsAccepted (l : Layout) : Prop := l.folder = "" ∨ ∃ key, storageKey l.folder = .ok key

section
variable {l : Layout} {name : String}

theorem storageKey_eq_ok {key clean : String} : storageKey key = .ok clean ↔
    isBlankText key = false ∧ ¬ "..".toList <:+: key.toList ∧ Path.isRooted key = false ∧
      ¬ sidecarEnding.toList <:+ (Path.clean key).toList ∧ clean = Path.clean key := by
  have hrooted : startsWith key "/" = Path.isRooted key := by
    rw [Bool.eq_iff_iff, startsWith_iff, Path.isRooted, beq_iff_eq]
    cases key.toList <;> simp [List.cons_prefix_cons, eq_comm]
  rw [← holds_iff, ← endsWith_iff, ← hrooted]
  unfold storageKey
  split_ifs with hblank hdots hslash hend
  · simp [hblank]
  · simp [hdots]
  · simp [hslash]
  · simp [hend]
  · rw [Except.ok.injEq]
    constructor
    · exact fun h => ⟨Bool.eq_false_iff.2 hblank, hdots, Bool.eq_false_iff.2 hslash, hend, h.symm⟩
    · exact fun h => h.2.2.2.2.symm

theorem not_suffix_of_ne {front : String} (h : ∀ other, name ≠ other ++ sidecarEnding)
    (hfront : Path.IsFront front) : ¬ sidecarEnding.toList <:+ (front ++ name).toList := by
  rintro ⟨before, hbefore⟩
  rw [String.toList_append] at hbefore
  -- the name is not as long as the ending, else it would be the name of a sidecar
  rcases List.append_eq_append_iff.1 hbefore with ⟨more, hmore, hending⟩ | ⟨more, hmore, hending⟩
  · rcases hfront with rfl | ⟨path, rfl⟩
    · obtain ⟨rfl, rfl⟩ := List.append_eq_nil_iff.1 (by simpa using hmore.symm)
      exact h "" (String.toList_inj.1 (by simpa using hending.symm))
    · rcases List.eq_nil_or_concat more with rfl | ⟨more, c, rfl⟩
      · exact h "" (String.toList_inj.1 (by simpa using hending.symm))
      · have hc : c = '/' := by
          have hlast := congrArg List.getLast? hmore
          simpa [String.toList_append] using hlast.symm
        have hmem : c ∈ sidecarEnding.toList := by simp [hending]
        rw [hc] at hmem
        exact absurd hmem (by decide)
  · refine h (String.ofList more) (String.toList_inj.1 ?_)
    simpa using hending

theorem IsArtifactName.not_suffix {front : String} (h : IsArtifactName name)
    (hfront : Path.IsFront front) : ¬ sidecarEnding.toList <:+ (front ++ name).toList :=
  not_suffix_of_ne h.ne_sidecar hfront

/-- The folder of a layout neither climbs nor starts at the root. -/
theorem Layout.IsAccepted.folder (h : l.IsAccepted) :
    ¬ "..".toList <:+: l.folder.toList ∧ Path.isRooted l.folder = false := by
  rcases h with h | ⟨key, h⟩
  · rw [h]
    decide
  · obtain ⟨-, hdots, hrooted, -⟩ := storageKey_eq_ok.1 h
    exact ⟨hdots, hrooted⟩

/-- The key of a name has the segments of the folder in front of the name. -/
theorem Layout.IsAccepted.key (h : l.IsAccepted) (hname : Path.IsFileName name) :
    Path.isRooted (l.key name) = false ∧
      Path.segments (l.key name) = Path.segments l.folder ++ [name] ∧
      splitOn '/' (l.key name) = Path.segments l.folder ++ [name] := by
  obtain ⟨-, hrelative⟩ := h.folder
  rw [Layout.key]
  split_ifs with hfolder
  · have hrooted : Path.isRooted ("" ++ name) = Path.isRooted "" :=
      Path.isRooted_front (Or.inl rfl) hname
    rw [String.empty_append] at hrooted
    rw [hfolder]
    exact ⟨hrooted, hname.segments_eq, hname.splitOn_eq⟩
  · have hdots : ".." ∉ splitOn '/' name := by
      rw [hname.splitOn_eq, List.mem_singleton]
      exact hname.ne_dots.symm
    have hsegments := Path.segments_join hfolder hdots
    rw [hname.segments_eq] at hsegments
    have hrooted : Path.isRooted (l.folder ++ "/" ++ name) = false := by
      rw [← hrelative]
      exact Path.isRooted_slash hfolder name
    have hjoin : Path.join l.folder name = Path.clean (l.folder ++ "/" ++ name) := by
      rw [Path.join, if_neg fun he => hfolder he.1, if_neg hfolder, if_neg hname.ne_empty]
    rw [hjoin, Path.isRooted_clean, Path.segments_clean,
      Path.splitOn_clean hrooted (by simp [hsegments])]
    exact ⟨hrooted, hsegments, hsegments⟩

/-- The keys of files that can be stored are accepted. -/
theorem Layout.IsAccepted.storageKey (h : l.IsAccepted) (hname : IsStorable name) :
    storageKey (l.key name) = .ok (Path.clean (l.key name)) := by
  obtain ⟨hrooted, -, hsplit⟩ := h.key hname.toIsFileName
  obtain ⟨front, hfront, hkey⟩ := l.key_eq
  obtain ⟨front', hfront', hclean⟩ := Path.clean_front hfront
  refine storageKey_eq_ok.2 ⟨?_, ?_, hrooted, ?_, rfl⟩
  · obtain ⟨c, hc, hblank⟩ := List.all_eq_false.1 hname.nonblank
    refine List.all_eq_false.2 ⟨c, ?_, hblank⟩
    rw [hkey name hname.toIsFileName, String.toList_append]
    exact List.mem_append_right _ hc
  · rw [Path.infix_iff_splitOn (by decide), hsplit]
    rintro ⟨x, hx, hdots⟩
    rcases List.mem_append.1 hx with hx | hx
    · have hfolder := h.folder.1
      exact hfolder ((Path.infix_iff_splitOn (by decide)).2
        ⟨x, Path.mem_splitOn_of_mem_segments (Path.dots_not_mem hfolder) hx, hdots⟩)
    · rw [List.mem_singleton.1 hx] at hdots
      exact hname.dots hdots
  · rw [hkey name hname.toIsFileName, hclean name hname.toIsFileName]
    exact hname.not_suffix hfront'

/-- The files of a layout are kept in one directory below the root. -/
theorem Layout.IsAccepted.places (h : l.IsAccepted) (hname : IsStorable name) {d : DirectoryStore}
    (hroot : d.root ≠ "") : d.places (l.key name) =
      .ok (DirectoryStore.placesIn (locationOf d.root ++ Path.segments l.folder) name) := by
  obtain ⟨front, hfront, hkey⟩ := l.key_eq
  obtain ⟨folder, hfolder⟩ := d.exists_folder hfront
  have hplaces : d.places (l.key name) = .ok (placesOf d.root (Path.clean (l.key name))) := by
    rw [DirectoryStore.places, h.storageKey hname]
    rfl
  have hin : placesOf d.root (Path.clean (l.key name)) = DirectoryStore.placesIn folder name := by
    refine hfolder name _ hname.toIsFileName ?_
    rw [← hkey name hname.toIsFileName, hplaces]
  obtain ⟨hrooted, hsegments, -⟩ := h.key hname.toIsFileName
  have hdots : ".." ∉ Path.segments l.folder ++ [name] := by
    rw [List.mem_append, List.mem_singleton]
    rintro (hmem | hmem)
    · have hfolder := Path.dots_not_mem h.folder.1
      exact hfolder (Path.mem_splitOn_of_mem_segments hfolder hmem)
    · exact hname.ne_dots hmem.symm
  have hclean : splitOn '/' (Path.clean (l.key name)) = Path.segments l.folder ++ [name] := by
    rw [Path.splitOn_clean hrooted (by simp [hsegments]), hsegments]
  have hne : Path.clean (l.key name) ≠ "" := by
    intro he
    have hempty := Path.segments_clean (l.key name)
    rw [he, hsegments] at hempty
    exact absurd hempty.symm (by simp [Path.segments, splitOn, Path.addSegment])
  have hdata : (placesOf d.root (Path.clean (l.key name))).data =
      locationOf d.root ++ Path.segments l.folder ++ [name] := by
    have hkept : (Path.segments l.folder ++ [name]).filter (· != "..") =
        Path.segments l.folder ++ [name] := by
      refine List.filter_eq_self.2 fun x hx => bne_iff_ne.2 ?_
      rintro rfl
      exact hdots hx
    rw [placesOf, Path.join, if_neg fun he => hroot he.1, if_neg hroot, if_neg hne]
    simp only [locationOf]
    rw [Path.segments_clean, Path.segments_join hroot (hclean ▸ hdots), Path.segments_clean,
      hsegments, List.filter_append, hkept, List.append_assoc]
  rw [hin, DirectoryStore.placesIn] at hdata
  rw [hplaces, hin, (List.append_inj' hdata rfl).1]

end

end Artifact

end ObjectLowering
