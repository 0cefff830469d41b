/-
  The paths and places of keys.

  * `isStorageKey`: a key that is accepted leads from the root of a store
    through names.
  * `storageKey_paths`: both its paths lie below the root, unless the key stands
    for the root.
  * `data_ne_sidecar`: no artifact is kept where one has its sidecar.
-/
import ObjectLowering.Proofs.StoreTwins

namespace ObjectLowering

/-! ## Paths below a directory -/

namespace Text.Path

/-- A path goes on from a directory, through names only and at least one. -/
def IsInside (root path : String) : Prop :=
  isRooted path = isRooted root ∧ ∃ names, names ≠ [] ∧ (∀ x ∈ names, IsFileName x) ∧
    segments path = segments root ++ names

section
variable {path root rest last : String} {before : List String}

theorem isFileName_of_mem_segments (hdots : ".." ∉ splitOn '/' path) {x : String}
    (hx : x ∈ segments path) : IsFileName x := by
  have hsplit := mem_splitOn_of_mem_segments hdots hx
  rw [segments_of_not_mem hdots, List.mem_filter, isKept, Bool.and_eq_true, bne_iff_ne,
    bne_iff_ne] at hx
  exact ⟨slash_not_mem_of_mem_splitOn hsplit, hx.2.1, hx.2.2, fun he => hdots (he ▸ hsplit)⟩

/-- A cleaned path ends with its last segment. -/
theorem clean_concat (h : segments path = before ++ [last]) :
    ∃ front, IsFront front ∧ clean path = front ++ last := by
  refine ⟨_, isFront_join (isRooted path) before, ?_⟩
  rw [clean, h, ofSegments, if_neg (by simp), intercalate_concat, String.append_assoc]

theorem clean_front_of_segments (h : segments path = before ++ [last]) (hlast : IsFileName last) :
    ∃ front, IsFront front ∧ clean path = front ++ last ∧ segments front = before ∧
      isRooted front = isRooted path := by
  obtain ⟨front, hfront, hclean⟩ := clean_concat h
  have hsegments := segments_front hfront hlast
  have hrooted := isRooted_front hfront hlast
  rw [← hclean, segments_clean, h] at hsegments
  rw [← hclean, isRooted_clean] at hrooted
  exact ⟨front, hfront, hclean, (List.append_inj' hsegments rfl).1.symm, hrooted.symm⟩

/-- A path that neither climbs nor starts at the root goes on from a directory. -/
theorem join_eq_clean (hrooted : isRooted rest = false) (hdots : ".." ∉ splitOn '/' rest)
    (hne : rest ≠ "") (root : String) :
    ∃ path, join root rest = clean path ∧ segments path = segments root ++ segments rest ∧
      isRooted path = isRooted root := by
  rw [join, if_neg fun he => hne he.2, if_neg hne]
  split_ifs with hroot
  · rw [hroot]
    exact ⟨rest, rfl, rfl, hrooted⟩
  · exact ⟨_, rfl, segments_join hroot hdots, isRooted_slash hroot rest⟩

end

end Text.Path

namespace Artifact

open Files Text
open DirectoryStore (placesIn isFileName_sidecar)

/-! ## The paths of a key -/

section
variable {key clean key' clean' root name : String}

/-- A key that is accepted leads from the root through names, none for the root itself. -/
structure IsStorageKey (clean : String) : Prop where
  areNames : ∀ x ∈ Path.segments clean, Path.IsFileName x
  eq_dot : Path.segments clean = [] → clean = "."
  join : ∀ root, ∃ path, Path.join root clean = Path.clean path ∧
    Path.segments path = Path.segments root ++ Path.segments clean ∧
      Path.isRooted path = Path.isRooted root
  not_sidecar : ∀ before name, Path.segments clean ≠ before ++ [name ++ sidecarEnding]

theorem isStorageKey (h : storageKey key = .ok clean) : IsStorageKey clean := by
  obtain ⟨-, hdots, hrooted, hending, rfl⟩ := storageKey_eq_ok.1 h
  have hsegments := Path.segments_clean key
  have hempty : Path.segments key = [] → Path.clean key = "." := fun he => by
    rw [Path.clean, he, hrooted]
    rfl
  have hsplit : ".." ∉ splitOn '/' (Path.clean key) := by
    by_cases he : Path.segments key = []
    · rw [hempty he]
      decide
    · rw [Path.splitOn_clean hrooted he]
      exact fun hmem =>
        Path.dots_not_mem hdots (Path.mem_splitOn_of_mem_segments (Path.dots_not_mem hdots) hmem)
  have hne : Path.clean key ≠ "" := by
    intro he
    have hnone : Path.segments key = [] := by
      rw [← hsegments, he]
      rfl
    rw [hempty hnone] at he
    exact absurd he (by decide)
  refine ⟨fun x hx => Path.isFileName_of_mem_segments hsplit hx, fun he => hempty (hsegments ▸ he),
    Path.join_eq_clean (by rw [Path.isRooted_clean, hrooted]) hsplit hne, ?_⟩
  intro before name he
  obtain ⟨front, -, hclean⟩ := Path.clean_concat (hsegments ▸ he)
  rw [hclean, ← String.append_assoc, String.toList_append] at hending
  exact hending (List.suffix_append _ _)

/-- A key that does not stand for the root leads to a name in some directory. -/
theorem IsStorageKey.front (h : IsStorageKey clean) (hne : clean ≠ ".") (root : String) :
    ∃ front before last, Path.IsFront front ∧ Path.segments clean = before ++ [last] ∧
      Path.IsFileName last ∧ Path.join root clean = front ++ last ∧
        Path.segments front = Path.segments root ++ before ∧
          Path.isRooted front = Path.isRooted root := by
  obtain ⟨path, hjoin, hsegments, hrooted⟩ := h.join root
  rcases List.eq_nil_or_concat (Path.segments clean) with he | ⟨before, last, he⟩
  · exact absurd (h.eq_dot he) hne
  rw [List.concat_eq_append] at he
  have hlast := h.areNames last (by simp [he])
  rw [he, ← List.append_assoc] at hsegments
  obtain ⟨front, hfront, hclean, hbefore, hsame⟩ := Path.clean_front_of_segments hsegments hlast
  exact ⟨front, before, last, hfront, he, hlast, hjoin.trans hclean, hbefore, hsame.trans hrooted⟩

theorem IsStorageKey.isInside (h : IsStorageKey clean) (hne : clean ≠ ".") (root : String) :
    Path.IsInside root (Path.join root clean) ∧
      Path.IsInside root (Path.join root clean ++ sidecarEnding) := by
  obtain ⟨front, before, last, hfront, hnames, hlast, hjoin, hsegments, hrooted⟩ :=
    h.front hne root
  have hbefore : ∀ x ∈ before, Path.IsFileName x := fun x hx => h.areNames x (by simp [hnames, hx])
  have hinside : ∀ name, Path.IsFileName name → Path.IsInside root (front ++ name) := by
    intro name hname
    refine ⟨by rw [Path.isRooted_front hfront hname, hrooted], before ++ [name], by simp, ?_, ?_⟩
    · intro x hx
      rcases List.mem_append.1 hx with hx | hx
      · exact hbefore x hx
      · exact List.mem_singleton.1 hx ▸ hname
    · rw [Path.segments_front hfront hname, hsegments, List.append_assoc]
  rw [hjoin, String.append_assoc]
  exact ⟨hinside _ hlast, hinside _ (isFileName_sidecar hlast.slash)⟩

/-- The key of the root leads nowhere else. -/
theorem not_isInside_dot (root : String) (h : IsStorageKey ".") :
    ¬ Path.IsInside root (Path.join root ".") := by
  rintro ⟨-, names, hnames, -, hsegments⟩
  obtain ⟨path, hjoin, hpath, -⟩ := h.join root
  have hroot : Path.segments (Path.join root ".") = Path.segments root := by
    rw [hjoin, Path.segments_clean, hpath]
    exact List.append_nil _
  rw [hroot] at hsegments
  exact hnames (List.self_eq_append_right.1 hsegments)

/-- **Both paths of a key lie below the root**, unless it stands for the root. -/
theorem storageKey_paths (h : storageKey key = .ok clean) (root : String) :
    (Path.IsInside root (Path.join root clean) ∧
      Path.IsInside root (Path.join root clean ++ sidecarEnding)) ↔ clean ≠ "." := by
  refine ⟨?_, fun hne => (isStorageKey h).isInside hne root⟩
  rintro ⟨hinside, -⟩ rfl
  exact not_isInside_dot root (isStorageKey h) hinside

/-! ## The places of a key -/

theorem IsStorageKey.placesOf_eq (h : IsStorageKey clean) (hne : clean ≠ ".") (root : String) :
    ∃ before last, Path.segments clean = before ++ [last] ∧
      placesOf root clean = placesIn (locationOf root ++ before) last := by
  obtain ⟨front, before, last, hfront, hnames, hlast, hjoin, hsegments, -⟩ := h.front hne root
  have hbefore : before.filter (· != "..") = before := List.filter_eq_self.2 fun x hx => by
    simpa using (h.areNames x (by simp [hnames, hx])).ne_dots
  have hfolder : locationOf front = locationOf root ++ before := by
    rw [locationOf, locationOf, hsegments, List.filter_append, hbefore]
  refine ⟨before, last, hnames, ?_⟩
  rw [Artifact.placesOf, hjoin, String.append_assoc, Path.locationOf_front hfront hlast,
    Path.locationOf_front hfront (isFileName_sidecar hlast.slash), hfolder, placesIn]

theorem IsStorageKey.placesOf (h : IsStorageKey clean) (hne : clean ≠ ".") (root : String) :
    ∃ folder before last, placesOf root clean = placesIn folder last ∧
      locationOf root <+: folder ∧ Path.segments clean = before ++ [last] := by
  obtain ⟨before, last, hnames, hplaces⟩ := h.placesOf_eq hne root
  exact ⟨_, before, last, hplaces, List.prefix_append .., hnames⟩

/-- A root that is not the root of all files has a name of its own. -/
theorem segments_of_locationOf (h : locationOf root ≠ []) :
    ∃ before last, Path.segments root = before ++ [last] ∧ Path.IsFileName last := by
  obtain ⟨names, n, hcleaned, hnames, -⟩ := Path.isCleaned_segments root
  rw [List.reverse_eq_iff] at hcleaned
  cases names with
  | nil =>
    refine absurd ?_ h
    rw [locationOf, hcleaned]
    simp
  | cons last names =>
    refine ⟨(names ++ List.replicate n "..").reverse, last, ?_, hnames last List.mem_cons_self⟩
    rw [hcleaned, List.cons_append, List.reverse_cons]

/-- The key of the root stands for the root, with a sidecar beside it. -/
theorem placesOf_dot (h : IsStorageKey ".") (hroot : locationOf root ≠ []) :
    ∃ folder last, placesOf root "." = placesIn folder last ∧
      locationOf root = folder ++ [last] := by
  obtain ⟨before, last, hsegments, hlast⟩ := segments_of_locationOf hroot
  obtain ⟨path, hjoin, hpath, -⟩ := h.join root
  have hsame : Path.segments path = Path.segments root := hpath.trans (List.append_nil _)
  obtain ⟨front, hfront, hclean, -⟩ :=
    Path.clean_front_of_segments (hsame.trans hsegments) hlast
  have hdata := Path.locationOf_front hfront hlast
  refine ⟨locationOf front, last, ?_, ?_⟩
  · rw [placesOf, hjoin, hclean, String.append_assoc, hdata,
      Path.locationOf_front hfront (isFileName_sidecar hlast.slash), placesIn]
  · rw [← hdata, ← hclean, locationOf, locationOf, Path.segments_clean, hsame]

theorem data_dot (h : IsStorageKey ".") (root : String) :
    (placesOf root ".").data = locationOf root := by
  obtain ⟨path, hjoin, hpath, -⟩ := h.join root
  rw [placesOf, hjoin]
  dsimp only
  rw [locationOf, locationOf, Path.segments_clean, hpath]
  exact congrArg _ (List.append_nil _)

theorem data_placesOf (h : IsStorageKey clean) (root : String) :
    (placesOf root clean).data = locationOf root ++ Path.segments clean := by
  by_cases hdot : clean = "."
  · subst hdot
    exact (data_dot h root).trans (List.append_nil _).symm
  · obtain ⟨before, last, hsegments, hplaces⟩ := h.placesOf_eq hdot root
    rw [hplaces, hsegments, ← List.append_assoc]
    rfl

/-- The name of a sidecar goes on from the last name on the way to its file, or from nothing that
    could be the name of a file. -/
theorem IsStorageKey.sidecar_cases (h : IsStorageKey clean) (root : String) :
    ∃ path, Path.segments path = Path.segments root ++ Path.segments clean ∧
      ∃ before name, (Artifact.placesOf root clean).sidecar = before ++ [name ++ sidecarEnding] ∧
        ((Path.segments path = [] ∧ ¬ Path.IsFileName name) ∨ name ∈ Path.segments path) := by
  obtain ⟨path, hjoin, hsegments, -⟩ := h.join root
  have hsidecar : (Artifact.placesOf root clean).sidecar =
      locationOf (Path.clean path ++ sidecarEnding) := by
    rw [← hjoin]
    rfl
  refine ⟨path, hsegments, ?_⟩
  rw [hsidecar]
  rcases List.eq_nil_or_concat (Path.segments path) with he | ⟨before, last, he⟩
  · rw [Path.clean, he]
    cases Path.isRooted path
    · exact ⟨[], ".", by decide, Or.inl ⟨rfl, fun hname => hname.ne_dot rfl⟩⟩
    · exact ⟨[], "", by decide, Or.inl ⟨rfl, fun hname => hname.ne_empty rfl⟩⟩
  · rw [List.concat_eq_append] at he
    obtain ⟨front, hfront, hclean⟩ := Path.clean_concat he
    have hslash := ((Path.isCleaned_segments path).slash (x := last) (by simp [he])).1
    refine ⟨locationOf front, last, ?_, Or.inr (by simp [he])⟩
    rw [hclean, String.append_assoc, Path.locationOf_front hfront (isFileName_sidecar hslash)]

theorem sidecar_placesOf (h : IsStorageKey clean) (root : String) :
    ∃ before name, (placesOf root clean).sidecar = before ++ [name ++ sidecarEnding] := by
  obtain ⟨-, -, before, name, hsidecar, -⟩ := h.sidecar_cases root
  exact ⟨before, name, hsidecar⟩

/-- The root of all files has a sidecar that no file below it could have. -/
theorem sidecar_nowhere (h : IsStorageKey ".") (hroot : locationOf root = []) :
    ∃ before name, (placesOf root ".").sidecar = before ++ [name ++ sidecarEnding] ∧
      ¬ Path.IsFileName name := by
  obtain ⟨path, hpath, before, name, hsidecar, hname⟩ := h.sidecar_cases root
  refine ⟨before, name, hsidecar, ?_⟩
  rcases hname with ⟨-, hname⟩ | hmem
  · exact hname
  · -- only steps upwards lead to the root of all files
    rw [hpath, show Path.segments "." = [] from rfl, List.append_nil] at hmem
    intro hname
    have hkept : name ∈ locationOf root := List.mem_filter.2 ⟨hmem, by simpa using hname.ne_dots⟩
    rw [hroot] at hkept
    cases hkept

/-- A key that is accepted consists of the names that it leads through. -/
theorem storageKey_text (h : storageKey key = .ok clean) (hne : clean ≠ ".") :
    clean = String.intercalate "/" (Path.segments clean) := by
  have hnonempty : Path.segments clean ≠ [] := fun he => hne ((isStorageKey h).eq_dot he)
  obtain ⟨-, -, hrooted, -, rfl⟩ := storageKey_eq_ok.1 h
  rw [Path.segments_clean] at hnonempty ⊢
  rw [Path.clean, Path.ofSegments, hrooted, if_neg (by simpa using hnonempty), if_neg (by decide),
    String.empty_append]

/-- Different keys lead to different places. -/
theorem data_injective (hkey : storageKey key = .ok clean) (hkey' : storageKey key' = .ok clean')
    (h : (placesOf root clean').data = (placesOf root clean).data) : clean' = clean := by
  rw [data_placesOf (isStorageKey hkey), data_placesOf (isStorageKey hkey'),
    List.append_cancel_left_eq] at h
  by_cases hdot : clean = "."
  · subst hdot
    exact (isStorageKey hkey').eq_dot h
  by_cases hdot' : clean' = "."
  · subst hdot'
    exact ((isStorageKey hkey).eq_dot h.symm).symm
  rw [storageKey_text hkey hdot, storageKey_text hkey' hdot', h]

/-- **No artifact is kept where one has its sidecar.** -/
theorem data_ne_sidecar (h : IsStorageKey clean) (h' : IsStorageKey clean') (root : String) :
    (placesOf root clean).data ≠ (placesOf root clean').sidecar := by
  intro he
  obtain ⟨before, name, hsidecar⟩ := sidecar_placesOf h' root
  by_cases hdot : clean = "."
  · subst hdot
    rw [data_dot h] at he
    by_cases hdot' : clean' = "."
    · -- the root has a name, which would end like a sidecar
      subst hdot'
      have hnamed : locationOf root ≠ [] := by
        rw [he, hsidecar]
        simp
      obtain ⟨folder, last, hplaces, hroot⟩ := placesOf_dot h hnamed
      rw [hplaces, hroot] at he
      exact DirectoryStore.name_ne_sidecar last (by simpa [placesIn] using he)
    · -- the sidecar lies below the root
      obtain ⟨folder, -, last, hplaces, hbelow, -⟩ := h'.placesOf hdot' root
      rw [hplaces] at he
      rw [he] at hbelow
      exact not_prefix_of_mem _ hbelow
  · -- the last name of a key does not end like a sidecar
    obtain ⟨folder, front, last, hplaces, -, hnames⟩ := h.placesOf hdot root
    rw [hplaces, hsidecar] at he
    obtain ⟨-, hlast⟩ := List.append_inj' he rfl
    rw [(List.cons.inj hlast).1] at hnames
    exact h.not_sidecar _ _ hnames

/-- Keys that stand for the root consist of dots and slashes, in between which nothing is named. -/
theorem storageKey_eq_dot : storageKey key = .ok "." ↔
    isBlankText key = false ∧ Path.isRooted key = false ∧
      ∀ x ∈ splitOn '/' key, x = "" ∨ x = "." := by
  rw [storageKey_eq_ok]
  constructor
  · rintro ⟨hblank, hdots, hrooted, -, hclean⟩
    have hempty : Path.segments key = [] := by
      rw [← Path.segments_clean, ← hclean]
      rfl
    rw [Path.segments_of_not_mem (Path.dots_not_mem hdots), List.filter_eq_nil_iff] at hempty
    refine ⟨hblank, hrooted, fun x hx => ?_⟩
    simpa [Path.isKept, or_iff_not_imp_left] using hempty x hx
  · rintro ⟨hblank, hrooted, hall⟩
    have hdots : ¬ "..".toList <:+: key.toList := by
      rw [Path.infix_iff_splitOn (by decide)]
      rintro ⟨x, hx, hinfix⟩
      rcases hall x hx with rfl | rfl
      · exact absurd hinfix.length_le (by decide)
      · exact absurd hinfix.length_le (by decide)
    have hempty : Path.segments key = [] := by
      rw [Path.segments_of_not_mem (Path.dots_not_mem hdots), List.filter_eq_nil_iff]
      intro x hx
      rcases hall x hx with rfl | rfl <;> decide
    have hclean : Path.clean key = "." := by
      rw [Path.clean, hempty, hrooted]
      rfl
    rw [hclean]
    exact ⟨hblank, hdots, hrooted, by decide, rfl⟩

end

end Artifact

end ObjectLowering
