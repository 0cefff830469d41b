/-
  Stores in a directory where all that is named like a sidecar is one.

  * `InOrder`: below the root, whatever is named like a sidecar describes a file
    beside it.  Runs keep it so (`inOrder_answerAll`).
  * `InOrder.readInfos_without`: without the sidecar of a key, a listing lacks
    this key alone.
-/
import ObjectLowering.Proofs.SameStores

namespace ObjectLowering

namespace Text

section
variable {α : Type} (key : α → String)

/-- An item goes behind those with smaller keys. -/
theorem sortByKey_cons (a : α) (l : List α) : ∃ front back,
    sortByKey key (a :: l) = front ++ a :: back ∧ sortByKey key l = front ++ back ∧
      (∀ b ∈ front, ¬ key a ≤ key b) ∧ ∀ b ∈ back, key a ≤ key b := by
  have htrans : ∀ a b c : α, decide (key a ≤ key b) = true → decide (key b ≤ key c) = true →
      decide (key a ≤ key c) = true := by
    intro a b c hab hbc
    rw [decide_eq_true_iff] at *
    exact String.le_trans hab hbc
  have htotal : ∀ a b : α, (decide (key a ≤ key b) || decide (key b ≤ key a)) = true := by
    intro a b
    simpa using String.le_total (key a) (key b)
  obtain ⟨front, back, hsorted, hrest, hfront⟩ := List.mergeSort_cons htrans htotal a l
  refine ⟨front, back, hsorted, hrest, fun b hb => by simpa using hfront b hb, fun b hb => ?_⟩
  have hpairwise := List.pairwise_mergeSort htrans htotal (a :: l)
  rw [hsorted, List.pairwise_append, List.pairwise_cons] at hpairwise
  simpa using hpairwise.2.1.1 b hb

/-- The items that pass a test are sorted as they are among all items. -/
theorem sortByKey_filter (f : α → Bool) (items : List α) :
    sortByKey key (items.filter f) = (sortByKey key items).filter f := by
  induction items with
  | nil => simp [sortByKey]
  | cons a l ih =>
    obtain ⟨front, back, hsorted, hrest, hfront, hback⟩ := sortByKey_cons key a l
    rw [hrest, List.filter_append] at ih
    rw [hsorted, List.filter_append]
    by_cases ha : f a = true
    · rw [List.filter_cons_of_pos ha, List.filter_cons_of_pos ha]
      obtain ⟨front', back', hsorted', hrest', hfront', hback'⟩ :=
        sortByKey_cons key a (l.filter f)
      -- both ways the items are parted by the key
      have hpart : ∀ xs ys : List α, (∀ b ∈ xs, ¬ key a ≤ key b) → (∀ b ∈ ys, key a ≤ key b) →
          (xs ++ ys).filter (fun b => !decide (key a ≤ key b)) = xs := by
        intro xs ys hxs hys
        have hkept : xs.filter (fun b => !decide (key a ≤ key b)) = xs :=
          List.filter_eq_self.2 fun b hb => by rw [decide_eq_false (hxs b hb), Bool.not_false]
        have hnone : ys.filter (fun b => !decide (key a ≤ key b)) = [] :=
          List.filter_eq_nil_iff.2 fun b hb => by simp only [decide_eq_true (hys b hb)]; decide
        rw [List.filter_append, hkept, hnone, List.append_nil]
      have hsame := hrest'.symm.trans ih
      have hfronts : front' = front.filter f := by
        rw [← hpart front' back' hfront' hback', hsame]
        exact hpart _ _ (fun b hb => hfront b (List.mem_of_mem_filter hb))
          fun b hb => hback b (List.mem_of_mem_filter hb)
      rw [hfronts, List.append_cancel_left_eq] at hsame
      rw [hsorted', hfronts, hsame]
    · rw [List.filter_cons_of_neg ha, List.filter_cons_of_neg ha, ih]

end

end Text

namespace Artifact

open Files Text

namespace DirectoryStore

variable {s : DirectoryStore} {key name : String} {folder root : Location} {p : Places}
  {files files' : Workspace}

/-! ## Stores in order -/

/-- A root that is at or above two names in one folder is at or above the folder. -/
theorem above_folder {a b : String} (ha : root <+: folder ++ [a]) (hb : root <+: folder ++ [b])
    (hne : a ≠ b) : root <+: folder := by
  rcases List.prefix_concat_iff.1 ha with rfl | ha
  · have he := hb.eq_of_length (by simp)
    exact absurd (by simpa using he) hne
  · exact ha

/-- What is named like a sidecar describes a file beside it, which is not named like one. -/
structure InOrder (root : Location) (files : Workspace) : Prop where
  tree : files.IsTree
  described : ∀ folder name c, root <+: folder ++ [name] →
    files.node? (folder ++ [name ++ sidecarEnding]) = some (.file c) →
      c.sidecar?.isSome = true ∧ files.isFile (folder ++ [name]) = true ∧
        (root <+: folder → ∀ other, name ≠ other ++ sidecarEnding)

theorem Spot.ne_sidecar (h : Spot root folder name) {folder' : Location} {name' : String}
    (habove : root <+: folder' ++ [name']) :
    folder' ++ [name' ++ sidecarEnding] ≠ folder ++ [name] := by
  intro he
  obtain ⟨rfl, hname⟩ := List.append_inj' he rfl
  have hname := (List.cons.inj hname).1
  have hinside := h.inside
  rw [← hname] at hinside
  have hfolder := above_folder habove hinside (name_ne_sidecar name')
  exact h.not_sidecar hfolder name' hname.symm

theorem isFile_set {q a : Location} {c : Content} (hq : q ≠ []) (ha : files.isFile a = true) :
    (files.set q (.file c)).isFile a = true := by
  rw [Tree.isFile, Tree.node?_set hq]
  split_ifs
  · rfl
  · exact ha

theorem inOrder_makeDirectory {q : Location} (h : InOrder root files)
    (hq : ∀ x ∈ q, Path.IsFileName x) (hmade : files.makeDirectory q = .ok files') :
    InOrder root files' := by
  refine ⟨h.tree.makeDirectory hq hmade, fun folder name c habove hfile => ?_⟩
  have hbefore : ∀ a d, files'.node? a = some (.file d) ↔ files.node? a = some (.file d) :=
    fun a d => Tree.file_makeDirectory hmade
  obtain ⟨hsidecar, hisFile, hname⟩ := h.described folder name c habove ((hbefore _ _).1 hfile)
  refine ⟨hsidecar, ?_, hname⟩
  obtain ⟨d, hd⟩ := Tree.isFile_iff.1 hisFile
  exact Tree.isFile_iff.2 ⟨d, (hbefore _ _).2 hd⟩

/-- What is cleared away is gone when nothing is below. -/
theorem node?_cleared_empty {q : Location} (h : files.IsTree) (hne : q ≠ [])
    (hempty : ∀ a, isBelow a q = true → files.node? a = none) :
    (cleared files true q).node? q = none := by
  rcases node?_cleared files true q q with hsame | ⟨-, hnone⟩
  · by_contra hstands
    obtain ⟨removed, hremove⟩ := h.remove_iff.2 ⟨hne, hsame ▸ hstands, hempty⟩
    rw [cleared, if_pos rfl, hremove] at hstands
    exact hstands ((Tree.node?_remove hremove q).trans (if_pos rfl))
  · exact hnone

theorem node?_cleared_file {q : Location} {c : Content} (h : files.IsTree)
    (hq : files.node? q = some (.file c)) : (cleared files true q).node? q = none := by
  refine node?_cleared_empty h ?_ fun a ha => h.below (by simp [hq]) ha
  rintro rfl
  cases hq

/-- A file goes, and then what describes it. -/
theorem inOrder_remove {f₀ : Location} {n₀ : String} {removed : Workspace} (h : InOrder root files)
    (hspot : Spot root f₀ n₀) (hremove : files.remove (f₀ ++ [n₀]) = .ok removed) :
    InOrder root (cleared removed true (f₀ ++ [n₀ ++ sidecarEnding])) := by
  refine ⟨isTree_move h.tree (.remove hspot hremove), ?_⟩
  intro folder name c habove hfile
  have hremoved := h.tree.remove hremove
  have hkept : ∀ a d, (cleared removed true (f₀ ++ [n₀ ++ sidecarEnding])).node? a =
      some (.file d) → removed.node? a = some (.file d) := by
    intro a d ha
    rcases node?_cleared removed true (f₀ ++ [n₀ ++ sidecarEnding]) a with hsame | ⟨-, hnone⟩
    · rw [← hsame, ha]
    · rw [hnone] at ha
      cases ha
  have hthere := hkept _ _ hfile
  rw [Tree.node?_remove hremove] at hthere
  split_ifs at hthere
  obtain ⟨hsidecar, hisFile, hname⟩ := h.described folder name c habove hthere
  -- the file of the sidecar is neither what was removed nor the sidecar of it
  have hdata : folder ++ [name] ≠ f₀ ++ [n₀] := by
    intro he
    obtain ⟨rfl, hn⟩ := List.append_inj' he rfl
    obtain rfl := (List.cons.inj hn).1
    rw [node?_cleared_file hremoved (hkept _ _ hfile)] at hfile
    cases hfile
  have hdescription : folder ++ [name] ≠ f₀ ++ [n₀ ++ sidecarEnding] := by
    intro he
    obtain ⟨rfl, hn⟩ := List.append_inj' he rfl
    obtain rfl := (List.cons.inj hn).1
    exact hname (above_folder hspot.inside habove (name_ne_sidecar n₀)) n₀ rfl
  refine ⟨hsidecar, ?_, hname⟩
  rw [Tree.isFile, (node?_cleared removed true _ _).resolve_right fun h => hdescription h.1,
    Tree.node?_remove hremove, if_neg hdata]
  exact hisFile

theorem inOrder_move (h : InOrder root files) (hm : Move root files files') :
    InOrder root files' := by
  refine ⟨isTree_move h.tree hm, ?_⟩
  cases hm with
  | @way f₀ n₀ _ hspot hmade =>
    exact (inOrder_makeDirectory h (fun x hx => hspot.names x (by simp [hx])) hmade).described
  | @write f₀ n₀ b content hspot hway hfree =>
    intro folder name c habove hfile
    rw [node?_written, if_neg (hspot.ne_sidecar habove)] at hfile
    obtain ⟨hsidecar, hisFile, hname⟩ := h.described folder name c habove hfile
    refine ⟨hsidecar, ?_, hname⟩
    rw [Tree.isFile, node?_written]
    split_ifs
    · rfl
    · exact hisFile
  | @describe f₀ n₀ x hspot hdata hway hfree =>
    intro folder name c habove hfile
    rw [Tree.node?_set (by simp)] at hfile
    split_ifs at hfile with he
    · obtain ⟨rfl, hname⟩ := List.append_inj' he rfl
      obtain rfl := (String.append_left_inj _).1 (List.cons.inj hname).1
      cases hfile
      exact ⟨rfl, isFile_set (by simp) hdata, fun hfolder => hspot.not_sidecar hfolder⟩
    · obtain ⟨hsidecar, hisFile, hname⟩ := h.described folder name c habove hfile
      exact ⟨hsidecar, isFile_set (by simp) hisFile, hname⟩
  | @remove f₀ n₀ removed hspot hremove => exact (inOrder_remove h hspot hremove).described

/-- **Runs keep a store in order.** -/
theorem inOrder_answerAll (h : InOrder (locationOf s.root) s.files) (as : List Access) :
    InOrder (locationOf s.root) (s.answerAll as).1.files :=
  (answerAll_induction (fun hfiles hm => inOrder_move hfiles hm) as h).2

/-! ## Listings -/

/-- A key is that of one way only: that of its names, with a sidecar at the end. -/
theorem keyOfSidecar?_iff {way before : Location} {last : String} (hne : way ≠ [])
    (hway : ∀ x ∈ way, '/' ∉ x.toList) (hnames : ∀ x ∈ before ++ [last], '/' ∉ x.toList) :
    keyOfSidecar? way = some (String.intercalate "/" (before ++ [last])) ↔
      way = before ++ [last ++ sidecarEnding] := by
  have hconcat : String.intercalate "/" (before ++ [last]) ++ sidecarEnding =
      String.intercalate "/" (before ++ [last ++ sidecarEnding]) := by
    rw [Path.intercalate_concat, Path.intercalate_concat, String.append_assoc]
  have hsidecar : ∀ x ∈ before ++ [last ++ sidecarEnding], '/' ∉ x.toList := by
    intro x hx
    rcases List.mem_append.1 hx with hx | hx
    · exact hnames x (by simp [hx])
    · rw [List.mem_singleton.1 hx]
      exact (isFileName_sidecar (hnames last (by simp))).slash
  rw [keyOfSidecar?_eq_some, hconcat]
  refine ⟨fun h => ?_, fun h => by rw [h]⟩
  rw [← Path.splitOn_intercalate hway hne, h, Path.splitOn_intercalate hsidecar (by simp)]

/-- Below the root, all sidecars can be read. -/
theorem InOrder.readable (h : InOrder root files) {x : Location × Content}
    (hx : x ∈ sidecarsBelow files root) : x.2.sidecar?.isSome = true := by
  obtain ⟨hne, hkey, hnode⟩ := (mem_sidecarsBelow h.tree).1 hx
  obtain ⟨before, name, hway⟩ := eq_concat_of_keyOfSidecar? hne hkey
  rw [hway, ← List.append_assoc] at hnode
  have habove : root <+: root ++ before ++ [name] := by
    rw [List.append_assoc]
    exact List.prefix_append ..
  exact (h.described _ name x.2 habove hnode).1

/-- The sidecar of a key is the one that is listed under it. -/
theorem InOrder.key_iff {path clean : String} (h : InOrder (locationOf path) files)
    (hkey : storageKey key = .ok clean) (hdata : (placesOf path clean).data ≠ [])
    {x : Location × Content} (hx : x ∈ sidecarsBelow files (locationOf path)) :
    keyOfSidecar? x.1 = some clean ↔ locationOf path ++ x.1 = (placesOf path clean).sidecar := by
  obtain ⟨hne, -, hnode⟩ := (mem_sidecarsBelow h.tree).1 hx
  have hway : ∀ y ∈ x.1, '/' ∉ y.toList := fun y hy =>
    (h.tree.names (locationOf path ++ x.1) (by simp [hnode]) y (by simp [hy])).slash
  have hstorage := isStorageKey hkey
  by_cases hdot : clean = "."
  · subst hdot
    rw [data_dot hstorage] at hdata
    obtain ⟨folder, last, hplaces, hroot⟩ := placesOf_dot hstorage hdata
    -- nothing below the root is listed as the root
    refine iff_of_false (fun he => ?_) fun he => ?_
    · have hway' : x.1 = [] ++ ["." ++ sidecarEnding] :=
        (keyOfSidecar?_iff hne hway (by decide)).1 he
      rw [hway', ← List.append_assoc, List.append_nil] at hnode
      have hfile := (h.described _ "." x.2 (List.prefix_append ..) hnode).2.1
      obtain ⟨c, hc⟩ := Tree.isFile_iff.1 hfile
      exact (h.tree.names (locationOf path ++ ["."]) (by simp [hc]) "." (by simp)).ne_dot rfl
    · have hlength := congrArg List.length he
      rw [hplaces, hroot] at hlength
      exact hne (List.length_eq_zero_iff.1 (by simpa [placesIn] using hlength))
  · obtain ⟨before, last, hsegments, hplaces⟩ := hstorage.placesOf_eq hdot path
    have htext := storageKey_text hkey hdot
    have hnames : ∀ y ∈ before ++ [last], '/' ∉ y.toList := fun y hy =>
      (hstorage.areNames y (hsegments ▸ hy)).slash
    rw [htext, hsegments, keyOfSidecar?_iff hne hway hnames, ← hsegments, ← htext, hplaces,
      placesIn]
    dsimp only
    rw [List.append_assoc, List.append_cancel_left_eq]

/-- The descriptions of keys whose sidecars can be read. -/
def infos (s : DirectoryStore) (found : List (String × Content)) : List Info :=
  found.filterMap fun x => x.2.sidecar?.map fun y => y.info x.1 (s.url x.1)

theorem readInfos_ok {found : List (String × Content)}
    (h : ∀ x ∈ found, x.2.sidecar?.isSome = true) :
    s.readInfos found = .ok (sortByKey (·.key) (s.infos found)) := by
  have hmap : found.mapM s.readInfo = .ok (s.infos found) := by
    induction found with
    | nil => rfl
    | cons x found ih =>
      obtain ⟨y, hy⟩ := Option.isSome_iff_exists.1 (h x List.mem_cons_self)
      have hinfos : s.infos (x :: found) = y.info x.1 (s.url x.1) :: s.infos found := by
        rw [infos, List.filterMap_cons, hy]
        rfl
      rw [List.mapM_cons, ih fun z hz => h z (List.mem_cons_of_mem _ hz), readInfo, hy, hinfos]
      rfl
  rw [readInfos, hmap]
  rfl

/-- A listing without some keys. -/
theorem readInfos_filter {found : List (String × Content)}
    (h : ∀ x ∈ found, x.2.sidecar?.isSome = true) (f : String → Bool) :
    s.readInfos (found.filter fun x => f x.1) =
      (s.readInfos found).map fun infos => infos.filter fun info => f info.key := by
  have hinfos : s.infos (found.filter fun x => f x.1) =
      (s.infos found).filter fun info => f info.key := by
    rw [infos, infos, List.filterMap_filter, List.filter_filterMap]
    refine List.filterMap_congr fun x hx => ?_
    obtain ⟨y, hy⟩ := Option.isSome_iff_exists.1 (h x hx)
    simp only [hy, Option.map_some, Option.filter]
    rfl
  rw [readInfos_ok h, readInfos_ok fun x hx => h x (List.mem_of_mem_filter hx), hinfos,
    sortByKey_filter]
  rfl

/-- Without the sidecar of a key, the key is not listed, and all others are. -/
theorem InOrder.readInfos_without {clean : String} (h : InOrder (locationOf s.root) s.files)
    (hkey : storageKey key = .ok clean) (hdata : (placesOf s.root clean).data ≠ [])
    (front : String) :
    s.readInfos (keysOf front ((sidecarsBelow s.files (locationOf s.root)).filter fun x =>
        locationOf s.root ++ x.1 != (placesOf s.root clean).sidecar)) =
      (s.readInfos (keysOf front (sidecarsBelow s.files (locationOf s.root)))).map
        fun infos => infos.filter fun info => info.key != clean := by
  have hreadable : ∀ x ∈ keysOf front (sidecarsBelow s.files (locationOf s.root)),
      x.2.sidecar?.isSome = true := by
    intro x hx
    obtain ⟨y, hy, hyx⟩ := List.mem_filterMap.1 hx
    obtain ⟨k, -, rfl⟩ := Option.map_eq_some_iff.1 hyx
    exact h.readable hy
  rw [← readInfos_filter hreadable fun k => k != clean, keysOf, keysOf, List.filterMap_filter,
    List.filter_filterMap]
  refine congrArg _ (List.filterMap_congr fun x hx => ?_)
  have hiff := h.key_iff hkey hdata hx
  cases hk : keyOfSidecar? x.1 with
  | none =>
    rw [Option.filter_none, Option.map_none, ite_self]
    rfl
  | some k =>
    have hsame : (locationOf s.root ++ x.1 != (placesOf s.root clean).sidecar) = (k != clean) := by
      rw [hk, Option.some_inj] at hiff
      rw [Bool.eq_iff_iff, bne_iff_ne, bne_iff_ne, Ne, Ne, hiff]
    rw [hsame]
    by_cases hfront : startsWith k front = true
    · rw [Option.filter_some, if_pos hfront]
      rfl
    · rw [Option.filter_some, if_neg hfront, Option.map_none, ite_self]
      rfl

end DirectoryStore

end Artifact

end ObjectLowering
