/-
  Deleting from a store in a directory.

  * `without`: what a deletion leaves.
  * `delete_answer`: what is described can be deleted, and so can what is taken
    for an artifact: a file without a sidecar, an empty directory.
  * `deletion`: what a deletion answers, and what it does to other keys and to
    listings, now and later.
-/
import ObjectLowering.Proofs.StoreOrder

namespace ObjectLowering

namespace Artifact

open Files Text

namespace DirectoryStore

variable {s : DirectoryStore} {key name : String} {folder root : Location} {p : Places}
  {files files' : Workspace}

/-! ## What a deletion leaves -/

/-- Files without an artifact: its file is gone, and so is its sidecar, unless a directory with
    something in it stands there. -/
structure Without (files files' : Workspace) (p : Places) : Prop where
  data : files'.node? p.data = none
  sidecar : (∀ q, isBelow q p.sidecar = true → files.node? q = none) →
    files'.node? p.sidecar = none
  kept : ∀ q, isBelow q p.sidecar = true → files.node? q ≠ none →
    files'.node? p.sidecar = some .directory
  others : ∀ q, q ≠ p.data → q ≠ p.sidecar → files'.node? q = files.node? q

theorem without {removed : Workspace} (h : files.IsTree)
    (hremove : files.remove (folder ++ [name]) = .ok removed) :
    Without files (cleared removed true (folder ++ [name ++ sidecarEnding]))
      (placesIn folder name) := by
  have hgone := Tree.node?_remove hremove
  have hcleared := node?_cleared removed true (folder ++ [name ++ sidecarEnding])
  have hbelow : ∀ q, isBelow q (folder ++ [name ++ sidecarEnding]) = true →
      removed.node? q = files.node? q := by
    intro q hq
    rw [hgone, if_neg]
    rintro rfl
    obtain ⟨habove, hne⟩ := isBelow_iff.1 hq
    exact hne (habove.eq_of_length (by simp)).symm
  refine ⟨?_, fun hempty => ?_, fun q hq hstands => ?_, fun q hdata hsidecar => ?_⟩
  · change (cleared removed true _).node? (folder ++ [name]) = none
    rcases hcleared (folder ++ [name]) with hsame | ⟨-, hnone⟩
    · rw [hsame, hgone, if_pos rfl]
    · exact hnone
  · exact node?_cleared_empty (h.remove hremove) (by simp) fun q hq =>
      (hbelow q hq).trans (hempty q hq)
  · obtain ⟨habove, hne⟩ := isBelow_iff.1 hq
    change (cleared removed true _).node? (folder ++ [name ++ sidecarEnding]) = _
    rw [cleared, if_pos rfl]
    cases hagain : removed.remove (folder ++ [name ++ sidecarEnding]) with
    | ok removed' =>
      have hempty := (Tree.remove_ok hagain).2.2.1 q hq
      rw [hbelow q hq] at hempty
      exact absurd hempty hstands
    | error f =>
      change removed.node? _ = _
      rw [hgone, if_neg (by simpa using (name_ne_sidecar name).symm)]
      exact h.above hstands habove hne.symm
  · rw [(hcleared q).resolve_right fun hq => hsidecar hq.1, hgone]
    exact if_neg hdata

/-- Only the sidecar of the artifact is no longer among the sidecars. -/
theorem sidecarsBelow_without {removed : Workspace} (h : files.IsTree)
    (hspot : Spot root folder name) (hremove : files.remove (folder ++ [name]) = .ok removed) :
    sidecarsBelow (cleared removed true (folder ++ [name ++ sidecarEnding])) root =
      (sidecarsBelow files root).filter fun x =>
        root ++ x.1 != folder ++ [name ++ sidecarEnding] := by
  have hdata : sidecarsBelow removed root = sidecarsBelow files root := by
    obtain ⟨-, -, -, rfl⟩ := Tree.remove_ok hremove
    rw [sidecarsBelow_filter, List.filter_eq_self]
    exact fun x hx => bne_iff_ne.2 (hspot.ne_way h hx)
  rw [cleared, if_pos rfl, ← hdata]
  cases hagain : removed.remove (folder ++ [name ++ sidecarEnding]) with
  | ok removed' =>
    obtain ⟨-, -, -, rfl⟩ := Tree.remove_ok hagain
    exact sidecarsBelow_filter removed.nodes _
  | error f =>
    have hremoved := h.remove hremove
    refine (List.filter_eq_self.2 fun x hx => ?_).symm
    obtain ⟨-, -, hnode⟩ := (mem_sidecarsBelow hremoved).1 hx
    rw [bne_iff_ne]
    intro he
    -- a sidecar that is there can be removed
    rw [he] at hnode
    obtain ⟨removed', hok⟩ := hremoved.remove_file hnode
    rw [hok] at hagain
    cases hagain

/-- A file that is taken away with an artifact stands above a location. -/
def IsCovered (files : Workspace) (p : Places) (q : Location) : Prop :=
  ∃ a, (a = p.data ∨ a = p.sidecar) ∧ isBelow q a = true ∧ files.isFile a = true

namespace Without

variable {q : Location}

theorem not_isFile (h : Without files files' p) (hq : q = p.data ∨ q = p.sidecar) :
    files'.isFile q = false := by
  rcases hq with rfl | rfl
  · simp [Tree.isFile, h.data]
  · by_cases hempty : ∀ a, isBelow a p.sidecar = true → files.node? a = none
    · simp [Tree.isFile, h.sidecar hempty]
    · push Not at hempty
      obtain ⟨a, ha, hstands⟩ := hempty
      simp [Tree.isFile, h.kept a ha hstands]

theorem isFile_eq (h : Without files files' p)
    (hq : q = p.data ∨ q = p.sidecar → files.isFile q = false) :
    files'.isFile q = files.isFile q := by
  by_cases hplace : q = p.data ∨ q = p.sidecar
  · rw [h.not_isFile hplace, hq hplace]
  · rw [not_or] at hplace
    rw [Tree.isFile, Tree.isFile, h.others q hplace.1 hplace.2]

theorem read_eq (h : Without files files' p) (hdata : q ≠ p.data) (hsidecar : q ≠ p.sidecar)
    (hfree : ¬ IsCovered files p q) : files'.read q = files.read q := by
  rw [Tree.read, Tree.read, Tree.status_congr _ (h.others q hdata hsidecar)]
  intro a ha
  refine h.isFile_eq fun hplace => Bool.eq_false_iff.2 fun hfile => ?_
  exact hfree ⟨a, hplace, isBelow_iff.2 ⟨(mem_ancestors.1 ha).1, (mem_ancestors.1 ha).2.symm⟩,
    hfile⟩

/-- Below a file that is taken away, there was an obstruction, and there is nothing now. -/
theorem read_covered (h : Without files files' p) (htree : files.IsTree)
    (hcovered : IsCovered files p q) :
    files.read q = .error .obstructed ∧ files'.read q = .error .missing := by
  obtain ⟨a, hplace, hbelow, hfile⟩ := hcovered
  obtain ⟨habove, hne⟩ := isBelow_iff.1 hbelow
  obtain ⟨c, hc⟩ := Tree.isFile_iff.1 hfile
  have hdirectory : files.node? a ≠ some .directory := by simp [hc]
  have hsame : ∀ x, files.node? x = none → files'.node? x = none := by
    intro x hx
    by_cases hdata : x = p.data
    · exact hdata ▸ h.data
    by_cases hsidecar : x = p.sidecar
    · subst hsidecar
      exact h.sidecar fun b hb => htree.below (by simp [hx]) hb
    · rw [h.others x hdata hsidecar, hx]
  constructor
  · have hway : (ancestors q).any files.isFile = true :=
      List.any_eq_true.2 ⟨a, mem_ancestors.2 ⟨habove, hne.symm⟩, hfile⟩
    rw [Tree.read, Tree.status, if_pos hway]
  · have hfree : ∀ x, x <+: q → x ≠ q → files'.isFile x = false := by
      intro x hx _
      by_cases hxa : x = a
      · exact h.not_isFile (hxa ▸ hplace)
      rcases List.prefix_or_prefix_of_prefix hx habove with hup | hdown
      · have hup' := htree.above (by simp [hc]) hup hxa
        rw [h.isFile_eq fun _ => Tree.isFile_of_directory hup', Tree.isFile_of_directory hup']
      · rw [Tree.isFile, hsame x (htree.below hdirectory (isBelow_iff.2 ⟨hdown, hxa⟩))]
    rw [Tree.read, Tree.status_of_free hfree, hsame q (htree.below hdirectory hbelow)]

end Without

/-! ## Deletions -/

section
variable {clean key' clean' path : String}

/-- The places of different keys are apart. -/
structure ApartFrom (p' p : Places) : Prop where
  data : p'.data ≠ p.data
  data_sidecar : p'.data ≠ p.sidecar
  sidecar_data : p'.sidecar ≠ p.data
  sidecar : p'.sidecar ≠ p.sidecar

theorem apartFrom (hkey : storageKey key = .ok clean) (hkey' : storageKey key' = .ok clean')
    (hne : clean' ≠ clean) (hplaces : placesOf s.root clean = placesIn folder name)
    (hspot : Spot (locationOf s.root) folder name) :
    ApartFrom (placesOf s.root clean') (placesOf s.root clean) := by
  have hdata : (placesOf s.root clean').data ≠ (placesOf s.root clean).data := fun he =>
    hne (data_injective hkey hkey' he)
  refine ⟨hdata, data_ne_sidecar (isStorageKey hkey') (isStorageKey hkey) _,
    (data_ne_sidecar (isStorageKey hkey) (isStorageKey hkey') _).symm, ?_⟩
  rw [hplaces] at hdata ⊢
  rcases spot_cases (places_ok hkey' s) with ⟨-, hdot, hroot⟩ | ⟨folder', name', hplaces', -⟩
  · obtain rfl : clean' = "." := Except.ok.inj (hkey'.symm.trans hdot)
    obtain ⟨before, other, hsidecar, hother⟩ := sidecar_nowhere (isStorageKey hkey') hroot
    rw [hsidecar]
    intro he
    have hlast := (List.cons.inj (List.append_inj' he rfl).2).1
    obtain rfl := (String.append_left_inj _).1 hlast
    exact hother (hspot.names other (by simp))
  · rw [hplaces'] at hdata ⊢
    intro he
    obtain ⟨hfolder, hlast⟩ := List.append_inj' he rfl
    have hname := (String.append_left_inj _).1 (List.cons.inj hlast).1
    exact hdata (by rw [hfolder, hname])

/-- What is taken for an artifact although none is there: a file that is not described, or an empty
    directory. -/
def IsStray (files : Workspace) (p : Places) : Prop :=
  (files.isFile p.data = true ∧ files.isFile p.sidecar = false) ∨
    (p.data ≠ [] ∧ files.node? p.data = some .directory ∧
      ∀ q, isBelow q p.data = true → files.node? q = none)

/-- A place that a deletion has no effect on: it is neither at nor above what is removed, nor below
    a file that is. -/
structure IsAside (files : Workspace) (p : Places) (q : Location) : Prop where
  data : ¬ q <+: p.data
  sidecar : ¬ q <+: p.sidecar
  free : ¬ IsCovered files p q

/-- What deleting does. -/
structure Deletion (s : DirectoryStore) (key clean : String) : Prop where
  /-- There was an artifact, or something that is taken for one. -/
  answer : (s.delete key).2 = .ok true ↔
    (∃ info, s.head key = .ok info) ∨ IsStray s.files (placesOf s.root clean)
  /-- If not, nothing happens. -/
  unchanged : (s.delete key).2 ≠ .ok true → (s.delete key).1 = s
  /-- What was deleted is not found any more. -/
  gone : (s.delete key).2 = .ok true →
    (∀ q, isBelow q (placesOf s.root clean).sidecar = true → s.files.node? q = none) →
      (s.delete key).1.head key = .error (.notFound key)
  /-- But a directory in the place of its sidecar stays when something is in it, and is in the
      way. -/
  hidden : (s.delete key).2 = .ok true →
    ∀ q, isBelow q (placesOf s.root clean).sidecar = true → s.files.node? q ≠ none →
      (s.delete key).1.head key = .error .backend
  /-- Other keys are found as before. -/
  others : (s.delete key).2 = .ok true → ∀ key' clean', storageKey key' = .ok clean' →
    clean' ≠ clean →
      ¬ IsCovered s.files (placesOf s.root clean) (placesOf s.root clean').sidecar →
        (s.delete key).1.head key' = s.head key' ∧ (s.delete key).1.get key' = s.get key'
  /-- Only a key that the file was in the way of is not found for another reason than before. -/
  covered : (s.delete key).2 = .ok true → ∀ key' clean', storageKey key' = .ok clean' →
    IsCovered s.files (placesOf s.root clean) (placesOf s.root clean').sidecar →
      (s.head key' = .error .backend ∧ s.get key' = .error .backend) ∧
        (s.delete key).1.head key' = .error (.notFound key') ∧
          (s.delete key).1.get key' = .error (.notFound key')
  /-- Whatever is done with other keys later is answered as without the deletion, and then listings
      lack the key alone. -/
  later : (s.delete key).2 = .ok true → s.files.isFile (locationOf s.root) = false →
    ∀ as, (∀ a ∈ as, ∀ clean', storageKey (Access.key a) = .ok clean' →
      IsAside s.files (placesOf s.root clean) (placesOf s.root clean').data ∧
        IsAside s.files (placesOf s.root clean) (placesOf s.root clean').sidecar) →
      ((s.delete key).1.answerAll as).2 = (s.answerAll as).2 ∧
        ∀ front, ((s.delete key).1.answerAll as).1.list front =
          ((s.answerAll as).1.list front).map fun infos =>
            infos.filter fun info => info.key != clean
  /-- When the root itself was a file, there was no listing, and there is an empty one now. -/
  ofRoot : (s.delete key).2 = .ok true → s.files.isFile (locationOf s.root) = true →
    ∀ front, s.list front = .error .backend ∧ (s.delete key).1.list front = .ok []

/-- Beside the root of all files, nothing is described. -/
theorem InOrder.not_isFile (h : InOrder (locationOf s.root) s.files)
    (hkey : storageKey key = .ok ".") (hroot : locationOf s.root = []) :
    s.files.isFile (placesOf s.root ".").sidecar = false := by
  obtain ⟨before, other, hsidecar, hother⟩ := sidecar_nowhere (isStorageKey hkey) hroot
  rw [hsidecar, Bool.eq_false_iff]
  intro hfile
  obtain ⟨c, hc⟩ := Tree.isFile_iff.1 hfile
  have habove : locationOf s.root <+: before ++ [other] := hroot ▸ List.nil_prefix
  obtain ⟨d, hd⟩ := Tree.isFile_iff.1 (h.described before other c habove hc).2.1
  exact hother (h.tree.names (before ++ [other]) (by simp [hd]) other (by simp))

/-- An artifact is there when its sidecar is. -/
theorem InOrder.head_ok_iff (h : InOrder (locationOf s.root) s.files)
    (hkey : storageKey key = .ok clean) : (∃ info, s.head key = .ok info) ↔
      s.files.isFile (placesOf s.root clean).sidecar = true := by
  constructor
  · rintro ⟨info, hinfo⟩
    obtain ⟨p, hplaces, x, hx, -⟩ := head_ok.1 hinfo
    obtain rfl := Except.ok.inj ((places_ok hkey s).symm.trans hplaces)
    obtain ⟨c, hc, -⟩ := sidecarAt_ok.1 hx
    exact Tree.isFile_iff.2 ⟨c, (Tree.read_eq_ok.1 hc).2⟩
  · intro hfile
    obtain ⟨c, hc⟩ := Tree.isFile_iff.1 hfile
    have hsidecar : c.sidecar?.isSome = true := by
      rcases spot_cases (places_ok hkey s) with ⟨-, hdot, hroot⟩ | ⟨folder, name, hplaces, hspot⟩
      · obtain rfl : clean = "." := Except.ok.inj (hkey.symm.trans hdot)
        rw [h.not_isFile hkey hroot] at hfile
        cases hfile
      · rw [hplaces] at hc
        exact (h.described folder name c hspot.inside hc).1
    obtain ⟨x, hx⟩ := Option.isSome_iff_exists.1 hsidecar
    exact ⟨_, head_ok.2 ⟨_, places_ok hkey s, x, sidecarAt_ok.2 ⟨c, h.tree.read_iff.2 hc, hx⟩,
      rfl⟩⟩

/-- **What can be deleted**: an artifact, or something that is taken for one. -/
theorem delete_answer (h : InOrder (locationOf s.root) s.files)
    (hkey : storageKey key = .ok clean) : (s.delete key).2 = .ok true ↔
      (∃ info, s.head key = .ok info) ∨ IsStray s.files (placesOf s.root clean) := by
  have hplaces := places_ok hkey s
  rw [delete_iff hplaces, h.tree.remove_iff, h.head_ok_iff hkey]
  have hfile : s.files.isFile (placesOf s.root clean).data = true →
      (placesOf s.root clean).data ≠ [] ∧ s.files.node? (placesOf s.root clean).data ≠ none ∧
        ∀ q, isBelow q (placesOf s.root clean).data = true → s.files.node? q = none := by
    intro hfile
    obtain ⟨c, hc⟩ := Tree.isFile_iff.1 hfile
    exact h.tree.remove_iff.1 (h.tree.remove_file hc)
  constructor
  · rintro ⟨hne, hstands, hempty⟩
    obtain ⟨n, hn⟩ := Option.ne_none_iff_exists'.1 hstands
    cases n with
    | directory => exact Or.inr (Or.inr ⟨hne, hn, hempty⟩)
    | file c =>
      have hdata := Tree.isFile_iff.2 ⟨c, hn⟩
      cases hsidecar : s.files.isFile (placesOf s.root clean).sidecar with
      | true => exact Or.inl rfl
      | false => exact Or.inr (Or.inl ⟨hdata, hsidecar⟩)
  · rintro (hsidecar | ⟨hdata, -⟩ | ⟨hne, hdirectory, hempty⟩)
    · rcases spot_cases hplaces with ⟨-, hdot, hroot⟩ | ⟨folder, name, hp, hspot⟩
      · obtain rfl : clean = "." := Except.ok.inj (hkey.symm.trans hdot)
        rw [h.not_isFile hkey hroot] at hsidecar
        cases hsidecar
      · obtain ⟨c, hc⟩ := Tree.isFile_iff.1 hsidecar
        rw [hp] at hc hfile ⊢
        exact hfile (h.described folder name c hspot.inside hc).2.1
    · exact hfile hdata
    · exact ⟨hne, by simp [hdirectory], hempty⟩

/-- What a deletion makes of the store. -/
theorem delete_true (hkey : storageKey key = .ok clean) (h : (s.delete key).2 = .ok true) :
    ∃ folder name removed, placesOf s.root clean = placesIn folder name ∧
      Spot (locationOf s.root) folder name ∧ s.files.remove (folder ++ [name]) = .ok removed ∧
        (s.delete key).1 =
          { s with files := cleared removed true (folder ++ [name ++ sidecarEnding]) } := by
  have hplaces := places_ok hkey s
  obtain ⟨-, r, hr, hdelete⟩ | ⟨removed, hremove, hdelete⟩ := delete_cases hplaces
  · rw [hdelete] at h
    exact absurd h hr
  obtain ⟨hdata, -⟩ | ⟨folder, name, hp, hspot⟩ := spot_cases hplaces
  · rw [hdata, remove_root] at hremove
    cases hremove
  rw [hp] at hremove hdelete
  exact ⟨folder, name, removed, hp, hspot, hremove, by rw [hdelete]; rfl⟩

theorem isBelow_concat_iff {q : Location} {a : String} :
    isBelow (folder ++ [a]) q = true ↔ q <+: folder := by
  rw [isBelow_iff, List.prefix_concat_iff]
  constructor
  · rintro ⟨he | habove, hne⟩
    · exact absurd he.symm hne
    · exact habove
  · intro habove
    exact ⟨Or.inr habove, fun he => not_prefix_of_mem a (he ▸ habove)⟩

/-- On the way to an artifact that was deleted, there is no file. -/
theorem Without.read_sidecar {removed : Workspace} (h : Without files files' (placesIn folder name))
    (htree : files.IsTree) (hremove : files.remove (folder ++ [name]) = .ok removed) :
    files'.read (placesIn folder name).sidecar =
      match files'.node? (placesIn folder name).sidecar with
      | some (.file c) => .ok c
      | some .directory => .error .obstructed
      | none => .error .missing := by
  have hway : ∀ q, q <+: (placesIn folder name).sidecar → q ≠ (placesIn folder name).sidecar →
      files'.isFile q = false := by
    intro q hq hne
    have hfolder := (List.prefix_concat_iff.1 hq).resolve_left hne
    have hdirectory := htree.way (Tree.remove_ok hremove).2.1 hfolder
    rw [h.isFile_eq fun _ => Tree.isFile_of_directory hdirectory,
      Tree.isFile_of_directory hdirectory]
  rw [Tree.read, Tree.status_of_free hway]
  rcases files'.node? (placesIn folder name).sidecar with _ | _ | c <;> rfl

/-- What is aside from a deletion is the same without it. -/
theorem sameFor_without {removed : Workspace} (h : s.files.IsTree)
    (hspot : Spot (locationOf s.root) folder name)
    (hremove : s.files.remove (folder ++ [name]) = .ok removed)
    (hroot : s.files.isFile (locationOf s.root) = false) :
    SameFor (IsAside s.files (placesIn folder name)) (· != folder ++ [name ++ sidecarEnding]) s
      { s with files := cleared removed true (folder ++ [name ++ sidecarEnding]) } := by
  have hwithout := without h hremove
  refine ⟨rfl, fun q a hq ha => ?_, fun q a hq ha => ?_, fun q hq => ?_,
    sidecarsBelow_without h hspot hremove⟩
  · exact hwithout.others a (fun he => hq.data (he ▸ ha)) fun he => hq.sidecar (he ▸ ha)
  · refine hwithout.isFile_eq fun hplace => ?_
    rcases hq with hq | rfl
    · -- a file in the way of a place would be above it
      have hne : a ≠ q := by
        rintro rfl
        rcases hplace with rfl | rfl
        · exact hq.data (List.prefix_refl _)
        · exact hq.sidecar (List.prefix_refl _)
      refine Bool.eq_false_iff.2 fun hfile => hq.free ?_
      exact ⟨a, hplace, isBelow_iff.2 ⟨ha, hne.symm⟩, hfile⟩
    · -- only the root itself is so high up
      have hlength := hspot.inside.length_le
      have hlength' := ha.length_le
      rcases hplace with rfl | rfl
      · rw [ha.eq_of_length_le hlength]
        exact hroot
      · have he := ha.eq_of_length_le (by simpa [placesIn] using hlength)
        have hinside := hspot.inside
        rw [← he] at hinside
        have he' := hinside.eq_of_length (by simp [placesIn])
        exact absurd (by simpa [placesIn] using he') (name_ne_sidecar name).symm
  · exact bne_iff_ne.2 fun he => hq.sidecar (he ▸ List.prefix_refl _)

/-- What was deleted is not found any more, unless something hides this. -/
theorem head_deleted (h : s.files.IsTree) (hkey : storageKey key = .ok clean)
    (htrue : (s.delete key).2 = .ok true) :
    ((∀ q, isBelow q (placesOf s.root clean).sidecar = true → s.files.node? q = none) →
      (s.delete key).1.head key = .error (.notFound key)) ∧
    ∀ q, isBelow q (placesOf s.root clean).sidecar = true → s.files.node? q ≠ none →
      (s.delete key).1.head key = .error .backend := by
  obtain ⟨folder, name, removed, hp, -, hremove, hdelete⟩ := delete_true hkey htrue
  have hwithout := without h hremove
  have hread := hwithout.read_sidecar h hremove
  have hplaces : (s.delete key).1.places key = .ok (placesIn folder name) := by
    rw [hdelete, ← hp]
    exact places_ok hkey { s with files := _ }
  rw [hdelete] at hplaces
  rw [hp, hdelete]
  refine ⟨fun hempty => ?_, fun q hq hstands => ?_⟩
  · rw [hwithout.sidecar hempty] at hread
    exact (not_found hplaces hread).1
  · rw [hwithout.kept q hq hstands] at hread
    exact (not_found hplaces hread).1

/-- Other keys are found as before. -/
theorem found_without (h : s.files.IsTree) (hkey : storageKey key = .ok clean)
    (htrue : (s.delete key).2 = .ok true) (hkey' : storageKey key' = .ok clean')
    (hne : clean' ≠ clean)
    (hfree : ¬ IsCovered s.files (placesOf s.root clean) (placesOf s.root clean').sidecar) :
    (s.delete key).1.head key' = s.head key' ∧ (s.delete key).1.get key' = s.get key' := by
  obtain ⟨folder, name, removed, hp, hspot, hremove, hdelete⟩ := delete_true hkey htrue
  have hwithout := without h hremove
  have hapart := apartFrom hkey hkey' hne hp hspot
  have hfree' : ¬ IsCovered s.files (placesOf s.root clean) (placesOf s.root clean').data := by
    rintro ⟨a, ha, hbelow, hfile⟩
    rcases spot_cases (places_ok hkey' s) with ⟨hdata, -⟩ | ⟨folder', name', hp', -⟩
    · rw [hdata, isBelow_iff] at hbelow
      exact hbelow.2 (List.prefix_nil.1 hbelow.1).symm
    · rw [hp'] at hbelow hfree
      exact hfree ⟨a, ha, isBelow_concat_iff.2 (isBelow_concat_iff.1 hbelow), hfile⟩
  rw [hp] at hapart hfree hfree'
  have hread : ∀ p', s.places key' = .ok p' →
      (s.delete key).1.files.read p'.data = s.files.read p'.data ∧
        (s.delete key).1.files.read p'.sidecar = s.files.read p'.sidecar := by
    intro p' hplaces'
    obtain rfl := Except.ok.inj ((places_ok hkey' s).symm.trans hplaces')
    rw [hdelete]
    exact ⟨hwithout.read_eq hapart.data hapart.data_sidecar hfree',
      hwithout.read_eq hapart.sidecar_data hapart.sidecar hfree⟩
  have hroot : (s.delete key).1.root = s.root := by rw [hdelete]
  exact ⟨head_congr hroot fun p' hp' => (hread p' hp').2, get_congr hroot hread⟩

/-- A key that the file was in the way of is not found, before and after, for different reasons. -/
theorem covered_without (h : s.files.IsTree) (hkey : storageKey key = .ok clean)
    (htrue : (s.delete key).2 = .ok true) (hkey' : storageKey key' = .ok clean')
    (hcovered : IsCovered s.files (placesOf s.root clean) (placesOf s.root clean').sidecar) :
    (s.head key' = .error .backend ∧ s.get key' = .error .backend) ∧
      (s.delete key).1.head key' = .error (.notFound key') ∧
        (s.delete key).1.get key' = .error (.notFound key') := by
  obtain ⟨folder, name, removed, hp, -, hremove, hdelete⟩ := delete_true hkey htrue
  rw [hp] at hcovered
  obtain ⟨hread, hread'⟩ := (without h hremove).read_covered h hcovered
  refine ⟨not_found (places_ok hkey' s) hread, ?_⟩
  rw [hdelete]
  exact not_found (places_ok hkey' { s with files := _ }) hread'

/-- Runs with other keys, and listings after them, are as without the deletion. -/
theorem answerAll_without (h : InOrder (locationOf s.root) s.files)
    (hkey : storageKey key = .ok clean) (htrue : (s.delete key).2 = .ok true)
    (hroot : s.files.isFile (locationOf s.root) = false) {as : List Access}
    (has : ∀ a ∈ as, ∀ clean', storageKey (Access.key a) = .ok clean' →
      IsAside s.files (placesOf s.root clean) (placesOf s.root clean').data ∧
        IsAside s.files (placesOf s.root clean) (placesOf s.root clean').sidecar) :
    ((s.delete key).1.answerAll as).2 = (s.answerAll as).2 ∧
      ∀ front, ((s.delete key).1.answerAll as).1.list front =
        ((s.answerAll as).1.list front).map fun infos =>
          infos.filter fun info => info.key != clean := by
  obtain ⟨folder, name, removed, hp, hspot, hremove, hdelete⟩ := delete_true hkey htrue
  have hsame := sameFor_without h.tree hspot hremove hroot
  rw [← hdelete] at hsame
  have hrun := hsame.answerAll as fun a ha p' hplaces' => by
    obtain ⟨clean', hkey', rfl⟩ := map_eq_ok.1 hplaces'
    exact hp ▸ has a ha clean' hkey'
  refine ⟨hrun.answer, fun front => ?_⟩
  have hs := inOrder_answerAll h as
  have ht : ((s.delete key).1.answerAll as).1.files.IsTree := by
    refine isTree_answerAll ?_ as
    rw [hdelete]
    exact isTree_cleared (h.tree.remove hremove) true _
  have hdata : (placesOf s.root clean).data ≠ [] := by
    rw [hp]
    exact List.append_ne_nil_of_right_ne_nil _ (by simp)
  rw [← root_answerAll s as] at hs hdata hp
  have hsidecar : (placesOf (s.answerAll as).1.root clean).sidecar =
      folder ++ [name ++ sidecarEnding] := by rw [hp]; rfl
  have hfilter := hs.readInfos_without hkey hdata front
  rw [hsidecar] at hfilter
  rw [hrun.store.list ht, list_tree hs.tree, hfilter]
  split_ifs <;> rfl

/-- Without a root, there is nothing to list. -/
theorem list_without (h : s.files.IsTree) (hkey : storageKey key = .ok clean)
    (htrue : (s.delete key).2 = .ok true)
    (hroot : s.files.isFile (locationOf s.root) = true) (front : String) :
    s.list front = .error .backend ∧ (s.delete key).1.list front = .ok [] := by
  obtain ⟨folder, name, removed, -, hspot, hremove, hdelete⟩ := delete_true hkey htrue
  obtain ⟨c, hc⟩ := Tree.isFile_iff.1 hroot
  -- nothing is below the root, so it is the root itself that was removed
  have hlocation : locationOf s.root = folder ++ [name] := by
    by_contra hne
    refine (Tree.remove_ok hremove).2.1 (h.below (p := locationOf s.root) (by simp [hc]) ?_)
    exact isBelow_iff.2 ⟨hspot.inside, fun he => hne he.symm⟩
  constructor
  · rw [list_tree h, if_pos]
    exact List.any_eq_true.2 ⟨_, mem_way.2 (List.prefix_refl _), hroot⟩
  · have hwithout := without h hremove
    have hway : ∀ q, q <+: locationOf s.root → q ≠ locationOf s.root →
        (cleared removed true (folder ++ [name ++ sidecarEnding])).isFile q = false := by
      intro q hq hne
      have hdirectory := h.above (by simp [hc]) hq hne
      rw [hwithout.isFile_eq fun _ => Tree.isFile_of_directory hdirectory,
        Tree.isFile_of_directory hdirectory]
    have hnode : (cleared removed true (folder ++ [name ++ sidecarEnding])).node?
        (locationOf s.root) = none := hlocation ▸ hwithout.data
    rw [hdelete, list_eq]
    dsimp only
    rw [Tree.status_of_free hway, hnode]

theorem deletion_of_inOrder (h : InOrder (locationOf s.root) s.files)
    (hkey : storageKey key = .ok clean) : Deletion s key clean where
  answer := delete_answer h hkey
  unchanged hr := by
    obtain ⟨-, r, -, hdelete⟩ | ⟨removed, -, hdelete⟩ := delete_cases (places_ok hkey s)
    · rw [hdelete]
    · rw [hdelete] at hr
      exact absurd rfl hr
  gone htrue := (head_deleted h.tree hkey htrue).1
  hidden htrue := (head_deleted h.tree hkey htrue).2
  others htrue key' clean' hkey' := found_without h.tree hkey htrue hkey'
  covered htrue key' clean' hkey' := covered_without h.tree hkey htrue hkey'
  later htrue hroot as has := answerAll_without h hkey htrue hroot has
  ofRoot htrue hroot front := list_without h.tree hkey htrue hroot front

theorem inOrder_start (hstart : start files path = .ok s)
    (h : InOrder (locationOf s.root) files) : InOrder (locationOf s.root) s.files :=
  inOrder_makeDirectory h (fun _ hx => isFileName_of_mem_locationOf hx) (start_made hstart)

theorem inOrder_empty (root : Location) : InOrder root {} := by
  refine ⟨Tree.isTree_empty, fun folder name c _ hfile => ?_⟩
  rw [Tree.node?, if_neg (by simp)] at hfile
  cases hfile

end

end DirectoryStore

open DirectoryStore (InOrder Deletion inOrder_start inOrder_answerAll inOrder_empty
  deletion_of_inOrder)

/-- **What deleting does** after any run, when no one else keeps files below the root that are named
    like sidecars. -/
theorem deletion {files : Workspace} {s : DirectoryStore} {path key clean : String}
    (hstart : DirectoryStore.start files path = .ok s) (h : InOrder (locationOf s.root) files)
    (as : List Access) (hkey : storageKey key = .ok clean) :
    Deletion (s.answerAll as).1 key clean := by
  refine deletion_of_inOrder ?_ hkey
  rw [DirectoryStore.root_answerAll]
  exact inOrder_answerAll (inOrder_start hstart h) as

/-- A header is deleted from a store that was empty before. -/
theorem deletion_of_header : ∃ s, DirectoryStore.start {} "/out" = .ok s ∧
    Deletion (s.answerAll [.put { key := "src/Ship.h", body := .ok "ship" }]).1 "src/./Ship.h"
      "src/Ship.h" :=
  ⟨_, rfl, deletion (rfl : DirectoryStore.start {} "/out" = .ok _) (inOrder_empty _) _ (by decide)⟩

/-- The directory of a header outlives it, and is then taken for an artifact itself. -/
theorem delete_folder_of_header : ∃ s, DirectoryStore.start {} "/out" = .ok s ∧
    storageKey "src" = .ok "src" ∧
      ∃ t, (s.answerAll [.put { key := "src/Ship.h", body := .ok "ship" },
        .delete "src/Ship.h"]).1 = t ∧
          t.head "src" = .error (.notFound "src") ∧ (t.delete "src").2 = .ok true :=
  ⟨_, rfl, by decide, _, rfl, by decide +kernel, by decide +kernel⟩

end Artifact

end ObjectLowering
