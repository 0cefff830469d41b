/-
  What an access does to a store in a directory.

  * `Tree.IsTree`: whatever stands somewhere stands in a directory, so nothing
    is below a file.
  * `put_cases`, `delete_cases`: the ways that storing and removing go.
  * `Move`, `moves_answer`: an access is a chain of moves, each at the place of
    a key.  What moves keep, runs keep (`answerAll_induction`).
-/
import Mathlib.Logic.Relation
import ObjectLowering.Proofs.Confinement

namespace ObjectLowering

/-! ## Trees in which everything has a directory -/

namespace Files.Tree

variable {α : Type} {t t' : Tree α} {p q : Location} {c : α} {n : Node α}

/-- Whatever stands somewhere stands in a directory, under a name of a file, and alone. -/
structure IsTree (t : Tree α) : Prop where
  parent : ∀ q, t.node? q ≠ none → t.node? q.dropLast = some .directory
  names : ∀ q, t.node? q ≠ none → ∀ x ∈ q, Text.Path.IsFileName x
  alone : (t.nodes.map (·.1)).Nodup

theorem isTree_empty : ({} : Tree α).IsTree := by
  have hroot : ∀ q, ({} : Tree α).node? q ≠ none → q = [] := by
    intro q hq
    by_contra hne
    exact hq (if_neg hne)
  refine ⟨fun q hq => ?_, fun q hq x hx => ?_, List.nodup_nil⟩
  · rw [hroot q hq]
    rfl
  · rw [hroot q hq] at hx
    cases hx

theorem IsTree.above (h : t.IsTree) (hp : t.node? p ≠ none) (hq : q <+: p) (hne : q ≠ p) :
    t.node? q = some .directory :=
  node?_above h.parent hp hq hne

/-- What stands in a folder has directories all the way. -/
theorem IsTree.way {folder : Location} {name : String} (h : t.IsTree)
    (hname : t.node? (folder ++ [name]) ≠ none) (hq : q <+: folder) :
    t.node? q = some .directory :=
  h.above hname (hq.trans (List.prefix_append ..)) fun he => not_prefix_of_mem name (he ▸ hq)

/-- Nothing stands below what is no directory. -/
theorem IsTree.below (h : t.IsTree) (hp : t.node? p ≠ some .directory) (hq : isBelow q p = true) :
    t.node? q = none := by
  by_contra hne
  obtain ⟨habove, hqp⟩ := isBelow_iff.1 hq
  exact hp (h.above hne habove hqp.symm)

theorem isFile_iff : t.isFile q = true ↔ ∃ c, t.node? q = some (.file c) := by
  rw [← not_iff_not, Bool.not_eq_true, Tree.isFile_eq_false, not_exists]

theorem IsTree.status_eq (h : t.IsTree) (hp : t.node? p = some n) : t.status p = .ok n := by
  rw [status_of_free fun q hq hne => isFile_of_directory (h.above (by simp [hp]) hq hne), hp]

theorem IsTree.read_iff (h : t.IsTree) : t.read p = .ok c ↔ t.node? p = some (.file c) := by
  rw [read_eq_ok]
  refine ⟨fun hread => hread.2, fun hnode => ⟨fun q hq => ?_, hnode⟩⟩
  obtain ⟨habove, hne⟩ := mem_ancestors.1 hq
  exact isFile_of_directory (h.above (by simp [hnode]) habove hne)

theorem remove_ok (h : t.remove p = .ok t') : p ≠ [] ∧ t.node? p ≠ none ∧
    (∀ q, isBelow q p = true → t.node? q = none) ∧
      t' = { nodes := t.nodes.filter fun x => x.1 != p } := by
  unfold remove at h
  split at h
  · cases h
  · next n hstatus =>
    split_ifs at h with hblocked
    rw [not_or, any_isBelow] at hblocked
    refine ⟨hblocked.1, fun hnone => ?_, fun q hq => ?_, (Except.ok.inj h).symm⟩
    · rw [status, hnone] at hstatus
      split_ifs at hstatus
    · by_contra hne
      exact hblocked.2 ⟨q, hq, hne⟩

/-- What can be removed: a file or an empty directory, but not the root of all files. -/
theorem IsTree.remove_iff (h : t.IsTree) : (∃ t', t.remove p = .ok t') ↔
    p ≠ [] ∧ t.node? p ≠ none ∧ ∀ q, isBelow q p = true → t.node? q = none := by
  constructor
  · rintro ⟨t', ht'⟩
    obtain ⟨hp, hnode, hempty, -⟩ := remove_ok ht'
    exact ⟨hp, hnode, hempty⟩
  · rintro ⟨hp, hnode, hempty⟩
    obtain ⟨n, hn⟩ := Option.ne_none_iff_exists'.1 hnode
    rw [remove, h.status_eq hn]
    refine ⟨_, if_neg (not_or.2 ⟨hp, ?_⟩)⟩
    rw [any_isBelow]
    rintro ⟨q, hq, hne⟩
    exact hne (hempty q hq)

/-- A file can always be removed. -/
theorem IsTree.remove_file (h : t.IsTree) (hp : t.node? p = some (.file c)) :
    ∃ t', t.remove p = .ok t' := by
  refine h.remove_iff.2 ⟨?_, by simp [hp], fun q hq => h.below (by simp [hp]) hq⟩
  rintro rfl
  cases hp

theorem alone_filter {l : List (Location × Node α)} (h : (l.map (·.1)).Nodup) (p : Location) :
    ((l.filter fun x => x.1 != p).map (·.1)).Nodup :=
  h.sublist (List.filter_sublist.map _)

theorem alone_set (h : (t.nodes.map (·.1)).Nodup) (p : Location) (n : Node α) :
    ((t.set p n).nodes.map (·.1)).Nodup := by
  rw [set, List.map_cons, List.nodup_cons]
  refine ⟨fun hmem => ?_, alone_filter h p⟩
  obtain ⟨x, hx, he⟩ := List.mem_map.1 hmem
  simpa [he] using (List.mem_filter.1 hx).2

theorem IsTree.remove (h : t.IsTree) (hr : t.remove p = .ok t') : t'.IsTree := by
  obtain ⟨-, -, hempty, hnodes⟩ := remove_ok hr
  have hkept : ∀ q, t'.node? q ≠ none → q ≠ p ∧ t.node? q ≠ none := by
    intro q hq
    rw [node?_remove hr] at hq
    split_ifs at hq with he
    · exact absurd rfl hq
    · exact ⟨he, hq⟩
  refine ⟨fun q hq => ?_, fun q hq => h.names q (hkept q hq).2, ?_⟩
  swap
  · rw [hnodes]
    exact alone_filter h.alone p
  obtain ⟨hne, hstands⟩ := hkept q hq
  rw [node?_remove hr, if_neg, h.parent q hstands]
  -- what was removed had nothing in it
  rintro rfl
  exact hstands (hempty q (isBelow_iff.2 ⟨List.dropLast_prefix q, hne⟩))

/-- What making a directory does. -/
theorem makeDirectory_ok (h : t.makeDirectory p = .ok t') : (∀ q, q <+: p → t.isFile q = false) ∧
    ∀ q, t'.node? q = (t.node? q).or (if q <+: p then some .directory else none) := by
  obtain ⟨-, hfail⟩ | ⟨hfree, made, hmade, hnode⟩ := t.makeDirectory_cases p
  · rw [hfail] at h
    cases h
  · obtain rfl := Except.ok.inj (hmade.symm.trans h)
    exact ⟨hfree, hnode⟩

/-- The files are those that were there. -/
theorem file_makeDirectory (h : t.makeDirectory p = .ok t') :
    t'.node? q = some (.file c) ↔ t.node? q = some (.file c) := by
  rw [(makeDirectory_ok h).2]
  cases t.node? q with
  | some n => rfl
  | none => split_ifs <;> simp

theorem alone_makeDirectory (h : (t.nodes.map (·.1)).Nodup) (hm : t.makeDirectory p = .ok t') :
    (t'.nodes.map (·.1)).Nodup := by
  unfold Tree.makeDirectory at hm
  split_ifs at hm with hway
  obtain rfl := Except.ok.inj hm
  clear hm hway
  generalize ancestors p ++ [p] = qs
  induction qs generalizing t with
  | nil => exact h
  | cons q qs ih =>
    rw [List.foldl_cons]
    split_ifs
    · exact ih h
    · exact ih (alone_set h q .directory)

theorem IsTree.makeDirectory (h : t.IsTree) (hp : ∀ x ∈ p, Text.Path.IsFileName x)
    (hm : t.makeDirectory p = .ok t') : t'.IsTree := by
  have hnode := (makeDirectory_ok hm).2
  have hcases : ∀ q, t'.node? q ≠ none → q <+: p ∨ t.node? q ≠ none := by
    intro q hq
    rw [hnode] at hq
    split_ifs at hq with hqp
    · exact Or.inl hqp
    · rw [Option.or_none] at hq
      exact Or.inr hq
  refine ⟨fun q hq => ?_, fun q hq => ?_, alone_makeDirectory h.alone hm⟩
  · rcases hcases q hq with hqp | hstands
    · exact node?_of_makeDirectory hm ((List.dropLast_prefix q).trans hqp)
    · rw [hnode, h.parent q hstands]
      rfl
  · rcases hcases q hq with hqp | hstands
    · exact fun x hx => hp x (hqp.subset hx)
    · exact h.names q hstands

theorem IsTree.set_file (h : t.IsTree) (hp : ∀ x ∈ p, Text.Path.IsFileName x)
    (hway : t.node? p.dropLast = some .directory) (hname : t.node? p ≠ some .directory) :
    (t.set p (.file c)).IsTree := by
  have hne : p ≠ [] := by
    rintro rfl
    exact hname rfl
  have hkept : ∀ q, t.node? q = some .directory →
      (t.set p (.file c)).node? q = some .directory := by
    intro q hq
    rw [node?_set hne, if_neg, hq]
    rintro rfl
    exact hname hq
  refine ⟨fun q hq => ?_, fun q hq => ?_, alone_set h.alone p _⟩
  · by_cases he : q = p
    · exact hkept _ (he ▸ hway)
    · rw [node?_set hne, if_neg he] at hq
      exact hkept _ (h.parent q hq)
  · by_cases he : q = p
    · exact he ▸ hp
    · rw [node?_set hne, if_neg he] at hq
      exact h.names q hq

/-- A directory that stands is not made again. -/
theorem makeDirectory_self (h : ∀ q, q <+: p → t.node? q = some .directory) :
    t.makeDirectory p = .ok t := by
  have hway : ¬ (ancestors p ++ [p]).any t.isFile = true := by
    rw [Bool.not_eq_true, List.any_eq_false]
    intro q hq
    rw [isFile_of_directory (h q (mem_way.1 hq))]
    exact Bool.false_ne_true
  rw [Tree.makeDirectory, if_neg hway]
  have hfold : ∀ qs : List Location, (∀ q ∈ qs, q <+: p) →
      qs.foldl (fun t q => if (t.node? q).isSome then t else t.set q .directory) t = t := by
    intro qs hqs
    induction qs with
    | nil => rfl
    | cons q qs ih =>
      rw [List.foldl_cons, h q (hqs q List.mem_cons_self), Option.isSome_some, if_pos rfl]
      exact ih fun x hx => hqs x (List.mem_cons_of_mem _ hx)
  rw [hfold _ fun q hq => mem_way.1 hq]

theorem status_congr (hway : ∀ a ∈ ancestors p, t'.isFile a = t.isFile a)
    (hnode : t'.node? p = t.node? p) : t'.status p = t.status p := by
  have hany : (ancestors p).any t'.isFile = (ancestors p).any t.isFile := by
    rw [Bool.eq_iff_iff, List.any_eq_true, List.any_eq_true]
    exact exists_congr fun a => and_congr_right fun ha => by rw [hway a ha]
  rw [status, status, hany, hnode]

/-- A directory stands at a location. -/
def isDirectory (t : Tree α) (p : Location) : Bool :=
  match t.node? p with
  | some .directory => true
  | _ => false

theorem isDirectory_iff : t.isDirectory p = true ↔ t.node? p = some .directory := by
  unfold isDirectory
  split
  · next h => simp [h]
  · next h => exact iff_of_false Bool.false_ne_true h

end Files.Tree

namespace Artifact

open Files Text

namespace DirectoryStore

variable {s t : DirectoryStore} {key name : String} {folder root : Location} {p : Places}

/-! ## Places of keys -/

theorem places_ok {clean : String} (hkey : storageKey key = .ok clean) (s : DirectoryStore) :
    s.places key = .ok (placesOf s.root clean) := by
  rw [places, hkey]
  rfl

theorem isFileName_of_mem_locationOf {path x : String} (hx : x ∈ locationOf path) :
    Path.IsFileName x := by
  obtain ⟨hmem, hdots⟩ := List.mem_filter.1 hx
  obtain ⟨names, n, hcleaned, hnames, -⟩ := Path.isCleaned_segments path
  rw [← List.mem_reverse, hcleaned, List.mem_append] at hmem
  rcases hmem with hmem | hmem
  · exact hnames x hmem
  · rw [List.eq_of_mem_replicate hmem] at hdots
    cases hdots

/-- Where the file of a key is kept: under a name at the root or below. Below, no file is kept
    where one has its sidecar. -/
structure Spot (root folder : Location) (name : String) : Prop where
  inside : root <+: folder ++ [name]
  names : ∀ x ∈ folder ++ [name], Path.IsFileName x
  not_sidecar : root <+: folder → ∀ other, name ≠ other ++ sidecarEnding

/-- A key leads to a place, unless it stands for a root that is the root of all files. -/
theorem spot_cases (hplaces : s.places key = .ok p) :
    (p.data = [] ∧ storageKey key = .ok "." ∧ locationOf s.root = []) ∨
      ∃ folder name, p = placesIn folder name ∧ Spot (locationOf s.root) folder name := by
  obtain ⟨clean, hclean, rfl⟩ := map_eq_ok.1 hplaces
  have hkey := isStorageKey hclean
  have hnames : ∀ x ∈ (placesOf s.root clean).data, Path.IsFileName x := fun x hx =>
    isFileName_of_mem_locationOf hx
  by_cases hdot : clean = "."
  · subst hdot
    by_cases hroot : locationOf s.root = []
    · exact Or.inl ⟨(data_dot hkey s.root).trans hroot, hclean, hroot⟩
    · obtain ⟨folder, last, hp, hlocation⟩ := placesOf_dot hkey hroot
      rw [hp] at hnames
      refine Or.inr ⟨folder, last, hp, hlocation ▸ List.prefix_refl _, hnames, fun habove => ?_⟩
      exact absurd (hlocation ▸ habove) (not_prefix_of_mem last)
  · obtain ⟨folder, before, last, hp, hfolder, hsegments⟩ := hkey.placesOf hdot s.root
    rw [hp] at hnames
    refine Or.inr ⟨folder, last, hp, hfolder.trans (List.prefix_append ..), hnames, ?_⟩
    intro _ other he
    exact hkey.not_sidecar before other (he ▸ hsegments)

theorem Spot.sidecar_names (h : Spot root folder name) :
    ∀ x ∈ folder ++ [name ++ sidecarEnding], Path.IsFileName x := by
  intro x hx
  rcases List.mem_append.1 hx with hx | hx
  · exact h.names x (by simp [hx])
  · rw [List.mem_singleton.1 hx]
    exact isFileName_sidecar (h.names name (by simp)).slash

/-! ## Accesses by cases -/

theorem cleared_eq {files : Workspace} {b : Bool} {q : Location}
    (h : (cleared files b q).node? q ≠ none) : cleared files b q = files := by
  unfold cleared at h ⊢
  split_ifs at h ⊢
  · cases hremove : files.remove q with
    | error f => rfl
    | ok files' =>
      rw [hremove] at h
      exact absurd (by rw [Tree.node?_remove hremove, if_pos rfl]) h
  · rfl

/-- The files after an artifact without its sidecar was written. -/
def written (files : Workspace) (b : Bool) (p : Location) (content : String) : Workspace :=
  (cleared files b p).set p (.file (.text content))

/-- The files after its sidecar was written, too. -/
def stored (files : Workspace) (b : Bool) (folder : Location) (name content : String)
    (x : Sidecar) : Workspace :=
  (written files b (folder ++ [name]) content).set (folder ++ [name ++ sidecarEnding])
    (.file (.sidecar x))

theorem node?_written (files : Workspace) (b : Bool) (folder : Location) (name content : String)
    (q : Location) :
    (written files b (folder ++ [name]) content).node? q =
      if q = folder ++ [name] then some (.file (.text content)) else files.node? q := by
  rw [written, Tree.node?_set (by simp)]
  split_ifs with he
  · rfl
  · exact (node?_cleared files b (folder ++ [name]) q).resolve_right fun h => he h.1

/-- An artifact is replaced unless a directory is in the place of its file, or of its sidecar:
    then its file is replaced alone. -/
theorem replace_on (u : Upload) (content : String)
    (hway : ∀ q, q <+: folder → s.files.node? q = some .directory) :
    s.replace (placesIn folder name) u content =
      if (cleared s.files u.overwrites (folder ++ [name])).isDirectory (folder ++ [name]) then
        (s, .error .backend)
      else if s.files.isDirectory (folder ++ [name ++ sidecarEnding]) then
        ({ s with files := written s.files u.overwrites (folder ++ [name]) content },
          .error .backend)
      else
        ({ s with
            files := stored s.files u.overwrites folder name content
              (.ofInfo (s.described u content)) }, .ok (s.described u content)) := by
  have hrefuse : ∀ {files : Workspace} {q : Location} {c : Content},
      files.node? q = some .directory → ∃ f, files.write q c = .error f := by
    intro files q c hq
    cases hwrite : files.write q c with
    | error f => exact ⟨f, rfl⟩
    | ok files' => exact absurd hq (Tree.write_eq_ok.1 hwrite).2.2.1
  have hcleared : ∀ q, q <+: folder →
      (cleared s.files u.overwrites (folder ++ [name])).node? q = some .directory := by
    intro q hq
    rw [(node?_cleared s.files u.overwrites (folder ++ [name]) q).resolve_right, hway q hq]
    rintro ⟨rfl, -⟩
    exact not_prefix_of_mem name hq
  have hwritten := node?_written s.files u.overwrites folder name content
  rw [replace_eq]
  split_ifs with hdata hsidecar
  · rw [Tree.isDirectory_iff] at hdata
    obtain ⟨f, hf⟩ := hrefuse (c := .text content) hdata
    rw [hf, cleared_eq (by simp [hdata])]
  · rw [Tree.isDirectory_iff] at hdata hsidecar
    rw [write_in hcleared hdata]
    obtain ⟨f, hf⟩ := hrefuse (c := .sidecar (.ofInfo (s.described u content)))
      ((hwritten _).trans ((if_neg (by simpa using (name_ne_sidecar name).symm)).trans hsidecar))
    rw [written] at hf
    dsimp only
    rw [hf]
    rfl
  · rw [Tree.isDirectory_iff] at hdata hsidecar
    have hthere : ∀ q, q <+: folder →
        (written s.files u.overwrites (folder ++ [name]) content).node? q = some .directory :=
      fun q hq => by rw [hwritten, if_neg fun he => not_prefix_of_mem name (he ▸ hq), hway q hq]
    have hfree : (written s.files u.overwrites (folder ++ [name]) content).node?
        (folder ++ [name ++ sidecarEnding]) ≠ some .directory := by
      rw [hwritten, if_neg (by simpa using (name_ne_sidecar name).symm)]
      exact hsidecar
    rw [write_in hcleared hdata]
    dsimp only
    rw [← written, write_in hthere hfree]
    rfl

/-- What storing does before the file is written. -/
theorem put_cases {u : Upload} (hplaces : s.places u.key = .ok (placesIn folder name)) :
    (∃ e, (e = .taken u.key ∨ e = .backend ∧ ∃ f, s.files.makeDirectory folder = .error f) ∧
      s.put u = (s, .error e)) ∨ ∃ made, s.files.makeDirectory folder = .ok made ∧
      ((∃ e, (e = .canceled ∨ ∃ cause, e = .unreadable cause) ∧
        s.put u = ({ s with files := made }, .error e)) ∨
      ∃ content, u.body = .ok content ∧
        s.put u = { s with files := made }.replace (placesIn folder name) u content) := by
  have hfolder : (placesIn folder name).data.dropLast = folder := List.dropLast_concat ..
  unfold DirectoryStore.put
  rw [hplaces]
  dsimp only
  rw [hfolder]
  by_cases htaken : (s.sidecarAt (placesIn folder name).sidecar).isOk ∧ !u.overwrites
  · rw [if_pos htaken]
    exact Or.inl ⟨_, Or.inl rfl, rfl⟩
  rw [if_neg htaken]
  cases hmade : s.files.makeDirectory folder with
  | error f => exact Or.inl ⟨_, Or.inr ⟨rfl, f, rfl⟩, rfl⟩
  | ok made =>
    refine Or.inr ⟨made, rfl, ?_⟩
    cases hbody : u.body with
    | error cause => exact Or.inl ⟨_, Or.inr ⟨cause, rfl⟩, rfl⟩
    | ok content =>
      by_cases hcanceled : u.isCanceled = true
      · exact Or.inl ⟨_, Or.inl rfl, if_pos hcanceled⟩
      · exact Or.inr ⟨content, rfl, if_neg hcanceled⟩

theorem remove_root {files : Workspace} : files.remove [] = .error .obstructed := by
  have hstatus : files.status [] = .ok .directory := rfl
  rw [Tree.remove, hstatus]
  exact if_pos (Or.inl rfl)

/-- The root of all files is not replaced. -/
theorem put_nowhere {u : Upload} (hplaces : s.places u.key = .ok p) (hdata : p.data = []) :
    s.put u = (s, .error
      (if (s.sidecarAt p.sidecar).isOk ∧ !u.overwrites then .taken u.key
      else match u.body with
        | .error cause => .unreadable cause
        | .ok _ => if u.isCanceled then .canceled else .backend)) := by
  have hmade : s.files.makeDirectory ([] : Location).dropLast = .ok s.files :=
    Tree.makeDirectory_self fun q hq => by
      rw [List.prefix_nil.1 hq]
      rfl
  have hcleared : ∀ content, { s with files := s.files }.replace p u content =
      (s, .error .backend) := by
    intro content
    have hwrite : s.files.write [] (Content.text content) = .error .obstructed := rfl
    unfold replace
    rw [hdata, remove_root]
    dsimp only
    rw [ite_self, hwrite]
  unfold DirectoryStore.put
  rw [hplaces]
  dsimp only
  rw [hdata, hmade]
  by_cases htaken : (s.sidecarAt p.sidecar).isOk ∧ !u.overwrites
  · rw [if_pos htaken, if_pos htaken]
  rw [if_neg htaken, if_neg htaken]
  cases u.body with
  | error cause => rfl
  | ok content =>
    by_cases hcanceled : u.isCanceled = true
    · simp only [if_pos hcanceled]
    · simp only [if_neg hcanceled, hcleared]

theorem delete_nowhere (hplaces : s.places key = .ok p) (hdata : p.data = []) :
    s.delete key = (s, .error .backend) := by
  have hstatus : s.files.status [] = .ok .directory := rfl
  rw [delete_eq hplaces, hdata, remove_root, hstatus]

/-- What removing does. -/
theorem delete_cases (hplaces : s.places key = .ok p) :
    ((∃ f, s.files.remove p.data = .error f) ∧ ∃ r, r ≠ .ok true ∧ s.delete key = (s, r)) ∨
    ∃ files, s.files.remove p.data = .ok files ∧
      s.delete key = ({ s with files := cleared files true p.sidecar }, .ok true) := by
  rw [delete_eq hplaces]
  cases hremove : s.files.remove p.data with
  | error f =>
    refine Or.inl ⟨⟨f, rfl⟩, ?_⟩
    cases s.files.status p.data with
    | ok n => exact ⟨_, by simp, rfl⟩
    | error f => cases f <;> exact ⟨_, by simp, rfl⟩
  | ok files =>
    refine Or.inr ⟨files, rfl, ?_⟩
    cases hstatus : s.files.status p.data with
    | ok n => rfl
    | error f =>
      rw [Tree.remove, hstatus] at hremove
      cases hremove

/-- Something can be deleted iff it can be removed. -/
theorem delete_iff (hplaces : s.places key = .ok p) :
    (s.delete key).2 = .ok true ↔ ∃ files, s.files.remove p.data = .ok files := by
  obtain ⟨⟨f, hf⟩, r, hr, hdelete⟩ | ⟨files, hfiles, hdelete⟩ := delete_cases hplaces
  · rw [hdelete, hf]
    exact iff_of_false hr fun ⟨files, hfiles⟩ => by cases hfiles
  · rw [hdelete]
    exact iff_of_true rfl ⟨files, hfiles⟩

theorem delete_missing (hplaces : s.places key = .ok p)
    (hway : ∀ q, q <+: p.data → q ≠ p.data → s.files.isFile q = false)
    (hnone : s.files.node? p.data = none) : (s.delete key).2 = .ok false := by
  rw [delete_eq hplaces, Tree.status_of_free hway, hnone]

/-! ## Moves -/

/-- What an access makes of the files, step by step.  Each step keeps to the place of a key. -/
inductive Move (root : Location) (files : Workspace) : Workspace → Prop
  /-- The way to the place is made. -/
  | way {folder : Location} {name : String} {files' : Workspace} (hspot : Spot root folder name)
    (h : files.makeDirectory folder = .ok files') : Move root files files'
  /-- A file is written in the place. -/
  | write {folder : Location} {name : String} (b : Bool) (content : String)
    (hspot : Spot root folder name) (hway : files.node? folder = some .directory)
    (hfree : (cleared files b (folder ++ [name])).node? (folder ++ [name]) ≠ some .directory) :
    Move root files (written files b (folder ++ [name]) content)
  /-- A file is described. -/
  | describe {folder : Location} {name : String} (x : Sidecar) (hspot : Spot root folder name)
    (hfile : files.isFile (folder ++ [name]) = true) (hway : files.node? folder = some .directory)
    (hfree : files.node? (folder ++ [name ++ sidecarEnding]) ≠ some .directory) :
    Move root files (files.set (folder ++ [name ++ sidecarEnding]) (.file (.sidecar x)))
  /-- What is in the place is removed, and so is its description. -/
  | remove {folder : Location} {name : String} {files' : Workspace} (hspot : Spot root folder name)
    (h : files.remove (folder ++ [name]) = .ok files') :
    Move root files (cleared files' true (folder ++ [name ++ sidecarEnding]))

open Relation (ReflTransGen)

theorem moves_replace (hspot : Spot root folder name) (u : Upload) (content : String)
    (hway : ∀ q, q <+: folder → s.files.node? q = some .directory) :
    (s.replace (placesIn folder name) u content).1.root = s.root ∧
      ReflTransGen (Move root) s.files (s.replace (placesIn folder name) u content).1.files := by
  have hwritten := node?_written s.files u.overwrites folder name content
  rw [replace_on u content hway]
  split_ifs with hdata hsidecar
  · exact ⟨rfl, .refl⟩
  all_goals rw [Tree.isDirectory_iff] at hdata hsidecar
  · exact ⟨rfl, .single (.write _ content hspot (hway folder (List.prefix_refl _)) hdata)⟩
  · refine ⟨rfl, .tail (.single (.write _ content hspot (hway folder (List.prefix_refl _)) hdata))
      (.describe _ hspot ?_ ?_ ?_)⟩
    · rw [Tree.isFile, hwritten, if_pos rfl]
    · rw [hwritten, if_neg (by simp), hway folder (List.prefix_refl _)]
    · rw [hwritten, if_neg (by simpa using (name_ne_sidecar name).symm)]
      exact hsidecar

theorem moves_put (s : DirectoryStore) (u : Upload) : (s.put u).1.root = s.root ∧
    ReflTransGen (Move (locationOf s.root)) s.files (s.put u).1.files := by
  cases hplaces : s.places u.key with
  | error e =>
    rw [put_refused hplaces]
    exact ⟨rfl, .refl⟩
  | ok p =>
    obtain ⟨hdata, -⟩ | ⟨folder, name, rfl, hspot⟩ := spot_cases hplaces
    · rw [put_nowhere hplaces hdata]
      exact ⟨rfl, .refl⟩
    obtain ⟨e, -, hput⟩ | ⟨made, hmade, hput⟩ := put_cases hplaces
    · rw [hput]
      exact ⟨rfl, .refl⟩
    have hway : ReflTransGen (Move (locationOf s.root)) s.files made := .single (.way hspot hmade)
    obtain ⟨e, -, hput⟩ | ⟨content, -, hput⟩ := hput
    · rw [hput]
      exact ⟨rfl, hway⟩
    · obtain ⟨hroot, hmoves⟩ := moves_replace (s := { s with files := made }) hspot u content
        fun q hq => Tree.node?_of_makeDirectory hmade hq
      rw [hput]
      exact ⟨hroot, hway.trans hmoves⟩

theorem moves_delete (s : DirectoryStore) (key : String) : (s.delete key).1.root = s.root ∧
    ReflTransGen (Move (locationOf s.root)) s.files (s.delete key).1.files := by
  cases hplaces : s.places key with
  | error e =>
    rw [delete_refused hplaces]
    exact ⟨rfl, .refl⟩
  | ok p =>
    obtain ⟨hdata, -⟩ | ⟨folder, name, rfl, hspot⟩ := spot_cases hplaces
    · rw [delete_nowhere hplaces hdata]
      exact ⟨rfl, .refl⟩
    obtain ⟨-, r, -, hdelete⟩ | ⟨files, hremove, hdelete⟩ := delete_cases hplaces
    · rw [hdelete]
      exact ⟨rfl, .refl⟩
    · rw [hdelete]
      exact ⟨rfl, .single (.remove hspot hremove)⟩

/-- **An access is a chain of moves.** -/
theorem moves_answer (s : DirectoryStore) (a : Access) : (s.answer a).1.root = s.root ∧
    ReflTransGen (Move (locationOf s.root)) s.files (s.answer a).1.files := by
  cases a with
  | get key | head key => exact ⟨rfl, .refl⟩
  | put u => exact moves_put s u
  | delete key => exact moves_delete s key

theorem moves_induction {P : Workspace → Prop} {files files' : Workspace}
    (hmove : ∀ {files files'}, P files → Move root files files' → P files') (h : P files)
    (hmoves : ReflTransGen (Move root) files files') : P files' := by
  induction hmoves with
  | refl => exact h
  | tail _ hstep ih => exact hmove ih hstep

/-- **What moves keep, runs keep.** -/
theorem answerAll_induction {P : Workspace → Prop}
    (hmove : ∀ {files files'}, P files → Move (locationOf s.root) files files' → P files')
    (as : List Access) (h : P s.files) :
    (s.answerAll as).1.root = s.root ∧ P (s.answerAll as).1.files := by
  induction as generalizing s with
  | nil => exact ⟨rfl, h⟩
  | cons a as ih =>
    obtain ⟨hroot, hmoves⟩ := moves_answer s a
    obtain ⟨hroot', hrest⟩ := ih (fun hfiles hstep => hmove hfiles (hroot ▸ hstep))
      (moves_induction hmove h hmoves)
    exact ⟨hroot'.trans hroot, hrest⟩

theorem root_answerAll (s : DirectoryStore) (as : List Access) :
    (s.answerAll as).1.root = s.root :=
  (answerAll_induction (P := fun _ => True) (fun _ _ => trivial) as trivial).1

theorem isTree_cleared {files : Workspace} (h : files.IsTree) (b : Bool) (q : Location) :
    (cleared files b q).IsTree := by
  unfold cleared
  split_ifs
  · cases hremove : files.remove q with
    | error f => exact h
    | ok files' => exact h.remove hremove
  · exact h

theorem isTree_move {files files' : Workspace} (h : files.IsTree) (hm : Move root files files') :
    files'.IsTree := by
  cases hm with
  | @way folder name _ hspot hmade =>
    exact h.makeDirectory (fun x hx => hspot.names x (by simp [hx])) hmade
  | @write folder name b content hspot hway hfree =>
    refine (isTree_cleared h b _).set_file hspot.names ?_ hfree
    rw [List.dropLast_concat, (node?_cleared files b _ folder).resolve_right (by simp), hway]
  | @describe folder name x hspot hfile hway hfree =>
    exact h.set_file hspot.sidecar_names (by rw [List.dropLast_concat, hway]) hfree
  | remove hspot hremove => exact isTree_cleared (h.remove hremove) _ _

theorem isTree_put (h : s.files.IsTree) (u : Upload) : (s.put u).1.files.IsTree :=
  moves_induction isTree_move h (moves_answer s (.put u)).2

theorem start_made {files : Workspace} {path : String} (hstart : start files path = .ok s) :
    files.makeDirectory (locationOf s.root) = .ok s.files := by
  unfold start at hstart
  dsimp only at hstart
  split at hstart
  · next made hmade =>
    cases hstart
    exact hmade
  · cases hstart

theorem isTree_start {files : Workspace} {path : String} (h : files.IsTree)
    (hstart : start files path = .ok s) : s.files.IsTree :=
  h.makeDirectory (fun _ hx => isFileName_of_mem_locationOf hx) (start_made hstart)

/-- Runs keep a tree a tree. -/
theorem isTree_answerAll (h : s.files.IsTree) (as : List Access) :
    (s.answerAll as).1.files.IsTree :=
  (answerAll_induction (fun hfiles hm => isTree_move hfiles hm) as h).2

end DirectoryStore

end Artifact

end ObjectLowering
