/-
  What the answers of a store in a directory go by.

  * `list_tree`: a listing goes by the sidecars below the root.
  * `head_congr`, `get_congr`, `found_congr`: what is found goes by the sidecar
    and the file.
  * `SameFor.answerAll`: what a run answers goes by what is at the places of its
    keys and below, and by the files on the way there.
-/
import ObjectLowering.Proofs.StoreSteps

namespace ObjectLowering

namespace Artifact

open Files Text

namespace DirectoryStore

variable {s t : DirectoryStore} {key name : String} {folder root : Location} {p : Places}

/-! ## Sidecars in order -/

/-- The way from the root to a sidecar below it, and its content. -/
def sidecarBelow? (root : Location) : Location × Node Content → Option (Location × Content)
  | (q, .file c) =>
    if isBelow q root && (keyOfSidecar? (q.drop root.length)).isSome then
      some (q.drop root.length, c)
    else none
  | (_, .directory) => none

/-- The sidecars below a root. -/
def sidecarsBelow (files : Workspace) (root : Location) : List (Location × Content) :=
  files.nodes.filterMap (sidecarBelow? root)

theorem sidecarBelow?_eq_some {x : Location × Node Content} {y : Location × Content} :
    sidecarBelow? root x = some y ↔ x = (root ++ y.1, .file y.2) ∧ y.1 ≠ [] ∧
      (keyOfSidecar? y.1).isSome = true := by
  obtain ⟨q, n⟩ := x
  obtain ⟨way, c⟩ := y
  cases n with
  | directory => simp [sidecarBelow?]
  | file d =>
    rw [sidecarBelow?]
    constructor
    · intro h
      split_ifs at h with hsidecar
      rw [Bool.and_eq_true, isBelow_iff] at hsidecar
      obtain ⟨⟨⟨way', rfl⟩, hne⟩, hkey⟩ := hsidecar
      rw [List.drop_left] at h hkey
      cases h
      refine ⟨rfl, fun he => hne ?_, hkey⟩
      change way = [] at he
      rw [he, List.append_nil]
    · rintro ⟨he, hne, hkey⟩
      cases he
      have hbelow : isBelow (root ++ way) root = true :=
        isBelow_iff.2 ⟨List.prefix_append .., fun he => hne (by simpa using he)⟩
      rw [List.drop_left, hbelow, hkey]
      rfl

theorem mem_sidecarsBelow {files : Workspace} (h : files.IsTree) {y : Location × Content} :
    y ∈ sidecarsBelow files root ↔ y.1 ≠ [] ∧ (keyOfSidecar? y.1).isSome = true ∧
      files.node? (root ++ y.1) = some (.file y.2) := by
  rw [sidecarsBelow, List.mem_filterMap]
  constructor
  · rintro ⟨x, hx, hy⟩
    obtain ⟨rfl, hne, hkey⟩ := sidecarBelow?_eq_some.1 hy
    rw [Tree.node?, if_neg (by simp [hne])]
    exact ⟨hne, hkey, (lookup_eq_some_iff_mem h.alone).2 hx⟩
  · rintro ⟨hne, hkey, hnode⟩
    rw [Tree.node?, if_neg (by simp [hne])] at hnode
    exact ⟨_, (lookup_eq_some_iff_mem h.alone).1 hnode, sidecarBelow?_eq_some.2 ⟨rfl, hne, hkey⟩⟩

theorem keyOfSidecar?_eq_some {way : Location} {k : String} :
    keyOfSidecar? way = some k ↔ String.intercalate "/" way = k ++ sidecarEnding := by
  unfold keyOfSidecar?
  dsimp only
  generalize String.intercalate "/" way = text
  have htake : ∀ front : String, String.ofList ((front ++ sidecarEnding).toList.take
      ((front ++ sidecarEnding).length - sidecarEnding.length)) = front := by
    intro front
    rw [String.length_append, Nat.add_sub_cancel, String.toList_append, ← String.length_toList,
      List.take_left, String.ofList_toList]
  constructor
  · intro h
    split_ifs at h with hending
    obtain ⟨front, hfront⟩ := endsWith_iff.1 hending
    have htext : text = String.ofList front ++ sidecarEnding :=
      String.toList_inj.1 (by simpa using hfront.symm)
    rw [htext, htake] at h
    rw [htext, Option.some.inj h]
  · rintro rfl
    rw [htake, if_pos (endsWith_append k sidecarEnding)]

/-- The name of a sidecar that describes a key ends like one. -/
theorem eq_concat_of_keyOfSidecar? {way : Location} (hne : way ≠ [])
    (hkey : (keyOfSidecar? way).isSome = true) :
    ∃ before name, way = before ++ [name ++ sidecarEnding] := by
  obtain ⟨k, hk⟩ := Option.isSome_iff_exists.1 hkey
  rw [keyOfSidecar?_eq_some] at hk
  rcases List.eq_nil_or_concat way with rfl | ⟨before, last, rfl⟩
  · exact absurd rfl hne
  rw [List.concat_eq_append] at hk ⊢
  by_contra hnone
  have hlast : ∀ other, last ≠ other ++ sidecarEnding := fun other he =>
    hnone ⟨before, other, by rw [he]⟩
  refine not_suffix_of_ne hlast (Path.isFront_join false before) ?_
  have htext := hk
  rw [Path.intercalate_concat] at htext
  rw [if_neg Bool.false_ne_true, String.empty_append, htext, String.toList_append]
  exact List.suffix_append _ _

/-- No file is kept where one has its sidecar. -/
theorem Spot.ne_way {files : Workspace} (hspot : Spot root folder name) (h : files.IsTree)
    {x : Location × Content} (hx : x ∈ sidecarsBelow files root) :
    root ++ x.1 ≠ folder ++ [name] := by
  obtain ⟨hne, hkey, -⟩ := (mem_sidecarsBelow h).1 hx
  obtain ⟨before, other, hway⟩ := eq_concat_of_keyOfSidecar? hne hkey
  rw [hway, ← List.append_assoc]
  intro he
  obtain ⟨hfolder, hname⟩ := List.append_inj' he rfl
  exact hspot.not_sidecar (hfolder ▸ List.prefix_append ..) other (List.cons.inj hname).1.symm

/-- Sidecars are those of all nodes, so taking nodes away takes their sidecars away. -/
theorem sidecarsBelow_filter (l : List (Location × Node Content)) (q : Location) :
    sidecarsBelow ⟨l.filter fun x => x.1 != q⟩ root =
      (sidecarsBelow ⟨l⟩ root).filter fun x => root ++ x.1 != q := by
  rw [sidecarsBelow, sidecarsBelow, List.filterMap_filter, List.filter_filterMap]
  refine List.filterMap_congr fun x _ => ?_
  cases hx : sidecarBelow? root x with
  | none => simp
  | some y =>
    obtain ⟨rfl, -⟩ := sidecarBelow?_eq_some.1 hx
    simp [Option.filter]

theorem sidecarsBelow_set (files : Workspace) (q : Location) (n : Node Content) :
    sidecarsBelow (files.set q n) root = (sidecarBelow? root (q, n)).toList ++
      (sidecarsBelow files root).filter fun x => root ++ x.1 != q := by
  rw [← sidecarsBelow_filter, sidecarsBelow, sidecarsBelow, Tree.set]
  cases hx : sidecarBelow? root (q, n) <;> simp [hx]

/-- Writing a file leaves the sidecars as they are. -/
theorem sidecarsBelow_written {files : Workspace} (h : files.IsTree)
    (hspot : Spot root folder name) (b : Bool) (content : String) :
    sidecarsBelow (written files b (folder ++ [name]) content) root = sidecarsBelow files root := by
  have hfile : sidecarBelow? root (folder ++ [name], .file (.text content)) = none := by
    refine Option.eq_none_iff_forall_ne_some.2 fun y hy => ?_
    obtain ⟨he, hne, hkey⟩ := sidecarBelow?_eq_some.1 hy
    obtain ⟨before, other, hway⟩ := eq_concat_of_keyOfSidecar? hne hkey
    rw [Prod.mk.injEq, hway, ← List.append_assoc] at he
    obtain ⟨hfolder, hname⟩ := List.append_inj' he.1 rfl
    exact hspot.not_sidecar (hfolder ▸ List.prefix_append ..) other (List.cons.inj hname).1
  have hkept : (sidecarsBelow files root).filter (fun x => root ++ x.1 != folder ++ [name]) =
      sidecarsBelow files root :=
    List.filter_eq_self.2 fun x hx => bne_iff_ne.2 (hspot.ne_way h hx)
  rw [written, sidecarsBelow_set, hfile, Option.toList_none, List.nil_append, cleared]
  split_ifs
  · cases hremove : files.remove (folder ++ [name]) with
    | error f => exact hkept
    | ok removed =>
      obtain ⟨-, -, -, rfl⟩ := Tree.remove_ok hremove
      dsimp only
      rw [sidecarsBelow_filter, hkept, hkept]
  · exact hkept

/-- Making directories leaves the sidecars as they are. -/
theorem sidecarsBelow_makeDirectory {files files' : Workspace} {q : Location}
    (h : files.makeDirectory q = .ok files') :
    sidecarsBelow files' root = sidecarsBelow files root := by
  unfold Tree.makeDirectory at h
  split_ifs at h with hway
  obtain rfl := Except.ok.inj h
  clear h hway
  generalize ancestors q ++ [q] = qs
  induction qs generalizing files with
  | nil => rfl
  | cons a qs ih =>
    rw [List.foldl_cons, ih]
    split_ifs with hsome
    · rfl
    · have hnone : files.node? a = none := Option.not_isSome_iff_eq_none.1 hsome
      have ha : a ≠ [] := by
        rintro rfl
        cases hnone
      rw [sidecarsBelow_set files a .directory, List.filter_eq_self.2]
      · rfl
      · intro x hx
        obtain ⟨y, hy, hyx⟩ := List.mem_filterMap.1 hx
        obtain ⟨rfl, -⟩ := sidecarBelow?_eq_some.1 hyx
        rw [Tree.node?, if_neg ha, List.lookup_eq_none_iff] at hnone
        rw [bne_comm]
        exact hnone _ hy

/-- The description of a key whose sidecar has been found, if the sidecar can be read. -/
def readInfo (s : DirectoryStore) (x : String × Content) : Except StoreError Info :=
  match x.2.sidecar? with
  | some y => .ok (y.info x.1 (s.url x.1))
  | none => .error .backend

/-- The descriptions of keys, in order, when all sidecars can be read. -/
def readInfos (s : DirectoryStore) (found : List (String × Content)) :
    Except StoreError (List Info) := do
  return sortByKey (·.key) (← found.mapM s.readInfo)

/-- The keys of sidecars that start with a text, and the contents of the sidecars. -/
def keysOf (front : String) (found : List (Location × Content)) : List (String × Content) :=
  found.filterMap fun x =>
    ((keyOfSidecar? x.1).filter fun key => startsWith key front).map fun key => (key, x.2)

theorem list_eq (s : DirectoryStore) (front : String) : s.list front =
    match s.files.status (locationOf s.root) with
    | .error .missing => .ok []
    | .error .obstructed | .ok (.file _) => .error .backend
    | .ok .directory =>
      s.readInfos (keysOf front (sidecarsBelow s.files (locationOf s.root))) := by
  have hfound : keysOf front (s.files.filesBelow (locationOf s.root)) =
      keysOf front (sidecarsBelow s.files (locationOf s.root)) := by
    rw [keysOf, keysOf, Tree.filesBelow, sidecarsBelow, List.filterMap_filterMap,
      List.filterMap_filterMap]
    refine List.filterMap_congr fun x _ => ?_
    obtain ⟨q, n⟩ := x
    cases n with
    | directory => rfl
    | file c =>
      by_cases hbelow : isBelow q (locationOf s.root) = true
      · cases hkey : keyOfSidecar? (q.drop (locationOf s.root).length) <;>
          simp [sidecarBelow?, hbelow, hkey]
      · simp [sidecarBelow?, hbelow]
  unfold list
  cases s.files.status (locationOf s.root) with
  | error f => cases f <;> rfl
  | ok n =>
    cases n with
    | file c => rfl
    | directory => exact congrArg s.readInfos hfound

/-- A listing of a tree: nothing is below a root that is missing. -/
theorem list_tree (h : s.files.IsTree) (front : String) : s.list front =
    if (ancestors (locationOf s.root) ++ [locationOf s.root]).any s.files.isFile then
      .error .backend
    else s.readInfos (keysOf front (sidecarsBelow s.files (locationOf s.root))) := by
  rw [list_eq, Tree.status, List.any_append, List.any_cons, List.any_nil, Bool.or_false]
  cases hway : (ancestors (locationOf s.root)).any s.files.isFile with
  | true => simp
  | false =>
    cases hnode : s.files.node? (locationOf s.root) with
    | none =>
      have hempty : sidecarsBelow s.files (locationOf s.root) = [] := by
        refine List.eq_nil_iff_forall_not_mem.2 fun y hy => ?_
        obtain ⟨hne, -, hfile⟩ := (mem_sidecarsBelow h).1 hy
        have hnone := h.below (q := locationOf s.root ++ y.1) (by simp [hnode])
          (isBelow_iff.2 ⟨List.prefix_append .., fun he => hne (by simpa using he)⟩)
        rw [hnone] at hfile
        cases hfile
      have hnil : s.readInfos (keysOf front []) = .ok [] := by
        simp only [readInfos, keysOf, sortByKey, List.filterMap_nil, List.mapM_nil, pure_bind,
          List.mergeSort_nil]
        rfl
      simp [Tree.isFile, hnode, hempty, hnil]
    | some n => cases n <;> simp [Tree.isFile, hnode]

/-! ## What is found -/

theorem head_congr (hroot : t.root = s.root)
    (hread : ∀ p, s.places key = .ok p → t.files.read p.sidecar = s.files.read p.sidecar) :
    t.head key = s.head key := by
  have hplaces : t.places key = s.places key := by
    rw [DirectoryStore.places, DirectoryStore.places, hroot]
  rw [DirectoryStore.head, DirectoryStore.head, hplaces]
  refine bind_congr_ok fun p hp => ?_
  rw [sidecarAt, sidecarAt, hread p hp, url, url, hroot]

theorem get_congr (hroot : t.root = s.root)
    (hread : ∀ p, s.places key = .ok p → t.files.read p.data = s.files.read p.data ∧
      t.files.read p.sidecar = s.files.read p.sidecar) :
    t.get key = s.get key := by
  have hplaces : t.places key = s.places key := by
    rw [DirectoryStore.places, DirectoryStore.places, hroot]
  rw [DirectoryStore.get, DirectoryStore.get, hplaces,
    head_congr hroot fun p hp => (hread p hp).2]
  refine bind_congr fun info => bind_congr_ok fun p hp => ?_
  rw [(hread p hp).1]

/-- What is found goes by the sidecar, and by the file where there is a sidecar. -/
theorem found_congr (hroot : t.root = s.root)
    (hsidecar : ∀ p, s.places key = .ok p → ∀ c,
      t.files.read p.sidecar = .ok c ↔ s.files.read p.sidecar = .ok c)
    (hdata : ∀ p, s.places key = .ok p → ∀ d, s.files.read p.sidecar = .ok d → ∀ c,
      t.files.read p.data = .ok c ↔ s.files.read p.data = .ok c) :
    (∀ info, t.head key = .ok info ↔ s.head key = .ok info) ∧
      ∀ r, t.get key = .ok r ↔ s.get key = .ok r := by
  have hplaces : t.places key = s.places key := by
    rw [DirectoryStore.places, DirectoryStore.places, hroot]
  have hhead : ∀ info, t.head key = .ok info ↔ s.head key = .ok info := by
    intro info
    rw [head_ok, head_ok, hplaces, url, url, hroot]
    refine exists_congr fun p => and_congr_right fun hp => exists_congr fun x => ?_
    rw [sidecarAt_ok, sidecarAt_ok]
    refine and_congr_left fun _ => exists_congr fun c => ?_
    rw [hsidecar p hp]
  refine ⟨hhead, fun r => ?_⟩
  obtain ⟨info, content⟩ := r
  rw [get_ok, get_ok, hhead, hplaces]
  refine and_congr_right fun hinfo => exists_congr fun p => exists_congr fun c =>
    and_congr_right fun hp => ?_
  obtain ⟨p', hp', x, hx, -⟩ := head_ok.1 hinfo
  obtain rfl := Except.ok.inj (hp.symm.trans hp')
  obtain ⟨d, hd, -⟩ := sidecarAt_ok.1 hx
  rw [hdata p hp d hd]

/-- Where the sidecar cannot be read, nothing is found. -/
theorem not_found {f : Fault} (hplaces : s.places key = .ok p)
    (hread : s.files.read p.sidecar = .error f) :
    s.head key = .error (faultError key f) ∧ s.get key = .error (faultError key f) := by
  have hhead : s.head key = .error (faultError key f) := by
    rw [DirectoryStore.head, hplaces]
    change (s.sidecarAt p.sidecar).mapError _ >>= _ = _
    rw [sidecarAt, hread]
    rfl
  refine ⟨hhead, ?_⟩
  rw [DirectoryStore.get, hhead]
  rfl

/-! ## What a run goes by -/

/-- Two file trees have the same at some places and below, the same files on the way there and on
    the way to a root, and the same sidecars below the root but for some that are in none of the
    places. -/
structure SameAt (P : Location → Prop) (common : Location → Bool) (root : Location)
    (files files' : Workspace) : Prop where
  node : ∀ p q, P p → p <+: q → files'.node? q = files.node? q
  isFile : ∀ p q, P p ∨ p = root → q <+: p → files'.isFile q = files.isFile q
  within : ∀ p, P p → common p = true
  sidecars : sidecarsBelow files' root =
    (sidecarsBelow files root).filter fun x => common (root ++ x.1)

namespace SameAt

variable {P : Location → Prop} {common : Location → Bool} {files files' made made' : Workspace}
  {q : Location}

theorem status (h : SameAt P common root files files') (hq : P q) :
    files'.status q = files.status q :=
  Tree.status_congr (fun a ha => h.isFile q a (Or.inl hq) (mem_ancestors.1 ha).1)
    (h.node q q hq (List.prefix_refl q))

theorem read (h : SameAt P common root files files') (hq : P q) : files'.read q = files.read q := by
  rw [Tree.read, Tree.read, h.status hq]

theorem set (h : SameAt P common root files files') (hq : P q) (hne : q ≠ []) (n : Node Content) :
    SameAt P common root (files.set q n) (files'.set q n) where
  node p a hp ha := by rw [Tree.node?_set hne, Tree.node?_set hne, h.node p a hp ha]
  isFile p a hp ha := by
    rw [Tree.isFile, Tree.isFile, Tree.node?_set hne, Tree.node?_set hne]
    split_ifs
    · rfl
    · exact h.isFile p a hp ha
  within := h.within
  sidecars := by
    have hnew : (sidecarBelow? root (q, n)).toList.filter (fun x => common (root ++ x.1)) =
        (sidecarBelow? root (q, n)).toList := by
      refine List.filter_eq_self.2 fun x hx => ?_
      obtain ⟨he, -⟩ := sidecarBelow?_eq_some.1 (Option.mem_toList.1 hx)
      cases he
      exact h.within _ hq
    rw [sidecarsBelow_set, sidecarsBelow_set, h.sidecars, List.filter_append, hnew,
      List.filter_comm]

theorem remove (h : SameAt P common root files files') (hq : P q) :
    (∃ f, files.remove q = .error f ∧ files'.remove q = .error f) ∨
      ∃ t t', files.remove q = .ok t ∧ files'.remove q = .ok t' ∧ SameAt P common root t t' := by
  have hfull : (files'.nodes.any fun x => isBelow x.1 q) =
      (files.nodes.any fun x => isBelow x.1 q) := by
    rw [Bool.eq_iff_iff, Tree.any_isBelow, Tree.any_isBelow]
    refine exists_congr fun a => and_congr_right fun ha => ?_
    rw [h.node q a hq (isBelow_iff.1 ha).1]
  have hagree : files'.remove q = (files.remove q).map fun _ =>
      { nodes := files'.nodes.filter fun x => x.1 != q } := by
    rw [Tree.remove, Tree.remove, h.status hq, hfull]
    cases files.status q with
    | error f => rfl
    | ok n =>
      dsimp only
      split_ifs <;> rfl
  cases hremove : files.remove q with
  | error f =>
    rw [hremove] at hagree
    exact Or.inl ⟨f, rfl, hagree⟩
  | ok t =>
    rw [hremove] at hagree
    refine Or.inr ⟨t, _, rfl, hagree, fun p a hp ha => ?_, fun p a hp ha => ?_, h.within, ?_⟩
    · rw [Tree.node?_remove hagree, Tree.node?_remove hremove, h.node p a hp ha]
    · rw [Tree.isFile, Tree.isFile, Tree.node?_remove hagree, Tree.node?_remove hremove]
      split_ifs
      · rfl
      · exact h.isFile p a hp ha
    · obtain ⟨-, -, -, rfl⟩ := Tree.remove_ok hremove
      rw [sidecarsBelow_filter, sidecarsBelow_filter, List.filter_comm]
      exact congrArg _ h.sidecars

theorem cleared (h : SameAt P common root files files') (hq : P q) (b : Bool) :
    SameAt P common root (cleared files b q) (DirectoryStore.cleared files' b q) := by
  unfold DirectoryStore.cleared
  split_ifs
  · obtain ⟨f, hx, hy⟩ | ⟨t, t', hx, hy, hsame⟩ := h.remove hq
    · rw [hx, hy]
      exact h
    · rw [hx, hy]
      exact hsame
  · exact h

/-- The way to a place is made in both trees, or in none. -/
theorem makeDirectory (h : SameAt P common root files files') (hq : P (folder ++ [name])) :
    (∃ f, files.makeDirectory folder = .error f ∧ files'.makeDirectory folder = .error f) ∨
      ∃ made made', files.makeDirectory folder = .ok made ∧
        files'.makeDirectory folder = .ok made' ∧ SameAt P common root made made' := by
  have hfiles : ∀ q, q <+: folder → files'.isFile q = files.isFile q := fun q hqf =>
    h.isFile _ q (Or.inl hq) (hqf.trans (List.prefix_append ..))
  have hway : (ancestors folder ++ [folder]).any files'.isFile =
      (ancestors folder ++ [folder]).any files.isFile := by
    rw [Bool.eq_iff_iff, List.any_eq_true, List.any_eq_true]
    refine exists_congr fun a => and_congr_right fun ha => ?_
    rw [hfiles a (mem_way.1 ha)]
  have hdirectory : ∀ (t t' : Workspace) (a : Location),
      (∀ a, t'.node? a = (t.node? a).or (if a <+: folder then some .directory else none)) →
        t'.isFile a = t.isFile a := by
    intro t t' a hnode
    rw [Tree.isFile, Tree.isFile, hnode]
    cases t.node? a with
    | some n => rfl
    | none => split_ifs <;> rfl
  rcases files.makeDirectory_cases folder with ⟨hfile, hfail⟩ | ⟨hfree, made, hmade, hnode⟩
  · exact Or.inl ⟨_, hfail, by rw [Tree.makeDirectory, hway, if_pos hfile]⟩
  · obtain ⟨made', hmade', hnode'⟩ :=
      Tree.node?_makeDirectory fun q hqf => (hfiles q hqf).trans (hfree q hqf)
    refine Or.inr ⟨made, made', hmade, hmade', fun p a hp ha => ?_, fun p a hp ha => ?_, h.within,
      ?_⟩
    · rw [hnode, hnode', h.node p a hp ha]
    · rw [hdirectory files made a hnode, hdirectory files' made' a hnode', h.isFile p a hp ha]
    · rw [sidecarsBelow_makeDirectory hmade, sidecarsBelow_makeDirectory hmade', h.sidecars]

end SameAt

/-- Two stores have one root, and the same for the places in question. -/
structure SameFor (P : Location → Prop) (common : Location → Bool) (s t : DirectoryStore) :
    Prop where
  root : t.root = s.root
  files : SameAt P common (locationOf s.root) s.files t.files

/-- Two results are the same for the places in question. -/
structure SameResult {β : Type} (P : Location → Prop) (common : Location → Bool)
    (x y : DirectoryStore × β) : Prop where
  store : SameFor P common x.1 y.1
  answer : y.2 = x.2

namespace SameFor

variable {P : Location → Prop} {common : Location → Bool} {β : Type} {q : Location}

theorem refl (s : DirectoryStore) : SameFor P (fun _ => true) s s :=
  ⟨rfl, fun _ _ _ _ => rfl, fun _ _ _ _ => rfl, fun _ _ => rfl,
    (List.filter_eq_self.2 fun _ _ => rfl).symm⟩

theorem result (h : SameFor P common s t) (r : β) : SameResult P common (s, r) (t, r) := ⟨h, rfl⟩

theorem with_files (h : SameFor P common s t) {files files' : Workspace}
    (hfiles : SameAt P common (locationOf s.root) files files') :
    SameFor P common { s with files } { t with files := files' } := ⟨h.root, hfiles⟩

theorem places (h : SameFor P common s t) (key : String) : t.places key = s.places key := by
  rw [DirectoryStore.places, DirectoryStore.places, h.root]

theorem url (h : SameFor P common s t) (key : String) : t.url key = s.url key := by
  rw [DirectoryStore.url, DirectoryStore.url, h.root]

theorem described (h : SameFor P common s t) (u : Upload) (content : String) :
    t.described u content = s.described u content := by
  rw [DirectoryStore.described, DirectoryStore.described, h.url]

theorem sidecarAt (h : SameFor P common s t) (hq : P q) : t.sidecarAt q = s.sidecarAt q := by
  rw [DirectoryStore.sidecarAt, DirectoryStore.sidecarAt, h.files.read hq]

theorem read (h : SameFor P common s t) (hp : ∀ p, s.places key = .ok p → P p.data ∧ P p.sidecar) :
    ∀ p, s.places key = .ok p → t.files.read p.data = s.files.read p.data ∧
      t.files.read p.sidecar = s.files.read p.sidecar := fun p hplaces =>
  ⟨h.files.read (hp p hplaces).1, h.files.read (hp p hplaces).2⟩

theorem head (h : SameFor P common s t) (hp : ∀ p, s.places key = .ok p → P p.data ∧ P p.sidecar) :
    t.head key = s.head key :=
  head_congr h.root fun p hplaces => (h.read hp p hplaces).2

theorem get (h : SameFor P common s t) (hp : ∀ p, s.places key = .ok p → P p.data ∧ P p.sidecar) :
    t.get key = s.get key :=
  get_congr h.root (h.read hp)

theorem replace (h : SameFor P common s t) (hdata : P (folder ++ [name]))
    (hsidecar : P (folder ++ [name ++ sidecarEnding])) (u : Upload) (content : String)
    (hs : ∀ q, q <+: folder → s.files.node? q = some .directory)
    (ht : ∀ q, q <+: folder → t.files.node? q = some .directory) :
    SameResult P common (s.replace (placesIn folder name) u content)
      (t.replace (placesIn folder name) u content) := by
  have hcleared := h.files.cleared hdata u.overwrites
  have hwritten : SameAt P common (locationOf s.root)
      (written s.files u.overwrites (folder ++ [name]) content)
      (written t.files u.overwrites (folder ++ [name]) content) := hcleared.set hdata (by simp) _
  have hnode := hcleared.node _ _ hdata (List.prefix_refl _)
  have hnode' := h.files.node _ _ hsidecar (List.prefix_refl _)
  rw [replace_on u content hs, replace_on u content ht, Tree.isDirectory, Tree.isDirectory,
    Tree.isDirectory, Tree.isDirectory, hnode, hnode', h.described]
  split_ifs
  · exact h.result _
  · exact ⟨h.with_files hwritten, rfl⟩
  · exact ⟨h.with_files (hwritten.set hsidecar (by simp) _), rfl⟩

theorem put (h : SameFor P common s t) (u : Upload)
    (hp : ∀ p, s.places u.key = .ok p → P p.data ∧ P p.sidecar) :
    SameResult P common (s.put u) (t.put u) := by
  cases hplaces : s.places u.key with
  | error e =>
    rw [put_refused hplaces, put_refused ((h.places u.key).trans hplaces)]
    exact h.result _
  | ok p =>
    obtain ⟨hdata, hsidecar⟩ := hp p hplaces
    have hplaces' := (h.places u.key).trans hplaces
    obtain ⟨hnowhere, -⟩ | ⟨folder, name, rfl, -⟩ := spot_cases hplaces
    · rw [put_nowhere hplaces hnowhere, put_nowhere hplaces' hnowhere, h.sidecarAt hsidecar]
      exact h.result _
    have hfolder : (placesIn folder name).data.dropLast = folder := List.dropLast_concat ..
    unfold DirectoryStore.put
    rw [hplaces, hplaces']
    dsimp only
    rw [h.sidecarAt hsidecar, hfolder]
    by_cases htaken : (s.sidecarAt (placesIn folder name).sidecar).isOk ∧ !u.overwrites
    · rw [if_pos htaken, if_pos htaken]
      exact h.result _
    rw [if_neg htaken, if_neg htaken]
    obtain ⟨f, hx, hy⟩ | ⟨made, made', hx, hy, hsame⟩ := h.files.makeDirectory hdata
    · rw [hx, hy]
      exact h.result _
    rw [hx, hy]
    have hmade := h.with_files hsame
    cases u.body with
    | error cause => exact hmade.result _
    | ok content =>
      dsimp only
      split_ifs
      · exact hmade.result _
      · exact hmade.replace hdata hsidecar u content
          (fun q hq => Tree.node?_of_makeDirectory hx hq)
          fun q hq => Tree.node?_of_makeDirectory hy hq

theorem delete (h : SameFor P common s t)
    (hp : ∀ p, s.places key = .ok p → P p.data ∧ P p.sidecar) :
    SameResult P common (s.delete key) (t.delete key) := by
  cases hplaces : s.places key with
  | error e =>
    rw [delete_refused hplaces, delete_refused ((h.places key).trans hplaces)]
    exact h.result _
  | ok p =>
    obtain ⟨hdata, hsidecar⟩ := hp p hplaces
    rw [delete_eq hplaces, delete_eq ((h.places key).trans hplaces), h.files.status hdata]
    generalize s.files.status p.data = status
    obtain ⟨f, hx, hy⟩ | ⟨files, files', hx, hy, hsame⟩ := h.files.remove hdata
    · rw [hx, hy]
      rcases status with (_ | _) | n <;> exact h.result _
    · rw [hx, hy]
      have hcleared := h.with_files (hsame.cleared hsidecar true)
      rcases status with (_ | _) | n
      · exact h.result _
      · exact hcleared.result _
      · exact hcleared.result _

theorem answer (h : SameFor P common s t) (a : Access)
    (hp : ∀ p, s.places a.key = .ok p → P p.data ∧ P p.sidecar) :
    SameResult P common (s.answer a) (t.answer a) := by
  cases a with
  | put u => exact ⟨(h.put u hp).store, congrArg Outcome.described (h.put u hp).answer⟩
  | get key => exact ⟨h, congrArg Outcome.found (h.get hp)⟩
  | head key => exact ⟨h, congrArg Outcome.described (h.head hp)⟩
  | delete key => exact ⟨(h.delete hp).store, congrArg Outcome.deleted (h.delete hp).answer⟩

/-- **What a run answers goes by the places of its keys.** -/
theorem answerAll (h : SameFor P common s t) (as : List Access)
    (hp : ∀ a ∈ as, ∀ p, s.places a.key = .ok p → P p.data ∧ P p.sidecar) :
    SameResult P common (s.answerAll as) (t.answerAll as) := by
  induction as generalizing s t with
  | nil => exact h.result _
  | cons a as ih =>
    have hfirst := h.answer a (hp a List.mem_cons_self)
    have hplaces : ∀ key, (s.answer a).1.places key = s.places key := fun key => by
      rw [DirectoryStore.places, DirectoryStore.places, (moves_answer s a).1]
    have hrest := ih hfirst.store fun b hb p hbp =>
      hp b (List.mem_cons_of_mem _ hb) p ((hplaces b.key).symm.trans hbp)
    exact ⟨hrest.store, congrArg₂ List.cons hfirst.answer hrest.answer⟩

/-- What is listed goes by the sidecars that both stores have. -/
theorem list (h : SameFor P common s t) (ht : t.files.IsTree)
    (front : String) : t.list front =
      if (ancestors (locationOf s.root) ++ [locationOf s.root]).any s.files.isFile then
        .error .backend
      else s.readInfos (keysOf front
        ((sidecarsBelow s.files (locationOf s.root)).filter fun x =>
          common (locationOf s.root ++ x.1))) := by
  have hinfos : ∀ found, t.readInfos found = s.readInfos found := fun found => by
    have hinfo : t.readInfo = s.readInfo := funext fun x => by rw [readInfo, readInfo, h.url]
    rw [readInfos, readInfos, hinfo]
  have hway : (ancestors (locationOf s.root) ++ [locationOf s.root]).any t.files.isFile =
      (ancestors (locationOf s.root) ++ [locationOf s.root]).any s.files.isFile := by
    rw [Bool.eq_iff_iff, List.any_eq_true, List.any_eq_true]
    refine exists_congr fun a => and_congr_right fun ha => ?_
    rw [h.files.isFile _ a (Or.inr rfl) (mem_way.1 ha)]
  rw [list_tree ht, h.root, hway, hinfos, h.files.sidecars]

end SameFor

end DirectoryStore

end Artifact

end ObjectLowering
