/-
  Storing that fails, in a store in a directory.

  * `leftover_of_put`: what stays behind: nothing, directories that were made on
    the way, or a file whose sidecar could not be written.
  * `Leftover.found`, `Leftover.sameFor`: neither shows in what is found or
    listed, nor in what becomes of keys that are aside.
  * `put_failure`: that, and whom it shows to.
-/
import ObjectLowering.Proofs.SameStores

namespace ObjectLowering

namespace Artifact

open Files Text

namespace DirectoryStore

variable {s s' : DirectoryStore} {u : Upload} {e : StoreError} {name : String}
  {folder : Location} {p : Places}

/-! ## What stays behind -/

/-- The directories on the way to a place are made for nothing: the content cannot be read, or the
    work is cancelled. -/
def MakesWay (s : DirectoryStore) (e : StoreError) (p : Places) : Prop :=
  (e = .canceled ∨ ∃ cause, e = .unreadable cause) ∧ s.files.node? p.data.dropLast = none

/-- The file is written, but a directory is in the place of its sidecar. -/
def WritesFile (s : DirectoryStore) (u : Upload) (e : StoreError) (p : Places) : Prop :=
  e = .backend ∧ s.files.node? p.sidecar = some .directory ∧
    (cleared s.files u.overwrites p.data).node? p.data ≠ some .directory

/-- The place of a file that is written has directories all the way. -/
theorem WritesFile.way (hfile : WritesFile s u e (placesIn folder name)) (h : s.files.IsTree)
    {q : Location} (hq : q <+: folder) : s.files.node? q = some .directory := by
  have hstands : s.files.node? (folder ++ [name ++ sidecarEnding]) ≠ none := fun hnone => by
    have hblocked := hfile.2.1.symm.trans hnone
    cases hblocked
  exact h.way hstands hq

/-- What storing that fails leaves behind. -/
inductive Leftover (s : DirectoryStore) (u : Upload) : DirectoryStore → StoreError → Prop
  | nothing {e : StoreError}
    (h : ∀ p, s.places u.key = .ok p → ¬ MakesWay s e p ∧ ¬ WritesFile s u e p) :
    Leftover s u s e
  | directories {p : Places} {made : Workspace} {e : StoreError} (hplaces : s.places u.key = .ok p)
    (h : MakesWay s e p) (hmade : s.files.makeDirectory p.data.dropLast = .ok made) :
    Leftover s u { s with files := made } e
  | file {p : Places} {content : String} {e : StoreError} (hplaces : s.places u.key = .ok p)
    (h : WritesFile s u e p) (hbody : u.body = .ok content) :
    Leftover s u { s with files := written s.files u.overwrites p.data content } e

/-- Only what is missing is made. -/
theorem makeDirectory_stands {files made : Workspace} (h : files.IsTree)
    (hmade : files.makeDirectory folder = .ok made) (hstands : files.node? folder ≠ none) :
    (∀ q, q <+: folder → files.node? q = some .directory) ∧ made = files := by
  have hdirectory := Tree.node?_of_makeDirectory hmade (List.prefix_refl folder)
  obtain ⟨n, hn⟩ := Option.ne_none_iff_exists'.1 hstands
  rw [(Tree.makeDirectory_ok hmade).2, hn, Option.some_or] at hdirectory
  have hfolder : ∀ q, q <+: folder → files.node? q = some .directory := by
    intro q hq
    by_cases he : q = folder
    · rw [he, hn, hdirectory]
    · exact h.above hstands hq he
  exact ⟨hfolder, Except.ok.inj (hmade.symm.trans (Tree.makeDirectory_self hfolder))⟩

/-- In a directory that was missing, nothing is in the way of a file. -/
theorem replace_in_made {made : Workspace} (u : Upload) (name content : String)
    (h : s.files.IsTree) (hmissing : s.files.node? folder = none)
    (hmade : s.files.makeDirectory folder = .ok made) :
    ({ s with files := made }.replace (placesIn folder name) u content).2 =
      .ok (s.described u content) := by
  have hway : ∀ q, q <+: folder → made.node? q = some .directory := fun q hq =>
    Tree.node?_of_makeDirectory hmade hq
  have hnone : ∀ a, made.node? (folder ++ [a]) = none := by
    intro a
    rw [(Tree.makeDirectory_ok hmade).2, if_neg (not_prefix_of_mem a), Option.or_none]
    exact h.below (by simp [hmissing]) (isBelow_concat (List.prefix_refl folder) a)
  have hdata : (cleared made u.overwrites (folder ++ [name])).node? (folder ++ [name]) = none := by
    rcases node?_cleared made u.overwrites (folder ++ [name]) (folder ++ [name]) with he | ⟨-, he⟩
    · rw [he, hnone]
    · exact he
  rw [replace_on u content hway, if_neg (by simp [Tree.isDirectory, hdata]),
    if_neg (by simp [Tree.isDirectory, hnone])]
  rfl

/-- A key has one place, so it is enough to look there. -/
theorem leftover_nothing (hplaces : s.places u.key = .ok p) (hway : ¬ MakesWay s e p)
    (hfile : ¬ WritesFile s u e p) : Leftover s u s e := by
  refine .nothing fun p' hp' => ?_
  obtain rfl := Except.ok.inj (hplaces.symm.trans hp')
  exact ⟨hway, hfile⟩

/-- Replacing an artifact fails only where its directory was there before. -/
theorem leftover_of_replace {made : Workspace} {content : String} (h : s.files.IsTree)
    (hplaces : s.places u.key = .ok (placesIn folder name))
    (hmade : s.files.makeDirectory folder = .ok made) (hbody : u.body = .ok content)
    (hreplace : { s with files := made }.replace (placesIn folder name) u content =
      (s', .error e)) : Leftover s u s' e := by
  by_cases hmissing : s.files.node? folder = none
  · have hok := replace_in_made u name content h hmissing hmade
    rw [hreplace] at hok
    cases hok
  · obtain ⟨hway, rfl⟩ := makeDirectory_stands h hmade hmissing
    rw [replace_on u content hway] at hreplace
    split_ifs at hreplace with hdata hblocked
    · cases hreplace
      rw [Tree.isDirectory_iff] at hdata
      exact leftover_nothing hplaces (fun hway => by simpa using hway.1) fun hfile =>
        hfile.2.2 hdata
    · cases hreplace
      rw [Tree.isDirectory_iff] at hdata hblocked
      exact .file hplaces ⟨rfl, hblocked, hdata⟩ hbody
    · cases hreplace

/-- **What storing leaves behind when it fails.** -/
theorem leftover_of_put (h : s.files.IsTree) (hput : s.put u = (s', .error e)) :
    Leftover s u s' e := by
  cases hplaces : s.places u.key with
  | error e' =>
    rw [put_refused hplaces] at hput
    cases hput
    exact .nothing fun p hp => by
      rw [hplaces] at hp
      cases hp
  | ok p =>
    obtain ⟨hdata, -⟩ | ⟨folder, name, rfl, -⟩ := spot_cases hplaces
    · -- the root of all files is always there
      rw [put_nowhere hplaces hdata] at hput
      cases hput
      refine leftover_nothing hplaces (fun hway => ?_) fun hfile => hfile.2.2 (by rw [hdata]; rfl)
      have hmissing := hway.2
      rw [hdata] at hmissing
      cases hmissing
    have hfolder : (placesIn folder name).data.dropLast = folder := List.dropLast_concat ..
    obtain ⟨e', hcause, hrefused⟩ | ⟨made, hmade, hput'⟩ := put_cases hplaces
    · rw [hrefused] at hput
      cases hput
      refine leftover_nothing hplaces (fun hway => ?_) fun hfile => ?_
      · obtain ⟨rfl | ⟨cause, rfl⟩, -⟩ := hway
        · simp at hcause
        · simp at hcause
      · -- the way to the sidecar is there, so it could be made
        obtain rfl := hfile.1
        obtain ⟨f, hf⟩ := (hcause.resolve_left (by simp)).2
        rw [Tree.makeDirectory_self fun q hq => hfile.way h hq] at hf
        cases hf
    obtain ⟨e', hcause, hstopped⟩ | ⟨content, hbody, hdone⟩ := hput'
    · rw [hstopped] at hput
      cases hput
      by_cases hmissing : s.files.node? folder = none
      · exact .directories hplaces ⟨hcause, by rw [hfolder, hmissing]⟩ (by rw [hfolder, hmade])
      · obtain ⟨-, rfl⟩ := makeDirectory_stands h hmade hmissing
        refine leftover_nothing hplaces (fun hway => hmissing (hfolder ▸ hway.2)) fun hfile => ?_
        obtain ⟨rfl, -⟩ := hfile
        simp at hcause
    · exact leftover_of_replace h hplaces hmade hbody (hdone.symm.trans hput)

/-! ## Who notices -/

/-- A file that is written has a name. -/
theorem WritesFile.placesIn (h : WritesFile s u e p) (hplaces : s.places u.key = .ok p) :
    ∃ folder name, p = placesIn folder name ∧ Spot (locationOf s.root) folder name := by
  obtain ⟨hdata, -⟩ | hspot := spot_cases hplaces
  · refine absurd ?_ h.2.2
    rw [hdata]
    rfl
  · exact hspot

/-- What can be found is the same. -/
theorem Leftover.found (hl : Leftover s u s' e) (h : s.files.IsTree) (h' : s'.files.IsTree)
    (key : String) : (∀ info, s'.head key = .ok info ↔ s.head key = .ok info) ∧
      ∀ r, s'.get key = .ok r ↔ s.get key = .ok r := by
  cases hl with
  | nothing => exact ⟨fun _ => Iff.rfl, fun _ => Iff.rfl⟩
  | @directories p made _ hplaces hway hmade =>
    have hread : ∀ q c, made.read q = .ok c ↔ s.files.read q = .ok c := fun q c => by
      rw [h'.read_iff, h.read_iff, Tree.file_makeDirectory hmade]
    exact found_congr rfl (fun p' _ c => hread _ c) fun p' _ d _ c => hread _ c
  | @file p content _ hplaces hfile hbody =>
    obtain ⟨folder, name, rfl, -⟩ := hfile.placesIn hplaces
    have hread : ∀ q c, q ≠ folder ++ [name] →
        ((written s.files u.overwrites (folder ++ [name]) content).read q = .ok c ↔
          s.files.read q = .ok c) := by
      intro q c hq
      have hwritten : (written s.files u.overwrites (folder ++ [name]) content).IsTree := h'
      rw [hwritten.read_iff, h.read_iff, node?_written, if_neg hq]
    obtain ⟨clean, hkey, hp⟩ := map_eq_ok.1 hplaces
    refine found_congr rfl (fun p' hp' c => hread _ c ?_) fun p' hp' d hd c => hread _ c ?_
    · obtain ⟨clean', hkey', rfl⟩ := map_eq_ok.1 hp'
      have hne := data_ne_sidecar (isStorageKey hkey) (isStorageKey hkey') s.root
      rw [hp] at hne
      exact hne.symm
    · -- no artifact is described by the directory in the place of the sidecar
      intro he
      obtain ⟨clean', hkey', rfl⟩ := map_eq_ok.1 hp'
      obtain rfl := data_injective hkey hkey' (he.trans (congrArg Places.data hp).symm)
      rw [h.read_iff, hp, hfile.2.1] at hd
      cases hd

/-- A place that what is left behind may show at: at or above the last directory that was made; at,
    above or below the file that was written. -/
inductive ShowsAt (s : DirectoryStore) (u : Upload) (e : StoreError) (p : Places) (q : Location) :
    Prop
  | directories (h : MakesWay s e p) (hq : q <+: p.data.dropLast)
  | file (h : WritesFile s u e p) (hq : q <+: p.data ∨ p.data <+: q)

/-- Elsewhere, the stores are the same. -/
theorem Leftover.sameFor (hl : Leftover s u s' e) (h : s.files.IsTree)
    (hplaces : s.places u.key = .ok p) (hroot : WritesFile s u e p → p.data ≠ locationOf s.root) :
    SameFor (fun q => ¬ ShowsAt s u e p q) (fun _ => true) s s' := by
  have hall : ∀ l : List (Location × Content), l = l.filter fun _ => true := fun l =>
    (List.filter_eq_self.2 fun _ _ => rfl).symm
  cases hl with
  | nothing => exact .refl s
  | @directories p' made _ hplaces' hway hmade =>
    obtain rfl := Except.ok.inj (hplaces.symm.trans hplaces')
    refine ⟨rfl, fun q a hq ha => ?_, fun q a _ _ => ?_, fun _ _ => rfl, ?_⟩
    · have hout : ¬ a <+: p.data.dropLast := fun hup => hq (.directories hway (ha.trans hup))
      change made.node? a = _
      rw [(Tree.makeDirectory_ok hmade).2, if_neg hout, Option.or_none]
    · rw [Bool.eq_iff_iff, Tree.isFile_iff, Tree.isFile_iff]
      exact exists_congr fun c => Tree.file_makeDirectory hmade
    · exact (sidecarsBelow_makeDirectory hmade).trans (hall _)
  | @file p' content _ hplaces' hfile hbody =>
    obtain rfl := Except.ok.inj (hplaces.symm.trans hplaces')
    obtain ⟨folder, name, rfl, hspot⟩ := hfile.placesIn hplaces
    have hnode := node?_written s.files u.overwrites folder name content
    refine ⟨rfl, fun q a hq ha => ?_, fun q a hq ha => ?_, fun _ _ => rfl, ?_⟩
    · have hne : a ≠ folder ++ [name] := by
        rintro rfl
        exact hq (.file hfile (Or.inl ha))
      exact (hnode a).trans (if_neg hne)
    · have hne : a ≠ folder ++ [name] := by
        rintro rfl
        rcases hq with hq | rfl
        · exact hq (.file hfile (Or.inr ha))
        · exact hroot hfile (ha.eq_of_length_le hspot.inside.length_le)
      have hsame := (hnode a).trans (if_neg hne)
      change (written s.files u.overwrites (folder ++ [name]) content).isFile a = _
      rw [Tree.isFile, Tree.isFile, hsame]
    · exact (sidecarsBelow_written h hspot u.overwrites content).trans (hall _)

theorem MakesWay.not_backend (h : MakesWay s e p) : e ≠ .backend := by
  rintro rfl
  simpa using h.1

/-- The last directory that was made is taken for an artifact. -/
theorem Leftover.delete_folder {key : String} {p' : Places} (hl : Leftover s u s' e)
    (h : s.files.IsTree) (h' : s'.files.IsTree) (hplaces : s.places u.key = .ok p)
    (hway : MakesWay s e p) (hplaces' : s.places key = .ok p')
    (hdata : p'.data = p.data.dropLast) :
    (s.delete key).2 = .ok false ∧ (s'.delete key).2 = .ok true := by
  have hmissing : s.files.node? p'.data = none := hdata ▸ hway.2
  cases hl with
  | nothing hno => exact absurd hway (hno p hplaces).1
  | file _ hfile _ => exact absurd hfile.1 hway.not_backend
  | @directories q made _ hq _ hmade =>
    obtain rfl := Except.ok.inj (hplaces.symm.trans hq)
    rw [← hdata] at hmade
    obtain ⟨hfree, hnode⟩ := Tree.makeDirectory_ok hmade
    refine ⟨delete_missing hplaces' (fun q hq _ => hfree q hq) hmissing, ?_⟩
    have hmade' : ({ s with files := made } : DirectoryStore).places key = .ok p' := hplaces'
    refine (delete_iff hmade').2 (Tree.IsTree.remove_iff h' |>.2 ⟨?_, ?_, fun a ha => ?_⟩)
    · intro he
      rw [he] at hmissing
      cases hmissing
    · change made.node? p'.data ≠ none
      rw [Tree.node?_of_makeDirectory hmade (List.prefix_refl _)]
      simp
    · change made.node? a = none
      obtain ⟨habove, hne⟩ := isBelow_iff.1 ha
      rw [hnode, if_neg fun hup => hne (hup.eq_of_length_le habove.length_le), Option.or_none]
      exact h.below (by simp [hmissing]) ha

/-- A file that was written is taken for an artifact, whatever was there before. -/
theorem Leftover.delete_file (hl : Leftover s u s' e) (h : s.files.IsTree)
    (h' : s'.files.IsTree) (hplaces : s.places u.key = .ok p) (hfile : WritesFile s u e p) :
    (s.delete u.key).2 = .ok (s.files.node? p.data).isSome ∧ (s'.delete u.key).2 = .ok true := by
  constructor
  · cases hnode : s.files.node? p.data with
    | none =>
      obtain ⟨folder, name, rfl, -⟩ := hfile.placesIn hplaces
      refine delete_missing hplaces (fun q hq hne => ?_) hnode
      have hfolder := (List.prefix_concat_iff.1 hq).resolve_left hne
      exact Tree.isFile_of_directory (hfile.way h hfolder)
    | some n =>
      refine (delete_iff hplaces).2 ?_
      cases n with
      | file c => exact h.remove_file hnode
      | directory =>
        have hfree := hfile.2.2
        unfold cleared at hfree
        split_ifs at hfree
        · cases hremove : s.files.remove p.data with
          | ok files => exact ⟨files, rfl⟩
          | error f =>
            rw [hremove] at hfree
            exact absurd hnode hfree
        · exact absurd hnode hfree
  · cases hl with
    | nothing hno => exact absurd hfile (hno p hplaces).2
    | directories _ hway _ => exact absurd hfile.1 hway.not_backend
    | @file q content _ hq _ hbody =>
      obtain rfl := Except.ok.inj (hplaces.symm.trans hq)
      have hwritten : ({ s with files := written s.files u.overwrites p.data content } :
        DirectoryStore).places u.key = .ok p := hplaces
      obtain ⟨folder, name, rfl, -⟩ := hfile.placesIn hplaces
      have hnode := node?_written s.files u.overwrites folder name content (folder ++ [name])
      exact (delete_iff hwritten).2 (Tree.IsTree.remove_file h' (hnode.trans (if_pos rfl)))

/-- What storing that fails does. -/
structure PutFailure (s : DirectoryStore) (u : Upload) (s' : DirectoryStore) (e : StoreError) :
    Prop where
  left : Leftover s u s' e
  /-- What can be found is the same. -/
  found : ∀ key, (∀ info, s'.head key = .ok info ↔ s.head key = .ok info) ∧
    ∀ r, s'.get key = .ok r ↔ s.get key = .ok r
  /-- Whatever is done later with keys that are aside is answered as if nothing had been stored, and
      so are listings, unless the root itself was replaced by a file. -/
  later : ∀ p, s.places u.key = .ok p → (WritesFile s u e p → p.data ≠ locationOf s.root) →
    ∀ as, (∀ a ∈ as, ∀ p', s.places (Access.key a) = .ok p' →
      ¬ ShowsAt s u e p p'.data ∧ ¬ ShowsAt s u e p p'.sidecar) →
      (s'.answerAll as).2 = (s.answerAll as).2 ∧
        ∀ front, (s'.answerAll as).1.list front = (s.answerAll as).1.list front
  /-- When directories were made, there is now something to delete under the key of the last. -/
  folder : ∀ p key p', s.places u.key = .ok p → MakesWay s e p → s.places key = .ok p' →
    p'.data = p.data.dropLast → (s.delete key).2 = .ok false ∧ (s'.delete key).2 = .ok true
  /-- When the file was written, there is now something to delete under its own key. -/
  file : ∀ p, s.places u.key = .ok p → WritesFile s u e p →
    (s.delete u.key).2 = .ok (s.files.node? p.data).isSome ∧ (s'.delete u.key).2 = .ok true

theorem putFailure_of_isTree (h : s.files.IsTree) (hput : s.put u = (s', .error e)) :
    PutFailure s u s' e := by
  have hleft := leftover_of_put h hput
  have h' : s'.files.IsTree := by
    have hstays := isTree_put h u
    rw [hput] at hstays
    exact hstays
  refine ⟨hleft, hleft.found h h', fun p hplaces hroot as has => ?_,
    fun p key p' hplaces hway => hleft.delete_folder h h' hplaces hway,
    fun p hplaces hfile => hleft.delete_file h h' hplaces hfile⟩
  have hrun := (hleft.sameFor h hplaces hroot).answerAll as has
  refine ⟨hrun.answer, fun front => ?_⟩
  rw [hrun.store.list (isTree_answerAll h' as), list_tree (isTree_answerAll h as),
    List.filter_eq_self.2 fun _ _ => rfl]

end DirectoryStore

open DirectoryStore (PutFailure isTree_start isTree_answerAll putFailure_of_isTree)

/-- **What storing that fails does** to a store, after any run. -/
theorem put_failure {files : Workspace} {s : DirectoryStore} {path : String} {u : Upload}
    {e : StoreError} (hstart : DirectoryStore.start files path = .ok s) (h : files.IsTree)
    (as : List Access) (hput : ((s.answerAll as).1.put u).2 = .error e) :
    PutFailure (s.answerAll as).1 u ((s.answerAll as).1.put u).1 e :=
  putFailure_of_isTree (isTree_answerAll (isTree_start h hstart) as) (Prod.ext rfl hput)

/-- A header that cannot be read is not stored beside another one. -/
theorem put_failure_of_header : ∃ s, DirectoryStore.start {} "/out" = .ok s ∧
    ∃ t, (s.answerAll [.put { key := "src/Ship.h", body := .ok "ship" }]).1 = t ∧
      PutFailure t { key := "lib/Buoy.h", body := .error "boom" }
        (t.put { key := "lib/Buoy.h", body := .error "boom" }).1 (.unreadable "boom") :=
  ⟨_, rfl, _, rfl, put_failure (rfl : DirectoryStore.start {} "/out" = .ok _) Tree.isTree_empty _
    (by decide +kernel)⟩

/-- The directory of a header that cannot be read stays behind, and can be deleted. -/
theorem put_failure_noticed : ∃ s, DirectoryStore.start {} "/out" = .ok s ∧
    (s.put { key := "src/Ship.h", body := .error "boom" }).2 = .error (.unreadable "boom") ∧
      (s.delete "src").2 = .ok false ∧
        ((s.put { key := "src/Ship.h", body := .error "boom" }).1.delete "src").2 = .ok true :=
  ⟨_, rfl, by decide +kernel, by decide +kernel, by decide +kernel⟩

/-- A header stays behind itself when a directory is in the place of its sidecar. -/
example : let s := (DirectoryStore.answerAll ⟨{}, "/out"⟩
      [.put { key := "Ship.h.meta/notes", body := .ok "mine" }]).1
    (s.put { key := "Ship.h", body := .ok "ship" }).2 = .error .backend ∧
      (s.delete "Ship.h").2 = .ok false ∧
        ((s.put { key := "Ship.h", body := .ok "ship" }).1.delete "Ship.h").2 = .ok true := by
  decide +kernel

end Artifact

end ObjectLowering
