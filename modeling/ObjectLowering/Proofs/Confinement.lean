/-
  What a store in a directory touches.

  * `Paired.write`, `Paired.makeDirectory`, `Paired.remove`: below a directory,
    an operation on files goes by what is there, and leaves the rest alone.
  * `answerAll_paired`: so does a store, access by access.
  * `confined`: the keys for which all of this holds, and what becomes of the
    root for the others.
-/
import ObjectLowering.Proofs.KeyPaths

namespace ObjectLowering

/-! ## Files below a directory -/

namespace Files

theorem isBelow_iff {p q : Location} : isBelow q p = true ↔ p <+: q ∧ q ≠ p := by
  rw [isBelow, Bool.and_eq_true, decide_eq_true_iff, List.isPrefixOf_iff_prefix]
  constructor
  · rintro ⟨hlength, habove⟩
    refine ⟨habove, ?_⟩
    rintro rfl
    exact lt_irrefl _ hlength
  · rintro ⟨habove, hne⟩
    refine ⟨lt_of_le_of_ne habove.length_le fun he => hne ?_, habove⟩
    exact (habove.eq_of_length he).symm

theorem not_isBelow_above {p q : Location} (h : q <+: p) : ¬ isBelow q p = true := fun hbelow =>
  (isBelow_iff.1 hbelow).2 (h.eq_of_length_le (isBelow_iff.1 hbelow).1.length_le)

namespace Tree

variable {α : Type}

/-- Two trees have a directory, and the same below it. -/
structure Paired (root : Location) (t u : Tree α) : Prop where
  left : ∀ q, q <+: root → t.node? q = some .directory
  right : ∀ q, q <+: root → u.node? q = some .directory
  below : ∀ q, isBelow q root = true → t.node? q = u.node? q

/-- Two trees changed in the same way below a directory, and nowhere else. -/
structure Moved (root : Location) (t u t' u' : Tree α) : Prop where
  left : ∀ q, ¬ isBelow q root = true → t'.node? q = t.node? q
  right : ∀ q, ¬ isBelow q root = true → u'.node? q = u.node? q
  below : ∀ q, isBelow q root = true → t'.node? q = u'.node? q

/-- Two operations fail in the same way, or make the same change below a directory. -/
inductive Alike (root : Location) (t u : Tree α) :
    Except Fault (Tree α) → Except Fault (Tree α) → Prop
  | fails (f : Fault) : Alike root t u (.error f) (.error f)
  | moves {t' u' : Tree α} (h : Moved root t u t' u') : Alike root t u (.ok t') (.ok u')

section
variable {root p q : Location} {t u t' u' t'' u'' : Tree α}

theorem Alike.cases {x y : Except Fault (Tree α)} (h : Alike root t u x y) :
    (∃ f, x = .error f ∧ y = .error f) ∨
      ∃ t' u', x = .ok t' ∧ y = .ok u' ∧ Moved root t u t' u' := by
  cases h with
  | fails f => exact Or.inl ⟨f, rfl, rfl⟩
  | moves h => exact Or.inr ⟨_, _, rfl, rfl, h⟩

theorem Paired.refl (h : Paired root t u) : Moved root t u t u :=
  ⟨fun _ _ => rfl, fun _ _ => rfl, h.below⟩

theorem Moved.trans (h : Moved root t u t' u') (h' : Moved root t' u' t'' u'') :
    Moved root t u t'' u'' :=
  ⟨fun q hq => (h'.left q hq).trans (h.left q hq), fun q hq => (h'.right q hq).trans (h.right q hq),
    h'.below⟩

theorem Paired.moved (h : Paired root t u) (h' : Moved root t u t' u') : Paired root t' u' :=
  ⟨fun q hq => (h'.left q (not_isBelow_above hq)).trans (h.left q hq),
    fun q hq => (h'.right q (not_isBelow_above hq)).trans (h.right q hq), h'.below⟩

/-- The trees have the same on the way to a place in the directory. -/
theorem Paired.node?_eq (h : Paired root t u) (hp : root <+: p) (hq : q <+: p) :
    t.node? q = u.node? q := by
  by_cases hup : q <+: root
  · rw [h.left q hup, h.right q hup]
  · refine h.below q (isBelow_iff.2 ⟨?_, ?_⟩)
    · exact (List.prefix_or_prefix_of_prefix hq hp).resolve_left hup
    · rintro rfl
      exact hup (List.prefix_refl _)

theorem Paired.any_isFile (h : Paired root t u) (hp : root <+: p) {qs : List Location}
    (hqs : ∀ q ∈ qs, q <+: p) : qs.any t.isFile = qs.any u.isFile := by
  rw [Bool.eq_iff_iff, List.any_eq_true, List.any_eq_true]
  refine exists_congr fun q => and_congr_right fun hq => ?_
  rw [isFile, isFile, h.node?_eq hp (hqs q hq)]

theorem Paired.status (h : Paired root t u) (hp : root <+: p) : t.status p = u.status p := by
  rw [Tree.status, Tree.status, h.node?_eq hp (List.prefix_refl p),
    h.any_isFile hp fun q hq => (mem_ancestors.1 hq).1]

theorem Paired.read (h : Paired root t u) (hp : root <+: p) : t.read p = u.read p := by
  rw [Tree.read, Tree.read, h.status hp]

theorem Paired.set (h : Paired root t u) (hp : isBelow p root = true) (n : Node α) :
    Moved root t u (t.set p n) (u.set p n) := by
  obtain ⟨habove, hne⟩ := isBelow_iff.1 hp
  have hp' : p ≠ [] := by
    rintro rfl
    exact hne (List.prefix_nil.1 habove).symm
  have hout : ∀ q, ¬ isBelow q root = true → q ≠ p := by
    rintro q hq rfl
    exact hq hp
  refine ⟨fun q hq => ?_, fun q hq => ?_, fun q hq => ?_⟩
  · rw [node?_set hp', if_neg (hout q hq)]
  · rw [node?_set hp', if_neg (hout q hq)]
  · rw [node?_set hp', node?_set hp', h.below q hq]

theorem Paired.write (h : Paired root t u) (hp : isBelow p root = true) (c : α) :
    Alike root t u (t.write p c) (u.write p c) := by
  obtain ⟨habove, hne⟩ := isBelow_iff.1 hp
  rw [Tree.write, Tree.write, h.status habove, h.status (prefix_dropLast habove hne.symm)]
  cases u.status p with
  | ok n =>
    cases n with
    | directory => exact .fails _
    | file d => exact .moves (h.set hp _)
  | error f =>
    cases f with
    | obstructed => exact .fails _
    | missing =>
      cases u.status p.dropLast with
      | ok n =>
        cases n with
        | directory => exact .moves (h.set hp _)
        | file d => exact .fails _
      | error f => exact .fails _

/-- A directory that is made in a place changes nothing if it stands there already. -/
theorem or_directory {x : Option (Node α)} {P : Prop} [Decidable P]
    (h : P → x = some .directory) : x.or (if P then some .directory else none) = x := by
  split_ifs with hp
  · rw [h hp]
    rfl
  · exact Option.or_none

/-- A directory can be made iff there is no file on the way to it. -/
theorem makeDirectory_cases (t : Tree α) (p : Location) :
    ((ancestors p ++ [p]).any t.isFile = true ∧ t.makeDirectory p = .error .obstructed) ∨
    ((∀ q, q <+: p → t.isFile q = false) ∧ ∃ t', t.makeDirectory p = .ok t' ∧
      ∀ q, t'.node? q = (t.node? q).or (if q <+: p then some .directory else none)) := by
  cases hfile : (ancestors p ++ [p]).any t.isFile with
  | true => exact Or.inl ⟨rfl, if_pos hfile⟩
  | false =>
    have hfree : ∀ q, q <+: p → t.isFile q = false := fun q hq => by
      simpa using List.any_eq_false.1 hfile q (mem_way.2 hq)
    exact Or.inr ⟨hfree, node?_makeDirectory hfree⟩

theorem Paired.makeDirectory (h : Paired root t u) (hp : root <+: p) :
    Alike root t u (t.makeDirectory p) (u.makeDirectory p) := by
  have hsame : (ancestors p ++ [p]).any t.isFile = (ancestors p ++ [p]).any u.isFile :=
    h.any_isFile hp fun q hq => mem_way.1 hq
  rcases t.makeDirectory_cases p with ⟨hfile, ht⟩ | ⟨hfree, t', ht, htnode⟩
  · rw [ht, Tree.makeDirectory, if_pos (hsame ▸ hfile)]
    exact .fails _
  · have hfree' : ∀ q, q <+: p → u.isFile q = false := fun q hq => by
      rw [isFile, ← h.node?_eq hp hq]
      exact hfree q hq
    obtain ⟨u', hu, hunode⟩ := node?_makeDirectory hfree'
    rw [ht, hu]
    -- what leads to the directory is there already
    have hup : ∀ q, ¬ isBelow q root = true → q <+: p → q <+: root := fun q hq hqp => by
      rcases List.prefix_or_prefix_of_prefix hqp hp with hle | hge
      · exact hle
      · have he : q = root := by
          by_contra hne
          exact hq (isBelow_iff.2 ⟨hge, hne⟩)
        exact he ▸ List.prefix_refl _
    refine .moves ⟨fun q hq => ?_, fun q hq => ?_, fun q hq => ?_⟩
    · rw [htnode, or_directory fun hqp => h.left q (hup q hq hqp)]
    · rw [hunode, or_directory fun hqp => h.right q (hup q hq hqp)]
    · rw [htnode, hunode, h.below q hq]

/-- Something lies below a location. -/
theorem any_isBelow : (t.nodes.any fun x => isBelow x.1 p) = true ↔
    ∃ q, isBelow q p = true ∧ t.node? q ≠ none := by
  have hnode : ∀ q, isBelow q p = true → t.node? q = t.nodes.lookup q := fun q hq => by
    have hne : q ≠ [] := by
      rintro rfl
      exact (isBelow_iff.1 hq).2 (List.prefix_nil.1 (isBelow_iff.1 hq).1).symm
    rw [node?, if_neg hne]
  rw [List.any_eq_true]
  constructor
  · rintro ⟨x, hx, hbelow⟩
    refine ⟨x.1, hbelow, fun he => ?_⟩
    rw [hnode _ hbelow, List.lookup_eq_none_iff] at he
    simpa using he x hx
  · rintro ⟨q, hbelow, hq⟩
    obtain ⟨n, hn⟩ := Option.ne_none_iff_exists'.1 (hnode q hbelow ▸ hq)
    obtain ⟨before, after, hsplit, -⟩ := List.lookup_eq_some_iff.1 hn
    exact ⟨(q, n), by simp [hsplit], hbelow⟩

theorem Paired.remove (h : Paired root t u) (hp : isBelow p root = true) :
    Alike root t u (t.remove p) (u.remove p) := by
  obtain ⟨habove, -⟩ := isBelow_iff.1 hp
  have hfull : (t.nodes.any fun x => isBelow x.1 p) = (u.nodes.any fun x => isBelow x.1 p) := by
    rw [Bool.eq_iff_iff, any_isBelow, any_isBelow]
    refine exists_congr fun q => and_congr_right fun hq => ?_
    rw [h.node?_eq (habove.trans (isBelow_iff.1 hq).1) (List.prefix_refl q)]
  have hstatus := h.status habove
  cases hnode : u.status p with
  | error f =>
    rw [Tree.remove, Tree.remove, hstatus, hnode]
    exact .fails f
  | ok n =>
    by_cases hblocked : p = [] ∨ (u.nodes.any fun x => isBelow x.1 p) = true
    · rw [Tree.remove, Tree.remove, hstatus, hnode, hfull, if_pos hblocked, if_pos hblocked]
      exact .fails _
    have ht : t.remove p = .ok { nodes := t.nodes.filter fun x => x.1 != p } := by
      rw [Tree.remove, hstatus, hnode, hfull]
      exact if_neg hblocked
    have hu : u.remove p = .ok { nodes := u.nodes.filter fun x => x.1 != p } := by
      rw [Tree.remove, hnode]
      exact if_neg hblocked
    have hout : ∀ q, ¬ isBelow q root = true → q ≠ p := by
      rintro q hq rfl
      exact hq hp
    rw [ht, hu]
    refine .moves ⟨fun q hq => ?_, fun q hq => ?_, fun q hq => ?_⟩
    · rw [node?_remove ht, if_neg (hout q hq)]
    · rw [node?_remove hu, if_neg (hout q hq)]
    · rw [node?_remove ht, node?_remove hu, h.below q hq]

/-! ### Directories that exist -/

theorem node?_of_makeDirectory (h : t.makeDirectory p = .ok t') (hq : q <+: p) :
    t'.node? q = some .directory := by
  rcases t.makeDirectory_cases p with ⟨-, ht⟩ | ⟨hfree, u, hu, hnode⟩
  · rw [ht] at h
    cases h
  · obtain rfl : u = t' := Except.ok.inj (hu.symm.trans h)
    rw [hnode, if_pos hq]
    cases hbefore : t.node? q with
    | none => rfl
    | some n =>
      cases n with
      | directory => rfl
      | file c => exact absurd hbefore (isFile_eq_false.1 (hfree q hq) c)

/-- A directory that exists can be made again. -/
theorem makeDirectory_again (h : ∀ q, q <+: p → t.node? q = some .directory) :
    ∃ t', t.makeDirectory p = .ok t' ∧ ∀ q, t'.node? q = t.node? q := by
  obtain ⟨t', hmade, hnode⟩ := node?_makeDirectory fun q hq => isFile_of_directory (h q hq)
  exact ⟨t', hmade, fun q => (hnode q).trans (or_directory (h q))⟩

theorem status_directory (h : ∀ q, q <+: p → t.node? q = some .directory) :
    t.status p = .ok .directory := by
  rw [status_of_free fun q hq _ => isFile_of_directory (h q hq), h p (List.prefix_refl p)]

/-- An empty directory can be removed. -/
theorem remove_empty (h : ∀ q, q <+: p → t.node? q = some .directory) (hp : p ≠ [])
    (hempty : ∀ q, isBelow q p = true → t.node? q = none) : ∃ t', t.remove p = .ok t' := by
  have hbelow : ¬ (t.nodes.any fun x => isBelow x.1 p) = true := by
    rw [any_isBelow]
    rintro ⟨q, hq, hne⟩
    exact hne (hempty q hq)
  rw [Tree.remove, status_directory h]
  exact ⟨_, if_neg (not_or.2 ⟨hp, hbelow⟩)⟩

end

end Tree

end Files

namespace Artifact

open Files Text
open DirectoryStore (placesIn)

/-! ## Accesses -/

/-- What is asked of a store about one key. -/
inductive Access where
  | put (u : Upload)
  | get (key : String)
  | head (key : String)
  | delete (key : String)

/-- The key that is asked about. -/
def Access.key : Access → String
  | put u => u.key
  | get key | head key | delete key => key

/-- What a store answers. -/
inductive Outcome where
  | described (r : Except StoreError Info)
  | found (r : Except StoreError (Info × String))
  | deleted (r : Except StoreError Bool)

namespace DirectoryStore

/-- The answer to one access, and the store after it. -/
def answer (s : DirectoryStore) : Access → DirectoryStore × Outcome
  | .put u => ((s.put u).1, .described (s.put u).2)
  | .get key => (s, .found (s.get key))
  | .head key => (s, .described (s.head key))
  | .delete key => ((s.delete key).1, .deleted (s.delete key).2)

/-- The answers to accesses one after the other, and the store after them. -/
def answerAll (s : DirectoryStore) : List Access → DirectoryStore × List Outcome
  | [] => (s, [])
  | a :: rest =>
    let (s, o) := s.answer a
    let (s, os) := s.answerAll rest
    (s, o :: os)

/-- Two stores have one root, with the same in it. -/
structure Paired (s t : DirectoryStore) : Prop where
  root : s.root = t.root
  files : Tree.Paired (locationOf s.root) s.files t.files

/-- Two stores answer in the same way and change in the same way, below their root only. -/
structure Agree {β : Type} (s t : DirectoryStore) (x y : DirectoryStore × β) : Prop where
  left : x.1.root = s.root
  right : y.1.root = t.root
  files : Tree.Moved (locationOf s.root) s.files t.files x.1.files y.1.files
  answer : x.2 = y.2

section
variable {β : Type} {s t : DirectoryStore} {folder q : Location} {key name : String}

theorem Paired.agree (h : s.Paired t) {r r' : β} (hr : r = r') : Agree s t (s, r) (t, r') :=
  ⟨rfl, rfl, h.files.refl, hr⟩

theorem Paired.moved (h : s.Paired t) {files files' : Workspace}
    (hmoved : Tree.Moved (locationOf s.root) s.files t.files files files') :
    Paired { s with files } { t with files := files' } :=
  ⟨h.root, h.files.moved hmoved⟩

/-- What follows a change follows from the stores before it. -/
theorem Agree.after {files files' : Workspace} {x y : DirectoryStore × β}
    (hmoved : Tree.Moved (locationOf s.root) s.files t.files files files')
    (h : Agree { s with files } { t with files := files' } x y) : Agree s t x y :=
  ⟨h.left, h.right, hmoved.trans h.files, h.answer⟩

theorem Agree.paired (h : s.Paired t) {x y : DirectoryStore × β} (h' : Agree s t x y) :
    x.1.Paired y.1 := by
  refine ⟨by rw [h'.left, h'.right, h.root], ?_⟩
  rw [h'.left]
  exact h.files.moved h'.files

/-- A key that does not stand for the root is refused, or leads to a place below the root. -/
theorem places_cases (s : DirectoryStore) (hkey : storageKey key ≠ .ok ".") :
    (∃ e, s.places key = .error e) ∨ ∃ folder name, s.places key = .ok (placesIn folder name) ∧
      locationOf s.root <+: folder := by
  cases hclean : storageKey key with
  | error e => exact Or.inl ⟨e, by rw [places, hclean]; rfl⟩
  | ok clean =>
    have hdot : clean ≠ "." := by
      rintro rfl
      exact hkey hclean
    obtain ⟨folder, -, last, hplaces, hfolder, -⟩ := (isStorageKey hclean).placesOf hdot s.root
    refine Or.inr ⟨folder, last, ?_, hfolder⟩
    rw [places, hclean, ← hplaces]
    rfl

theorem Paired.places (h : s.Paired t) (key : String) : t.places key = s.places key := by
  rw [DirectoryStore.places, DirectoryStore.places, h.root]

theorem Paired.url (h : s.Paired t) (key : String) : t.url key = s.url key := by
  rw [DirectoryStore.url, DirectoryStore.url, h.root]

theorem Paired.described (h : s.Paired t) (u : Upload) (content : String) :
    t.described u content = s.described u content := by
  rw [DirectoryStore.described, DirectoryStore.described, h.url]

theorem isBelow_concat {root : Location} (h : root <+: folder) (name : String) :
    isBelow (folder ++ [name]) root = true := by
  refine isBelow_iff.2 ⟨h.trans (List.prefix_append ..), ?_⟩
  rintro rfl
  exact not_prefix_of_mem name h

theorem Paired.sidecarAt (h : s.Paired t) (hq : locationOf s.root <+: q) :
    t.sidecarAt q = s.sidecarAt q := by
  rw [DirectoryStore.sidecarAt, DirectoryStore.sidecarAt, h.files.read hq]

theorem Paired.head (h : s.Paired t) (hkey : storageKey key ≠ .ok ".") :
    t.head key = s.head key := by
  rw [DirectoryStore.head, DirectoryStore.head, h.places]
  rcases s.places_cases hkey with ⟨e, hplaces⟩ | ⟨folder, name, hplaces, hfolder⟩
  · rw [hplaces]
    rfl
  · have hsidecar : t.sidecarAt (placesIn folder name).sidecar =
        s.sidecarAt (placesIn folder name).sidecar :=
      h.sidecarAt (hfolder.trans (List.prefix_append ..))
    rw [hplaces, h.url]
    change (t.sidecarAt (placesIn folder name).sidecar).mapError _ >>= _ =
      (s.sidecarAt (placesIn folder name).sidecar).mapError _ >>= _
    rw [hsidecar]

theorem Paired.get (h : s.Paired t) (hkey : storageKey key ≠ .ok ".") :
    t.get key = s.get key := by
  rw [DirectoryStore.get, DirectoryStore.get, h.places, h.head hkey]
  refine bind_congr fun info => ?_
  rcases s.places_cases hkey with ⟨e, hplaces⟩ | ⟨folder, name, hplaces, hfolder⟩
  · rw [hplaces]
    rfl
  · have hread : s.files.read (placesIn folder name).data =
        t.files.read (placesIn folder name).data :=
      h.files.read (hfolder.trans (List.prefix_append ..))
    rw [hplaces]
    change (t.files.read (placesIn folder name).data).mapError _ >>= _ =
      (s.files.read (placesIn folder name).data).mapError _ >>= _
    rw [hread]

theorem Paired.cleared (h : s.Paired t) (hq : isBelow q (locationOf s.root) = true) (b : Bool) :
    Tree.Moved (locationOf s.root) s.files t.files (cleared s.files b q) (cleared t.files b q) := by
  unfold DirectoryStore.cleared
  split_ifs
  · rcases (h.files.remove hq).cases with ⟨f, hx, hy⟩ | ⟨files, files', hx, hy, hmoved⟩
    · rw [hx, hy]
      exact h.files.refl
    · rw [hx, hy]
      exact hmoved
  · exact h.files.refl

/-- Replacing an artifact below the root. -/
theorem Paired.replace (h : s.Paired t) (hfolder : locationOf s.root <+: folder) (u : Upload)
    (content : String) : Agree s t (s.replace (placesIn folder name) u content)
      (t.replace (placesIn folder name) u content) := by
  have hcleared := h.cleared (isBelow_concat hfolder name) u.overwrites
  have hpaired := h.moved hcleared
  rw [replace_eq, replace_eq, h.described]
  rcases (hpaired.files.write (isBelow_concat hfolder name) (.text content)).cases with
    ⟨f, hx, hy⟩ | ⟨files, files', hx, hy, hdata⟩
  · rw [hx, hy]
    exact .after hcleared (hpaired.agree rfl)
  · rw [hx, hy]
    dsimp only
    have hwritten := hpaired.moved hdata
    rcases (hwritten.files.write (isBelow_concat hfolder (name ++ sidecarEnding))
      (.sidecar (.ofInfo (s.described u content)))).cases with
      ⟨f, hx, hy⟩ | ⟨files, files', hx, hy, hsidecar⟩
    · rw [hx, hy]
      exact .after hcleared (.after hdata (hwritten.agree rfl))
    · rw [hx, hy]
      exact .after hcleared (.after hdata (.after hsidecar ((hwritten.moved hsidecar).agree rfl)))

/-- A key without places is not stored. -/
theorem put_refused {u : Upload} {e : StoreError} (hplaces : s.places u.key = .error e) :
    s.put u = (s, .error e) := by
  unfold DirectoryStore.put
  rw [hplaces]

/-- A key without places is not removed. -/
theorem delete_refused {e : StoreError} (hplaces : s.places key = .error e) :
    s.delete key = (s, .error e) := by
  unfold DirectoryStore.delete
  rw [hplaces]

/-- Storing an artifact below the root. -/
theorem Paired.put (h : s.Paired t) {u : Upload} (hkey : storageKey u.key ≠ .ok ".") :
    Agree s t (s.put u) (t.put u) := by
  rcases s.places_cases hkey with ⟨e, hplaces⟩ | ⟨folder, name, hplaces, hfolder⟩
  · rw [put_refused hplaces, put_refused ((h.places u.key).trans hplaces)]
    exact h.agree rfl
  have hsidecar : t.sidecarAt (placesIn folder name).sidecar =
      s.sidecarAt (placesIn folder name).sidecar :=
    h.sidecarAt (hfolder.trans (List.prefix_append ..))
  have hdirectory : (placesIn folder name).data.dropLast = folder := List.dropLast_concat ..
  unfold DirectoryStore.put
  rw [h.places, hplaces]
  dsimp only
  rw [hsidecar, hdirectory]
  by_cases htaken : (s.sidecarAt (placesIn folder name).sidecar).isOk ∧ !u.overwrites
  · rw [if_pos htaken, if_pos htaken]
    exact h.agree rfl
  rw [if_neg htaken, if_neg htaken]
  rcases (h.files.makeDirectory hfolder).cases with ⟨f, hx, hy⟩ | ⟨files, files', hx, hy, hmade⟩
  · rw [hx, hy]
    exact h.agree rfl
  rw [hx, hy]
  refine .after hmade ?_
  cases u.body with
  | error cause => exact (h.moved hmade).agree rfl
  | ok content =>
    dsimp only
    split_ifs
    · exact (h.moved hmade).agree rfl
    · exact (h.moved hmade).replace hfolder u content

theorem delete_eq {p : Places} (hplaces : s.places key = .ok p) : s.delete key =
    match s.files.status p.data, s.files.remove p.data with
    | .error .missing, _ => (s, .ok false)
    | _, .error _ => (s, .error .backend)
    | _, .ok files => ({ s with files := cleared files true p.sidecar }, .ok true) := by
  unfold DirectoryStore.delete
  rw [hplaces]
  dsimp only
  cases s.files.remove p.data with
  | error f => rcases s.files.status p.data with (_ | _) | n <;> rfl
  | ok files =>
    rcases s.files.status p.data with (_ | _) | n
    · rfl
    all_goals
      dsimp only
      rw [cleared, if_pos rfl]
      cases files.remove p.sidecar <;> rfl

/-- Removing an artifact below the root. -/
theorem Paired.delete (h : s.Paired t) (hkey : storageKey key ≠ .ok ".") :
    Agree s t (s.delete key) (t.delete key) := by
  rcases s.places_cases hkey with ⟨e, hplaces⟩ | ⟨folder, name, hplaces, hfolder⟩
  · rw [delete_refused hplaces, delete_refused ((h.places key).trans hplaces)]
    exact h.agree rfl
  have hdata : (placesIn folder name).data = folder ++ [name] := rfl
  rw [delete_eq hplaces, delete_eq ((h.places key).trans hplaces), hdata,
    h.files.status (hfolder.trans (List.prefix_append ..))]
  generalize t.files.status (folder ++ [name]) = status
  rcases (h.files.remove (isBelow_concat hfolder name)).cases with
    ⟨f, hx, hy⟩ | ⟨files, files', hx, hy, hremoved⟩
  · rw [hx, hy]
    rcases status with (_ | _) | n <;> exact h.agree rfl
  · have hpaired := h.moved hremoved
    have hcleared := hpaired.cleared (isBelow_concat hfolder (name ++ sidecarEnding)) true
    rw [hx, hy]
    rcases status with (_ | _) | n
    · exact h.agree rfl
    · exact .after hremoved (.after hcleared ((hpaired.moved hcleared).agree rfl))
    · exact .after hremoved (.after hcleared ((hpaired.moved hcleared).agree rfl))

/-- **Below the root, a store goes by what is there**, and leaves the rest alone. -/
theorem Paired.answer (h : s.Paired t) {a : Access} (ha : storageKey a.key ≠ .ok ".") :
    Agree s t (s.answer a) (t.answer a) := by
  cases a with
  | put u =>
    have hput := h.put (u := u) ha
    exact { hput with answer := congrArg Outcome.described hput.answer }
  | get key => exact h.agree (congrArg Outcome.found (h.get ha).symm)
  | head key => exact h.agree (congrArg Outcome.described (h.head ha).symm)
  | delete key =>
    have hdelete : Agree s t (s.delete key) (t.delete key) := h.delete ha
    exact { hdelete with answer := congrArg Outcome.deleted hdelete.answer }

/-- **So does a store in a whole run.** -/
theorem answerAll_paired (h : s.Paired t) {as : List Access}
    (has : ∀ a ∈ as, storageKey a.key ≠ .ok ".") : Agree s t (s.answerAll as) (t.answerAll as) := by
  induction as generalizing s t with
  | nil => exact h.agree rfl
  | cons a as ih =>
    have hfirst := h.answer (has a List.mem_cons_self)
    have hrest := ih (hfirst.paired h) fun b hb => has b (List.mem_cons_of_mem _ hb)
    refine ⟨hrest.left.trans hfirst.left, hrest.right.trans hfirst.right, ?_, ?_⟩
    · refine hfirst.files.trans ?_
      rw [← hfirst.left]
      exact hrest.files
    · exact congrArg₂ List.cons hfirst.answer hrest.answer

/-! ### The key of the root -/

/-- The key of the root removes the root when nothing is in it. -/
theorem delete_root (hplaces : s.places key = .ok (placesIn folder name))
    (hstands : ∀ q, q <+: folder ++ [name] → s.files.node? q = some .directory)
    (hempty : ∀ q, isBelow q (folder ++ [name]) = true → s.files.node? q = none) :
    (s.delete key).2 = .ok true ∧ (s.delete key).1.files.node? (folder ++ [name]) = none := by
  obtain ⟨files, hremove⟩ := Tree.remove_empty hstands (by simp) hempty
  have hdata : (placesIn folder name).data = folder ++ [name] := rfl
  rw [delete_eq hplaces, hdata, Tree.status_directory hstands, hremove]
  refine ⟨rfl, ?_⟩
  have hgone : files.node? (folder ++ [name]) = none := by
    rw [Tree.node?_remove hremove, if_pos rfl]
  rcases node?_cleared files true (placesIn folder name).sidecar (folder ++ [name]) with h | ⟨-, h⟩
  · exact h.trans hgone
  · exact h

/-- What replaces an empty root is a file in its place. -/
theorem replace_root {u : Upload} (content : String)
    (hstands : ∀ q, q <+: folder ++ [name] → s.files.node? q = some .directory)
    (hempty : ∀ q, isBelow q (folder ++ [name]) = true → s.files.node? q = none)
    (hoverwrites : u.overwrites = true) :
    (s.replace (placesIn folder name) u content).1.files.node? (folder ++ [name]) =
      some (.file (.text content)) := by
  obtain ⟨files, hremove⟩ := Tree.remove_empty hstands (by simp) hempty
  have hcleared : cleared s.files u.overwrites (folder ++ [name]) = files := by
    rw [cleared, if_pos hoverwrites, hremove]
  have hgone : files.node? (folder ++ [name]) = none := by
    rw [Tree.node?_remove hremove, if_pos rfl]
  have hway : ∀ q, q <+: folder → files.node? q = some .directory := fun q hq => by
    rw [Tree.node?_remove hremove, if_neg fun he => not_prefix_of_mem name (he ▸ hq),
      hstands q (hq.trans (List.prefix_append ..))]
  have hwrite := write_in (c := Content.text content) hway (a := name) (by rw [hgone]; simp)
  have hfile : (files.set (folder ++ [name]) (.file (Content.text content))).node?
      (folder ++ [name]) = some (.file (.text content)) := by
    rw [Tree.node?_set (by simp), if_pos rfl]
  rw [replace_eq, hcleared, hwrite]
  dsimp only
  split
  · exact hfile
  · next written hsidecar =>
    obtain ⟨hne, rfl, -⟩ := Tree.write_ok hsidecar
    rw [Tree.node?_set hne, if_neg (by simpa using name_ne_sidecar name)]
    exact hfile

/-- An artifact with the key of the root takes the place of the root when nothing is in it. -/
theorem put_root {u : Upload} {content : String}
    (hplaces : s.places u.key = .ok (placesIn folder name))
    (hstands : ∀ q, q <+: folder ++ [name] → s.files.node? q = some .directory)
    (hempty : ∀ q, isBelow q (folder ++ [name]) = true → s.files.node? q = none)
    (hbody : u.body = .ok content) (hoverwrites : u.overwrites = true)
    (hcanceled : u.isCanceled = false) :
    (s.put u).1.files.node? (folder ++ [name]) = some (.file (.text content)) := by
  obtain ⟨files, hmade, hsame⟩ := Tree.makeDirectory_again fun q hq =>
    hstands q (hq.trans (List.prefix_append folder [name]))
  have hdirectory : (placesIn folder name).data.dropLast = folder := List.dropLast_concat ..
  have hnew : ¬ ((s.sidecarAt (placesIn folder name).sidecar).isOk ∧ !u.overwrites) := by
    simp [hoverwrites]
  have hgoes : ¬ u.isCanceled = true := by simp [hcanceled]
  unfold DirectoryStore.put
  rw [hplaces]
  dsimp only
  rw [if_neg hnew, hdirectory, hmade, hbody]
  dsimp only
  rw [if_neg hgoes]
  exact replace_root content (fun q hq => (hsame q).trans (hstands q hq))
    (fun q hq => (hsame q).trans (hempty q hq)) hoverwrites

/-! ## Stores that were started -/

theorem start_ok {files : Workspace} {root : String} (h : start files root = .ok s) :
    s.root = (if root = "" then defaultRoot else root) ∧
      ∀ q, q <+: locationOf s.root → s.files.node? q = some .directory := by
  unfold start at h
  dsimp only at h
  split at h
  · next made hmade =>
    cases h
    exact ⟨rfl, fun q hq => Tree.node?_of_makeDirectory hmade hq⟩
  · cases h

end

end DirectoryStore

/-- What a store in a directory touches. -/
structure Confinement (root : String) : Prop where
  /-- Both paths of a key lie below the root, unless the key stands for the root. -/
  paths : ∀ key clean, storageKey key = .ok clean →
    ((Path.IsInside root (Path.join root clean) ∧
      Path.IsInside root (Path.join root clean ++ sidecarEnding)) ↔ clean ≠ ".")
  /-- No artifact is kept where one has its sidecar. -/
  apart : ∀ key clean key' clean', storageKey key = .ok clean → storageKey key' = .ok clean' →
    Path.join root clean ≠ Path.join root clean' ++ sidecarEnding ∧
      (placesOf root clean).data ≠ (placesOf root clean').sidecar
  /-- Accesses under other keys than those of the root leave everything alone that is not below
      it. -/
  elsewhere : ∀ files s as, DirectoryStore.start files root = .ok s →
    (∀ a ∈ as, storageKey (Access.key a) ≠ .ok ".") →
      ∀ q, ¬ isBelow q (locationOf s.root) = true →
        (s.answerAll as).1.files.node? q = s.files.node? q
  /-- Their answers, and what they make of the files below the root, depend on these files only. -/
  answers : ∀ files files' s t as, DirectoryStore.start files root = .ok s →
    DirectoryStore.start files' root = .ok t →
      (∀ q, isBelow q (locationOf s.root) = true → s.files.node? q = t.files.node? q) →
        (∀ a ∈ as, storageKey (Access.key a) ≠ .ok ".") →
          (s.answerAll as).2 = (t.answerAll as).2 ∧
            ∀ q, isBelow q (locationOf s.root) = true →
              (s.answerAll as).1.files.node? q = (t.answerAll as).1.files.node? q
  /-- A key of the root has the root itself for its file, and a sidecar that is not below.  When
      nothing is in the root, deleting the key removes it, and storing under the key replaces it by
      a file. -/
  ofRoot : ∀ files s key, DirectoryStore.start files root = .ok s → storageKey key = .ok "." →
    locationOf s.root ≠ [] → ∃ p, s.places key = .ok p ∧ p.data = locationOf s.root ∧
      ¬ isBelow p.sidecar (locationOf s.root) = true ∧
        ((∀ q, isBelow q (locationOf s.root) = true → s.files.node? q = none) →
          (s.delete key).2 = .ok true ∧
            (s.delete key).1.files.node? (locationOf s.root) = none ∧
              ∀ u content, Upload.key u = key → u.body = .ok content → u.overwrites = true →
                u.isCanceled = false →
                  (s.put u).1.files.node? (locationOf s.root) = some (.file (.text content)))

/-- **What a store in a directory touches** is below its root, unless a key stands for the root. -/
theorem confined (root : String) : Confinement root where
  paths _ _ h := storageKey_paths h root
  apart key clean key' clean' h h' := by
    have hplaces := data_ne_sidecar (isStorageKey h) (isStorageKey h') root
    refine ⟨fun he => hplaces ?_, hplaces⟩
    rw [placesOf, placesOf, he]
  elsewhere files s as hstart has := by
    have hstands := (DirectoryStore.start_ok hstart).2
    have hpaired : s.Paired s := ⟨rfl, hstands, hstands, fun _ _ => rfl⟩
    exact (DirectoryStore.answerAll_paired hpaired has).files.left
  answers files files' s t as hs ht hbelow has := by
    obtain ⟨hroot, hstands⟩ := DirectoryStore.start_ok hs
    obtain ⟨hroot', hstands'⟩ := DirectoryStore.start_ok ht
    have hsame : s.root = t.root := hroot.trans hroot'.symm
    have hpaired : s.Paired t := ⟨hsame, hstands, hsame ▸ hstands', hbelow⟩
    have hagree := DirectoryStore.answerAll_paired hpaired has
    exact ⟨hagree.answer, hagree.files.below⟩
  ofRoot files s key hstart hkey hroot := by
    have hstands := (DirectoryStore.start_ok hstart).2
    obtain ⟨folder, name, hdot, hlocation⟩ := placesOf_dot (isStorageKey hkey) hroot
    have hplaces : s.places key = .ok (DirectoryStore.placesIn folder name) := by
      rw [DirectoryStore.places, hkey, ← hdot]
      rfl
    rw [hlocation] at hstands ⊢
    refine ⟨_, hplaces, rfl, fun hbelow => ?_, fun hempty => ?_⟩
    · have hsame : folder ++ [name] = folder ++ [name ++ sidecarEnding] :=
        (isBelow_iff.1 hbelow).1.eq_of_length (by simp [DirectoryStore.placesIn])
      exact DirectoryStore.name_ne_sidecar name (by simpa using hsame)
    · obtain ⟨hdeleted, hgone⟩ := DirectoryStore.delete_root hplaces hstands hempty
      refine ⟨hdeleted, hgone, fun u content hu hbody hoverwrites hcanceled => ?_⟩
      exact DirectoryStore.put_root (hu ▸ hplaces) hstands hempty hbody hoverwrites hcanceled

/-- A store beside a file of someone else. -/
theorem confined_out :
    (Path.IsInside "/out" (Path.join "/out" "src/Ship.h") ∧
      Path.IsInside "/out" (Path.join "/out" "src/Ship.h" ++ sidecarEnding)) ∧
    ∃ s, DirectoryStore.start { nodes := [(["out.meta"], .file (.text "mine"))] } "/out" = .ok s ∧
      (s.answerAll [.put { key := "src//Ship.h", body := .ok "ship" }, .get "src/Ship.h",
        .delete "src/./Ship.h"]).1.files.node? ["out.meta"] = some (.file (.text "mine")) := by
  refine ⟨((confined "/out").paths "src//Ship.h" _ (by decide)).2 (by decide), _, rfl, ?_⟩
  exact ((confined "/out").elsewhere { nodes := [(["out.meta"], .file (.text "mine"))] } _ _ rfl
    (by decide) ["out.meta"] (by decide)).trans rfl

/-- The dot is a key whose file is the root: deleting it removes the root. -/
theorem delete_dot_out : storageKey "." = .ok "." ∧ Path.join "/out" "." = "/out" ∧
    Path.join "/out" "." ++ sidecarEnding = "/out.meta" ∧
      ∃ s, DirectoryStore.start {} "/out" = .ok s ∧ s.files.node? ["out"] = some .directory ∧
        (s.delete ".").2 = .ok true ∧ (s.delete ".").1.files.node? ["out"] = none :=
  ⟨by decide, by decide, by decide, _, rfl, rfl, rfl, rfl⟩

end Artifact

end ObjectLowering
