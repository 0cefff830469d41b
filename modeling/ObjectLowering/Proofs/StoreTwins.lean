/-
  A store in memory beside one in a directory.

  * `Tree.node?_makeDirectory`, `Tree.write_eq_ok`, `Tree.node?_remove`: what
    operations do to a tree, by its nodes.
  * `DirectoryStore.put_in`: what is stored in a folder where no directory has
    the name of a file.
  * `Twins`: two stores hold the same files of a layout.  A file goes into both
    or into none (`Twins.store`), and so do files one after the other
    (`Alike.writeFiles`).
-/
import ObjectLowering.Proofs.Paths

namespace ObjectLowering

/-! ## Trees by their nodes -/

namespace Files

theorem mem_ancestors {p q : Location} : q ∈ ancestors p ↔ q <+: p ∧ q ≠ p := by
  simp only [ancestors, List.mem_map, List.mem_range]
  constructor
  · rintro ⟨n, hn, rfl⟩
    refine ⟨List.take_prefix .., fun he => ?_⟩
    have hlength := congrArg List.length he
    rw [List.length_take] at hlength
    omega
  · rintro ⟨habove, hne⟩
    refine ⟨q.length, ?_, (List.prefix_iff_eq_take.1 habove).symm⟩
    exact lt_of_le_of_ne habove.length_le fun he => hne (habove.eq_of_length he)

theorem mem_way {p q : Location} : q ∈ ancestors p ++ [p] ↔ q <+: p := by
  rw [List.mem_append, List.mem_singleton, mem_ancestors]
  constructor
  · rintro (h | rfl)
    · exact h.1
    · exact List.prefix_refl _
  · intro h
    by_cases he : q = p
    · exact Or.inr he
    · exact Or.inl ⟨h, he⟩

theorem prefix_dropLast {p q : Location} (h : q <+: p) (hne : q ≠ p) : q <+: p.dropLast := by
  rcases List.eq_nil_or_concat p with rfl | ⟨front, last, rfl⟩
  · exact absurd (List.prefix_nil.1 h) hne
  · rw [List.concat_eq_append] at h hne ⊢
    rw [List.dropLast_concat]
    exact (List.prefix_concat_iff.1 h).resolve_left hne

/-- What lies in a folder does not lead to it. -/
theorem not_prefix_of_mem {folder : Location} (name : String) : ¬ folder ++ [name] <+: folder := by
  intro h
  have hlength := h.length_le
  rw [List.length_append, List.length_singleton] at hlength
  omega

namespace Tree

variable {α : Type} {t t' : Tree α} {p q : Location} {c : α}

theorem isFile_eq_false : t.isFile q = false ↔ ∀ c, t.node? q ≠ some (.file c) := by
  unfold isFile
  split
  · next c hc => simp [hc]
  · next h => exact iff_of_true rfl h

theorem isFile_of_directory (h : t.node? q = some .directory) : t.isFile q = false := by
  simp [isFile, h]

theorem status_of_free (h : ∀ q, q <+: p → q ≠ p → t.isFile q = false) :
    t.status p = match t.node? p with
      | some n => .ok n
      | none => .error .missing := by
  have hway : (ancestors p).any t.isFile = false := by
    rw [List.any_eq_false]
    intro q hq
    obtain ⟨habove, hne⟩ := mem_ancestors.1 hq
    simp [h q habove hne]
  cases hnode : t.node? p <;> simp [status, hway, hnode]

/-- A file is written where nothing but files are in its place, with a directory around it. -/
theorem write_eq_ok : t.write p c = .ok t' ↔
    p ≠ [] ∧ (∀ q, q <+: p → q ≠ p → t.isFile q = false) ∧ t.node? p ≠ some .directory ∧
      (t.node? p = none → t.node? p.dropLast = some .directory) ∧ t' = t.set p (.file c) := by
  by_cases hfree : ∀ q, q <+: p → q ≠ p → t.isFile q = false
  · have hparent : ∀ q, q <+: p.dropLast → q ≠ p.dropLast → t.isFile q = false := by
      intro q hq hne
      refine hfree q (hq.trans (List.dropLast_prefix p)) ?_
      rintro rfl
      exact hne (hq.eq_of_length_le (List.dropLast_prefix q).length_le)
    have hroot : p = [] → t.node? p = some .directory := by
      rintro rfl
      rfl
    unfold write
    rw [status_of_free hfree]
    cases hnode : t.node? p with
    | none =>
      have hp : p ≠ [] := fun he => by
        rw [hroot he] at hnode
        cases hnode
      dsimp only
      rw [status_of_free hparent]
      cases hdir : t.node? p.dropLast with
      | none => simp
      | some n =>
        cases n with
        | directory =>
          rw [Except.ok.injEq, eq_comm]
          exact ⟨fun h => ⟨hp, hfree, by simp, fun _ => rfl, h⟩, fun h => h.2.2.2.2⟩
        | file c => simp
    | some n =>
      cases n with
      | directory => simp
      | file d =>
        have hp : p ≠ [] := fun he => by
          rw [hroot he] at hnode
          cases hnode
        rw [Except.ok.injEq, eq_comm]
        exact ⟨fun h => ⟨hp, hfree, by simp, by simp, h⟩, fun h => h.2.2.2.2⟩
  · refine iff_of_false (fun h => hfree fun q hq hne => ?_) fun h => hfree h.2.1
    exact (write_ok h).2.2 q (mem_ancestors.2 ⟨hq, hne⟩)

/-- A directory is made with all that leads to it, and nothing else changes. -/
theorem node?_makeDirectory (h : ∀ q, q <+: p → t.isFile q = false) :
    ∃ t', t.makeDirectory p = .ok t' ∧
      ∀ q, t'.node? q = (t.node? q).or (if q <+: p then some .directory else none) := by
  have hfold : ∀ (ps : List Location) (t : Tree α) (q : Location),
      (ps.foldl (fun t q => if (t.node? q).isSome then t else t.set q .directory) t).node? q =
        (t.node? q).or (if q ∈ ps then some .directory else none) := by
    intro ps
    induction ps with
    | nil => simp
    | cons a ps ih =>
      intro t q
      have hstep : (if (t.node? a).isSome then t else t.set a .directory).node? q =
          (t.node? q).or (if q = a then some .directory else none) := by
        cases ha : t.node? a with
        | some n => by_cases hq : q = a <;> simp [hq, ha]
        | none =>
          have hne : a ≠ [] := fun he => by
            rw [he] at ha
            cases ha
          rw [Option.isSome_none, if_neg (by decide), node?_set hne]
          by_cases hq : q = a <;> simp [hq, ha]
      rw [List.foldl_cons, ih, hstep, Option.or_assoc]
      by_cases hq : q = a <;> simp [hq]
  have hway : (ancestors p ++ [p]).any t.isFile = false := by
    rw [List.any_eq_false]
    intro q hq
    rw [h q (mem_way.1 hq)]
    decide
  refine ⟨_, if_neg (by rw [hway]; decide), fun q => ?_⟩
  rw [hfold]
  simp only [mem_way]

/-- When whatever stands somewhere stands in a directory, there are directories above it. -/
theorem node?_above (h : ∀ q, t.node? q ≠ none → t.node? q.dropLast = some .directory)
    (hp : t.node? p ≠ none) (hq : q <+: p) (hne : q ≠ p) : t.node? q = some .directory := by
  induction p using List.reverseRecOn with
  | nil => exact absurd (List.prefix_nil.1 hq) hne
  | append_singleton p a ih =>
    have hparent := h _ hp
    rw [List.dropLast_concat] at hparent
    by_cases he : q = p
    · rw [he, hparent]
    · exact ih (by simp [hparent]) ((List.prefix_concat_iff.1 hq).resolve_left hne) he

theorem node?_remove (h : t.remove p = .ok t') (q : Location) :
    t'.node? q = if q = p then none else t.node? q := by
  unfold remove at h
  split at h
  · cases h
  · split_ifs at h with hp
    obtain rfl := Except.ok.inj h
    have hne : p ≠ [] := fun he => hp (Or.inl he)
    split_ifs with hq
    · subst hq
      rw [node?, if_neg hne, List.lookup_eq_none_iff]
      intro x hx
      rw [bne_comm]
      exact (List.mem_filter.1 hx).2
    · rw [node?, node?, lookup_filter_ne hq]

end Tree

end Files

namespace Artifact

open Files Text

/-! ## Storing in a folder -/

namespace DirectoryStore

variable {d : DirectoryStore} {folder : Location} {a : String} {u : Upload} {content : String}

/-- The description of an artifact of a directory. -/
def described (d : DirectoryStore) (u : Upload) (content : String) : Info :=
  { describe u content with url := d.url u.key }

/-- What a store has after an artifact was put into a folder: the way there, the file and its
    sidecar, and what was elsewhere. -/
structure Added (d d' : DirectoryStore) (folder : Location) (a : String) : Prop where
  root : d'.root = d.root
  way : ∀ q, q <+: folder → d'.files.node? q = some .directory
  data : ∃ content, d'.files.node? (folder ++ [a]) = some (.file (.text content))
  sidecar : ∃ x, d'.files.node? (folder ++ [a ++ sidecarEnding]) = some (.file (.sidecar x))
  others : ∀ q, ¬ q <+: folder → q ≠ folder ++ [a] → q ≠ folder ++ [a ++ sidecarEnding] →
    d'.files.node? q = d.files.node? q

theorem prefix_folder {q : Location} (hq : q <+: folder ++ [a]) (hne : q ≠ folder ++ [a]) :
    q <+: folder :=
  (List.prefix_concat_iff.1 hq).resolve_left hne

/-- Files are written into a directory that exists, over files only. -/
theorem write_in {t : Workspace} {c : Content}
    (hway : ∀ q, q <+: folder → t.node? q = some .directory)
    (hname : t.node? (folder ++ [a]) ≠ some .directory) :
    t.write (folder ++ [a]) c = .ok (t.set (folder ++ [a]) (.file c)) := by
  refine Tree.write_eq_ok.2 ⟨by simp, fun q hq hne => ?_, hname, fun _ => ?_, rfl⟩
  · exact Tree.isFile_of_directory (hway q (prefix_folder hq hne))
  · rw [List.dropLast_concat]
    exact hway folder (List.prefix_refl _)

theorem name_ne_sidecar (a : String) : a ≠ a ++ sidecarEnding := by
  intro h
  have hlength := congrArg String.length h
  rw [String.length_append] at hlength
  exact absurd hlength (by simp [sidecarEnding])

/-- Two files are written into a directory, one after the other. -/
theorem writes_in {t : Workspace} (a content : String) (x : Sidecar)
    (hway : ∀ q, q <+: folder → t.node? q = some .directory)
    (hnames : ∀ name, t.node? (folder ++ [name]) ≠ some .directory) :
    ∃ files files', t.write (folder ++ [a]) (.text content) = .ok files ∧
      files.write (folder ++ [a ++ sidecarEnding]) (.sidecar x) = .ok files' ∧
      files'.node? (folder ++ [a]) = some (.file (.text content)) ∧
      files'.node? (folder ++ [a ++ sidecarEnding]) = some (.file (.sidecar x)) ∧
      ∀ q, q ≠ folder ++ [a] → q ≠ folder ++ [a ++ sidecarEnding] →
        files'.node? q = t.node? q := by
  have hset : ∀ (t : Workspace) (b : String) (n : Node Content) (q : Location),
      (t.set (folder ++ [b]) n).node? q = if q = folder ++ [b] then some n else t.node? q :=
    fun t b n q => Tree.node?_set (by simp)
  refine ⟨_, _, write_in hway (hnames a), write_in (fun q hq => ?_) ?_, ?_, ?_, fun q hq hq' => ?_⟩
  · rw [hset, if_neg fun he => not_prefix_of_mem a (he ▸ hq), hway q hq]
  · rw [hset]
    split_ifs
    · simp
    · exact hnames _
  · rw [hset, if_neg (by simpa using name_ne_sidecar a), hset, if_pos rfl]
  · rw [hset, if_pos rfl]
  · rw [hset, if_neg hq', hset, if_neg hq]

/-- The files without the one in some place, if it is to be replaced. -/
def cleared (t : Workspace) (overwrites : Bool) (p : Location) : Workspace :=
  if overwrites then
    match t.remove p with
    | .ok files => files
    | .error _ => t
  else t

theorem node?_cleared (t : Workspace) (overwrites : Bool) (p q : Location) :
    (cleared t overwrites p).node? q = t.node? q ∨
      q = p ∧ (cleared t overwrites p).node? q = none := by
  unfold cleared
  split_ifs
  · cases hremove : t.remove p with
    | error f => exact Or.inl rfl
    | ok files =>
      by_cases hq : q = p
      · exact Or.inr ⟨hq, by rw [Tree.node?_remove hremove, if_pos hq]⟩
      · exact Or.inl (by rw [Tree.node?_remove hremove, if_neg hq])
  · exact Or.inl rfl

theorem replace_eq (d : DirectoryStore) (folder : Location) (a : String) (u : Upload)
    (content : String) : d.replace (placesIn folder a) u content =
      match (cleared d.files u.overwrites (folder ++ [a])).write (folder ++ [a])
        (.text content) with
      | .error _ =>
        ({ d with files := cleared d.files u.overwrites (folder ++ [a]) }, .error .backend)
      | .ok files =>
        match files.write (folder ++ [a ++ sidecarEnding])
          (.sidecar (.ofInfo (d.described u content))) with
        | .error _ => ({ d with files }, .error .backend)
        | .ok files => ({ d with files }, .ok (d.described u content)) := rfl

theorem replace_in (a : String) (u : Upload) (content : String)
    (hway : ∀ q, q <+: folder → d.files.node? q = some .directory)
    (hnames : ∀ name, d.files.node? (folder ++ [name]) ≠ some .directory) :
    ∃ d', d.replace (placesIn folder a) u content = (d', .ok (d.described u content)) ∧
      Added d d' folder a := by
  have hnode := node?_cleared d.files u.overwrites (folder ++ [a])
  have hcway : ∀ q, q <+: folder →
      (cleared d.files u.overwrites (folder ++ [a])).node? q = some .directory := by
    intro q hq
    rcases hnode q with h | ⟨rfl, -⟩
    · rw [h, hway q hq]
    · exact absurd hq (not_prefix_of_mem a)
  have hcnames : ∀ name, (cleared d.files u.overwrites (folder ++ [a])).node?
      (folder ++ [name]) ≠ some .directory := by
    intro name
    rcases hnode (folder ++ [name]) with h | ⟨-, h⟩
    · rw [h]
      exact hnames name
    · rw [h]
      simp
  obtain ⟨files, files', hdata, hsidecar, hfile, hfile', hothers⟩ :=
    writes_in a content (.ofInfo (d.described u content)) hcway hcnames
  refine ⟨{ d with files := files' }, ?_, rfl, fun q hq => ?_, ⟨_, hfile⟩, ⟨_, hfile'⟩, ?_⟩
  · rw [replace_eq, hdata]
    dsimp only
    rw [hsidecar]
  · rw [hothers q (fun he => not_prefix_of_mem _ (he ▸ hq))
      (fun he => not_prefix_of_mem _ (he ▸ hq)), hcway q hq]
  · intro q _ hq hq'
    rw [hothers q hq hq', (hnode q).resolve_right fun h => hq h.1]

theorem put_taken (hplaces : d.places u.key = .ok (placesIn folder a))
    (h : (d.sidecarAt (folder ++ [a ++ sidecarEnding])).isOk ∧ !u.overwrites) :
    d.put u = (d, .error (.taken u.key)) := by
  unfold put
  rw [hplaces]
  exact if_pos h

/-- **Storing in a folder**, whether it exists or not, where no directory has the name of a file:
    everything that is needed is made. -/
theorem put_in (hplaces : d.places u.key = .ok (placesIn folder a)) (hbody : u.body = .ok content)
    (hcanceled : u.isCanceled = false)
    (h : ¬ ((d.sidecarAt (folder ++ [a ++ sidecarEnding])).isOk ∧ !u.overwrites))
    (hway : ∀ q, q <+: folder → d.files.isFile q = false)
    (hnames : ∀ name, d.files.node? (folder ++ [name]) ≠ some .directory) :
    ∃ d', d.put u = (d', .ok (d.described u content)) ∧ Added d d' folder a := by
  obtain ⟨files, hmade, hnode⟩ := Tree.node?_makeDirectory hway
  have hdirectory : ∀ q, q <+: folder → files.node? q = some .directory := by
    intro q hq
    rw [hnode, if_pos hq]
    cases hq' : d.files.node? q with
    | none => rfl
    | some n =>
      cases n with
      | directory => rfl
      | file c => exact absurd hq' (Tree.isFile_eq_false.1 (hway q hq) c)
  have hnames' : ∀ name, files.node? (folder ++ [name]) ≠ some .directory := by
    intro name
    rw [hnode, if_neg (not_prefix_of_mem name), Option.or_none]
    exact hnames name
  obtain ⟨d', hreplace, hadded⟩ :=
    replace_in (d := { d with files }) a u content hdirectory hnames'
  refine ⟨d', ?_, { hadded with others := fun q hq hdata hsidecar => ?_ }⟩
  · have hfolder : (placesIn folder a).data.dropLast = folder := List.dropLast_concat ..
    have hsidecar : (placesIn folder a).sidecar = folder ++ [a ++ sidecarEnding] := rfl
    unfold put
    rw [hplaces]
    dsimp only
    rw [hsidecar, if_neg h, hfolder, hmade, hbody, hcanceled]
    exact hreplace
  · rw [hadded.others q hq hdata hsidecar, hnode, if_neg hq, Option.or_none]

end DirectoryStore

/-! ## Twins -/

/-- Nothing is in a folder, and no file is on the way. -/
structure IsVacant (files : Workspace) (folder : Location) : Prop where
  way : ∀ q, q <+: folder → files.isFile q = false
  inside : ∀ name, files.node? (folder ++ [name]) = none

/-- A store in memory and one in a directory hold the same files of a layout.  In the directory
    there is what was there before, the way to a folder, and files in this folder. -/
structure Twins (l : Layout) (files : Workspace) (folder : Location) (m : MemoryStore)
    (d : DirectoryStore) : Prop where
  places : ∀ name, IsStorable name →
    d.places (l.key name) = .ok (DirectoryStore.placesIn folder name)
  nodes : ∀ q, d.files.node? q = files.node? q ∨
    (q <+: folder ∧ files.node? q = none ∧ d.files.node? q = some .directory) ∨
    ∃ name c, q = folder ++ [name] ∧ d.files.node? q = some (.file c)
  keys : ∀ name, IsStorable name → ((m.objects.lookup (l.key name)).isSome ↔
    (d.sidecarAt (folder ++ [name ++ sidecarEnding])).isOk)

/-- The way to the folder is there. -/
def Made (folder : Location) (d : DirectoryStore) : Prop :=
  ∀ q, q <+: folder → d.files.node? q = some .directory

/-- A description without the address of the artifact. -/
def Info.unaddressed (i : Info) : Info := { i with url := "" }

section
variable {l : Layout} {files : Workspace} {folder : Location} {m : MemoryStore} {d : DirectoryStore}
  {name : String}

theorem Twins.way (h : Twins l files folder m d) (hv : IsVacant files folder) {q : Location}
    (hq : q <+: folder) : d.files.isFile q = false := by
  rcases h.nodes q with hnode | ⟨-, -, hnode⟩ | ⟨name, c, rfl, -⟩
  · rw [Tree.isFile, hnode]
    exact hv.way q hq
  · exact Tree.isFile_of_directory hnode
  · exact absurd hq (not_prefix_of_mem name)

theorem Twins.inside (h : Twins l files folder m d) (hv : IsVacant files folder) (name : String) :
    d.files.node? (folder ++ [name]) ≠ some .directory := by
  rcases h.nodes (folder ++ [name]) with hnode | ⟨hq, -, -⟩ | ⟨name', c, -, hnode⟩
  · rw [hnode, hv.inside]
    simp
  · exact absurd hq (not_prefix_of_mem name)
  · rw [hnode]
    simp

theorem sidecarAt_isOk (hway : ∀ q, q <+: folder → d.files.isFile q = false) :
    (d.sidecarAt (folder ++ [name])).isOk ↔
      ∃ c x, d.files.node? (folder ++ [name]) = some (.file c) ∧ c.sidecar? = some x := by
  have hfree : ∀ q ∈ ancestors (folder ++ [name]), d.files.isFile q = false := by
    intro q hq
    obtain ⟨habove, hne⟩ := mem_ancestors.1 hq
    exact hway q (DirectoryStore.prefix_folder habove hne)
  have hok : (d.sidecarAt (folder ++ [name])).isOk ↔
      ∃ x, d.sidecarAt (folder ++ [name]) = .ok x := by
    cases d.sidecarAt (folder ++ [name]) <;> simp [Except.isOk, Except.toBool]
  simp only [hok, DirectoryStore.sidecarAt_ok, Tree.read_eq_ok]
  constructor
  · rintro ⟨x, c, ⟨-, hnode⟩, hx⟩
    exact ⟨c, x, hnode, hx⟩
  · rintro ⟨c, x, hnode, hx⟩
    exact ⟨x, c, ⟨hfree, hnode⟩, hx⟩

theorem MemoryStore.put_storable {u : Upload} {content : String} (hkey : isBlankText u.key = false)
    (hbody : u.body = .ok content) :
    m.put u = if (m.objects.lookup u.key).isSome ∧ !u.overwrites then .error (.taken u.key)
      else .ok
        ({ objects := Data.putEntry u.key { info := describe u content, content } m.objects },
          describe u content) := by
  rw [MemoryStore.put, hkey, hbody, if_neg (by decide)]

/-- Twins stay so when a file was put into both. -/
theorem Twins.added {m' : MemoryStore} {d' : DirectoryStore} (h : Twins l files folder m d)
    (hv : IsVacant files folder) (hname : IsStorable name)
    (hadded : DirectoryStore.Added d d' folder name)
    (hkeys : ∀ other, IsStorable other → ((m'.objects.lookup (l.key other)).isSome ↔
      other = name ∨ (m.objects.lookup (l.key other)).isSome)) :
    Twins l files folder m' d' where
  places other hother := by
    rw [DirectoryStore.places, hadded.root]
    exact h.places other hother
  nodes q := by
    by_cases hq : q <+: folder
    · rcases h.nodes q with hnode | ⟨-, hnone, -⟩ | ⟨other, c, rfl, -⟩
      · cases hbefore : files.node? q with
        | none => exact Or.inr (Or.inl ⟨hq, rfl, hadded.way q hq⟩)
        | some n =>
          cases n with
          | directory => exact Or.inl (hadded.way q hq)
          | file c => exact absurd hbefore (Tree.isFile_eq_false.1 (hv.way q hq) c)
      · exact Or.inr (Or.inl ⟨hq, hnone, hadded.way q hq⟩)
      · exact absurd hq (not_prefix_of_mem other)
    · by_cases hdata : q = folder ++ [name]
      · obtain ⟨content, hcontent⟩ := hadded.data
        exact Or.inr (Or.inr ⟨name, _, hdata, hdata ▸ hcontent⟩)
      by_cases hsidecar : q = folder ++ [name ++ sidecarEnding]
      · obtain ⟨x, hx⟩ := hadded.sidecar
        exact Or.inr (Or.inr ⟨_, _, hsidecar, hsidecar ▸ hx⟩)
      rw [hadded.others q hq hdata hsidecar]
      exact (h.nodes q).imp_right fun hnode => hnode.imp_left fun hway => absurd hway.1 hq
  keys other hother := by
    rw [hkeys other hother, h.keys other hother, sidecarAt_isOk fun q hq => h.way hv hq,
      sidecarAt_isOk fun q hq => Tree.isFile_of_directory (hadded.way q hq)]
    by_cases he : other = name
    · obtain ⟨x, hx⟩ := hadded.sidecar
      subst he
      exact iff_of_true (Or.inl rfl) ⟨_, x, hx, rfl⟩
    · rw [hadded.others _ (not_prefix_of_mem _) (by simpa using hname.ne_sidecar other |>.symm)
        (by simpa using he)]
      simp [he]

/-- **A file goes into both stores or into none**, with the same description. -/
theorem Twins.put (h : Twins l files folder m d) (hv : IsVacant files folder)
    (hname : IsStorable name) {u : Upload} {content : String} (hkey : u.key = l.key name)
    (hbody : u.body = .ok content) (hcanceled : u.isCanceled = false) :
    (m.put u = .error (.taken u.key) ∧ d.put u = (d, .error (.taken u.key))) ∨
    ∃ m' d' i i', m.put u = .ok (m', i) ∧ d.put u = (d', .ok i') ∧
      i.unaddressed = i'.unaddressed ∧ Twins l files folder m' d' ∧ Made folder d' := by
  have hplaces : d.places u.key = .ok (DirectoryStore.placesIn folder name) := by
    rw [hkey]
    exact h.places name hname
  have hblank : isBlankText u.key = false := by
    obtain ⟨key, hstorage, -⟩ := map_eq_ok.1 hplaces
    exact (storageKey_eq_ok.1 hstorage).1
  have hway : ∀ q, q <+: folder → d.files.isFile q = false := fun q hq => h.way hv hq
  have hkeys := h.keys name hname
  rw [MemoryStore.put_storable hblank hbody]
  by_cases htaken : (m.objects.lookup u.key).isSome ∧ !u.overwrites
  · refine Or.inl ⟨if_pos htaken, DirectoryStore.put_taken hplaces ?_⟩
    rw [hkey, hkeys] at htaken
    exact htaken
  · right
    rw [if_neg htaken]
    rw [hkey, hkeys] at htaken
    obtain ⟨d', hput, hadded⟩ :=
      DirectoryStore.put_in hplaces hbody hcanceled htaken hway (h.inside hv)
    refine ⟨_, d', _, _, rfl, hput, rfl, h.added hv hname hadded ?_, hadded.way⟩
    intro other hother
    rw [Data.lookup_putEntry, hkey]
    have hinj := Layout.key_inj (l := l) hother.toIsFileName hname.toIsFileName
    by_cases he : other = name
    · rw [if_pos (hinj.2 he)]
      simp [he]
    · rw [if_neg (mt hinj.1 he)]
      simp [he]

theorem Twins.store (h : Twins l files folder m d) (hv : IsVacant files folder)
    (hname : IsStorable name) (content : String) (p : Properties) :
    (∃ e, l.store (.memory m) false name content p = (.memory m, .error e) ∧
      l.store (.directory d) false name content p = (.directory d, .error e)) ∨
    ∃ m' d' i i', l.store (.memory m) false name content p = (.memory m', .ok i) ∧
      l.store (.directory d) false name content p = (.directory d', .ok i') ∧
      i.unaddressed = i'.unaddressed ∧ Twins l files folder m' d' ∧ Made folder d' := by
  rcases h.put hv hname (u := {
    key := l.key name, body := .ok content, properties := p, overwrites := l.overwrites }) rfl rfl
    rfl with ⟨hm, hd⟩ | ⟨m', d', i, i', hm, hd, hinfo, htwins, hmade⟩
  · refine Or.inl ⟨.refused (l.key name) (.taken (l.key name)), ?_, ?_⟩
    · simp only [Layout.store, Sink.put, hm, Except.mapError]
    · simp only [Layout.store, Sink.put, hd, Except.mapError]
  · refine Or.inr ⟨m', d', i, i', ?_, ?_, hinfo, htwins, hmade⟩
    · simp only [Layout.store, Sink.put, hm, Except.mapError]
    · simp only [Layout.store, Sink.put, hd, Except.mapError]

/-- Writing went the same way into memory and into a directory. -/
structure Alike (l : Layout) (files : Workspace) (folder : Location) (x y : Written) : Prop where
  sinks : ∃ m d, x.sink = .memory m ∧ y.sink = .directory d ∧ Twins l files folder m d ∧
    (x.infos ≠ [] → Made folder d)
  infos : x.infos.map Info.unaddressed = y.infos.map Info.unaddressed
  failure : x.failure = y.failure

/-- **Files go into both stores or into none**, up to the first that is refused by both. -/
theorem Alike.writeFiles {x y : Written} (h : Alike l files folder x y) (hv : IsVacant files folder)
    {fs : List SourceFile} (hfs : ∀ f ∈ fs, IsStorable f.name) :
    Alike l files folder (l.writeFiles false x fs) (l.writeFiles false y fs) := by
  induction fs generalizing x y with
  | nil => exact h
  | cons f rest ih =>
    obtain ⟨m, d, hx, hy, htwins, hmade⟩ := h.sinks
    rw [Layout.writeFiles, Layout.writeFiles, if_neg (by decide), if_neg (by decide), hx, hy]
    rcases htwins.store hv (hfs f List.mem_cons_self) f.content f.properties with
      ⟨e, hm, hd⟩ | ⟨m', d', i, i', hm, hd, hinfo, htwins', hmade'⟩
    · rw [hm, hd]
      exact ⟨⟨m, d, rfl, rfl, htwins, hmade⟩, h.infos, rfl⟩
    · rw [hm, hd]
      refine ih ⟨⟨m', d', rfl, rfl, htwins', fun _ => hmade'⟩, ?_, h.failure⟩
        fun f' hf' => hfs f' (List.mem_cons_of_mem _ hf')
      rw [List.map_append, List.map_append, h.infos, List.map_singleton, List.map_singleton, hinfo]

end

end Artifact
end ObjectLowering
