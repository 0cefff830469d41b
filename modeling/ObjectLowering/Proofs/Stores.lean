/-
  What stores keep.

  An artifact that was put into a store is found there until something is put
  in its place.

  * `Tree.read_write`, `Tree.read_of_write`: a file that was written is read
    back, and writing it leaves the files alone that do not stand below it.
  * `DirectoryStore.put_ok`: the same for an artifact and its sidecar.
  * `Sink.holds_put`, `Sink.holds_of_put`: the same for any store.
-/
import ObjectLowering.Artifact.Sink
import ObjectLowering.Proofs.Entries

namespace ObjectLowering

/-! ## Answers -/

theorem bind_eq_ok {ε α β : Type} {x : Except ε α} {f : α → Except ε β} {b : β} :
    x >>= f = .ok b ↔ ∃ a, x = .ok a ∧ f a = .ok b := by
  cases x <;> simp [bind, Except.bind]

/-- What follows an answer matters only where there is one. -/
theorem bind_congr_ok {ε α β : Type} {x : Except ε α} {f g : α → Except ε β}
    (h : ∀ a, x = .ok a → f a = g a) : x >>= f = x >>= g := by
  cases x with
  | error e => rfl
  | ok a => exact h a rfl

theorem mapError_eq_ok {ε ε' α : Type} {x : Except ε α} {f : ε → ε'} {a : α} :
    x.mapError f = .ok a ↔ x = .ok a := by
  cases x <;> simp [Except.mapError]

theorem map_eq_ok {ε α β : Type} {x : Except ε α} {f : α → β} {b : β} :
    x.map f = .ok b ↔ ∃ a, x = .ok a ∧ f a = b := by
  cases x <;> simp [Except.map]

/-! ## Trees -/

namespace Files.Tree

variable {α : Type} {t t' : Tree α} {p q : Location} {c d : α} {n : Node α}

theorem node?_set (hp : p ≠ []) : (t.set p n).node? q = if q = p then some n else t.node? q := by
  by_cases h : q = p
  · subst h
    rw [node?, set, if_neg hp, if_pos rfl, List.lookup_cons_self]
  · rw [node?, node?, set, List.lookup_cons, beq_false_of_ne h, lookup_filter_ne h, if_neg h]

theorem not_mem_ancestors (h : q.length ≤ p.length) : p ∉ ancestors q := by
  intro hp
  obtain ⟨n, hn, he⟩ := List.mem_map.1 hp
  have hlength := congrArg List.length he
  rw [List.length_take] at hlength
  have hn := List.mem_range.1 hn
  omega

/-- A file is read where it stands, with no other file on the way. -/
theorem read_eq_ok : t.read p = .ok c ↔
    (∀ a ∈ ancestors p, t.isFile a = false) ∧ t.node? p = some (.file c) := by
  have hway : (ancestors p).any t.isFile = false ↔ ∀ a ∈ ancestors p, t.isFile a = false := by
    simp
  unfold read status
  rw [← hway]
  cases hany : (ancestors p).any t.isFile with
  | true => simp
  | false =>
    cases hnode : t.node? p with
    | none => simp
    | some n => cases n <;> simp

theorem read_mono (hread : t.read q = .ok d)
    (hway : ∀ a ∈ ancestors q, t'.isFile a = true → t.isFile a = true)
    (hnode : t'.node? q = t.node? q) : t'.read q = .ok d := by
  obtain ⟨hfree, hfile⟩ := read_eq_ok.1 hread
  refine read_eq_ok.2 ⟨fun a ha => Bool.eq_false_iff.2 fun h => ?_, hnode.trans hfile⟩
  exact absurd (hway a ha h) (Bool.eq_false_iff.1 (hfree a ha))

theorem write_ok (h : t.write p c = .ok t') :
    p ≠ [] ∧ t' = t.set p (.file c) ∧ ∀ a ∈ ancestors p, t.isFile a = false := by
  have hway : (ancestors p).any t.isFile = false := by
    refine Bool.eq_false_iff.2 fun hany => ?_
    rw [write, status, if_pos hany] at h
    cases h
  have hset : t' = t.set p (.file c) := by
    unfold write at h
    split at h
    · exact (Except.ok.inj h).symm
    · cases h
    · cases h
    · split at h
      · exact (Except.ok.inj h).symm
      · cases h
      · cases h
  refine ⟨?_, hset, by simpa using hway⟩
  rintro rfl
  have hstatus : t.status [] = .ok .directory := rfl
  rw [write, hstatus] at h
  cases h

/-- A file that was written is read back. -/
theorem read_write (h : t.write p c = .ok t') : t'.read p = .ok c := by
  obtain ⟨hp, rfl, hfree⟩ := write_ok h
  refine read_eq_ok.2 ⟨fun a ha => ?_, by rw [node?_set hp, if_pos rfl]⟩
  have hne : a ≠ p := fun he => not_mem_ancestors (Nat.le_refl p.length) (he ▸ ha)
  rw [isFile, node?_set hp, if_neg hne]
  exact hfree a ha

/-- Writing a file leaves the files alone that do not stand in its place or below. -/
theorem read_of_write (h : t.write p c = .ok t') (hq : q ≠ p) (hbelow : p ∉ ancestors q)
    (hread : t.read q = .ok d) : t'.read q = .ok d := by
  obtain ⟨hp, rfl, -⟩ := write_ok h
  refine read_mono hread (fun a ha hfile => ?_) (by rw [node?_set hp, if_neg hq])
  have hne : a ≠ p := fun he => hbelow (he ▸ ha)
  rwa [isFile, node?_set hp, if_neg hne] at hfile

/-- Removing something leaves the files elsewhere alone. -/
theorem read_of_remove (h : t.remove p = .ok t') (hq : q ≠ p) (hread : t.read q = .ok d) :
    t'.read q = .ok d := by
  have hremoved : p ≠ [] ∧ t' = { nodes := t.nodes.filter fun x => x.1 != p } := by
    unfold remove at h
    split at h
    · cases h
    · split_ifs at h with hp
      exact ⟨fun he => hp (Or.inl he), (Except.ok.inj h).symm⟩
  obtain ⟨hp, rfl⟩ := hremoved
  have hnode : ∀ a, a ≠ p →
      (⟨t.nodes.filter fun x => x.1 != p⟩ : Tree α).node? a = t.node? a := fun a ha => by
    rw [node?, node?, lookup_filter_ne ha]
  refine read_mono hread (fun a _ hfile => ?_) (hnode q hq)
  have ha : a ≠ p := by
    rintro rfl
    have hnone : (t.nodes.filter fun x => x.1 != a).lookup a = none :=
      List.lookup_eq_none_iff.2 fun x hx => by
        rw [bne_comm]
        exact (List.mem_filter.1 hx).2
    rw [isFile, node?, if_neg hp, hnone] at hfile
    cases hfile
  rwa [isFile, hnode a ha] at hfile

theorem read_of_setDirectory (hp : t.node? p = none) (hread : t.read q = .ok d) :
    (t.set p .directory).read q = .ok d := by
  have hne : p ≠ [] := by
    rintro rfl
    cases hp
  have hq : q ≠ p := by
    rintro rfl
    rw [(read_eq_ok.1 hread).2] at hp
    cases hp
  refine read_mono hread (fun a _ hfile => ?_) (by rw [node?_set hne, if_neg hq])
  by_cases ha : a = p
  · rw [isFile, node?_set hne, if_pos ha] at hfile
    cases hfile
  · rwa [isFile, node?_set hne, if_neg ha] at hfile

/-- Making a directory leaves all files alone. -/
theorem read_of_makeDirectory (h : t.makeDirectory p = .ok t') (hread : t.read q = .ok d) :
    t'.read q = .ok d := by
  unfold makeDirectory at h
  split_ifs at h with hway
  obtain rfl := Except.ok.inj h
  clear h hway
  generalize ancestors p ++ [p] = ps
  induction ps generalizing t with
  | nil => exact hread
  | cons a ps ih =>
    rw [List.foldl_cons]
    split_ifs with hsome
    · exact ih hread
    · exact ih (read_of_setDirectory (Option.not_isSome_iff_eq_none.1 hsome) hread)

end Files.Tree

/-! ## Paths of files -/

namespace Text.Path

/-- A name without slashes that stands for no directory. -/
structure IsFileName (name : String) : Prop where
  slash : '/' ∉ name.toList
  ne_empty : name ≠ ""
  ne_dot : name ≠ "."
  ne_dots : name ≠ ".."

/-- A text in front of the name of a file: nothing, or a directory with a slash behind it. -/
def IsFront (front : String) : Prop := front = "" ∨ ∃ path, front = path ++ "/"

variable {front name : String}

theorem IsFileName.splitOn_eq (h : IsFileName name) : splitOn '/' name = [name] := by
  have hname : ∀ c ∈ name.toList, (c == '/') = false := fun c hc =>
    beq_false_of_ne fun he => h.slash (he ▸ hc)
  rw [splitOn, List.splitOn, List.splitOnP_eq_singleton hname, List.map_singleton,
    String.ofList_toList]

theorem splitOn_slash (path rest : String) :
    splitOn '/' (path ++ "/" ++ rest) = splitOn '/' path ++ splitOn '/' rest := by
  have htext : (path ++ "/" ++ rest).toList = path.toList ++ '/' :: rest.toList := by simp
  rw [splitOn, splitOn, splitOn, htext, List.splitOn, List.splitOnP_append_cons _ _ (by decide),
    List.map_append]
  rfl

theorem IsFileName.addSegment_eq (h : IsFileName name) (rooted : Bool) (cleaned : List String) :
    addSegment rooted cleaned name = name :: cleaned := by
  unfold addSegment
  rw [if_neg (not_or.2 ⟨h.ne_empty, h.ne_dot⟩), if_neg h.ne_dots]

theorem isRooted_front (hfront : IsFront front) (h : IsFileName name) :
    isRooted (front ++ name) = isRooted front := by
  rcases hfront with rfl | ⟨path, rfl⟩
  · have hhead : name.toList.head? ≠ some '/' := fun he => h.slash (List.mem_of_head? he)
    rw [String.empty_append, isRooted, beq_false_of_ne hhead]
    rfl
  · rw [isRooted, isRooted, String.toList_append, List.head?_append_of_ne_nil _ (by simp)]

theorem segments_front (hfront : IsFront front) (h : IsFileName name) :
    segments (front ++ name) = segments front ++ [name] := by
  rw [segments, segments, isRooted_front hfront h]
  rcases hfront with rfl | ⟨path, rfl⟩
  · rw [String.empty_append, h.splitOn_eq]
    exact congrArg List.reverse (h.addSegment_eq _ [])
  · have hfolder := splitOn_slash path ""
    rw [String.append_empty] at hfolder
    rw [splitOn_slash, hfolder, h.splitOn_eq, List.foldl_append, List.foldl_append,
      ← List.reverse_cons]
    exact congrArg List.reverse (h.addSegment_eq _ _)

theorem intercalate_concat (parts : List String) (last : String) :
    String.intercalate "/" (parts ++ [last]) = String.join (parts.map (· ++ "/")) ++ last := by
  induction parts with
  | nil => simp
  | cons p parts ih =>
    obtain ⟨q, rest, hrest⟩ := List.exists_cons_of_ne_nil (l := parts ++ [last]) (by simp)
    rw [List.cons_append, hrest, String.intercalate_cons_cons, ← hrest, ih, List.map_cons,
      String.join_cons, String.append_assoc, String.append_assoc, String.append_assoc]

theorem isFront_join (rooted : Bool) (parts : List String) :
    IsFront ((if rooted then "/" else "") ++ String.join (parts.map (· ++ "/"))) := by
  rcases List.eq_nil_or_concat parts with rfl | ⟨before, last, rfl⟩
  · cases rooted
    · exact Or.inl rfl
    · exact Or.inr ⟨"", rfl⟩
  · refine Or.inr ⟨(if rooted then "/" else "") ++ String.join (before.map (· ++ "/")) ++ last, ?_⟩
    rw [List.concat_eq_append, List.map_append, String.join_append]
    simp [String.append_assoc]

theorem clean_front (hfront : IsFront front) :
    ∃ front', IsFront front' ∧
      ∀ name, IsFileName name → clean (front ++ name) = front' ++ name := by
  refine ⟨_, isFront_join (isRooted front) (segments front), fun name h => ?_⟩
  rw [clean, segments_front hfront h, isRooted_front hfront h, ofSegments, if_neg (by simp),
    intercalate_concat, String.append_assoc]

theorem join_front (folder : String) (hfront : IsFront front) :
    ∃ front', IsFront front' ∧
      ∀ name, IsFileName name → join folder (front ++ name) = front' ++ name := by
  have hne : ∀ name, IsFileName name → front ++ name ≠ "" := fun name h he =>
    h.ne_empty (String.append_eq_empty_iff.1 he).2
  by_cases hfolder : folder = ""
  · obtain ⟨front', hfront', hclean⟩ := clean_front hfront
    refine ⟨front', hfront', fun name h => ?_⟩
    rw [join, if_neg fun hb => hne name h hb.2, if_pos hfolder, hclean name h]
  · have hfolded : IsFront (folder ++ "/" ++ front) := by
      rcases hfront with rfl | ⟨path, rfl⟩
      · exact Or.inr ⟨folder, by simp⟩
      · exact Or.inr ⟨folder ++ "/" ++ path, by simp [String.append_assoc]⟩
    obtain ⟨front', hfront', hclean⟩ := clean_front hfolded
    refine ⟨front', hfront', fun name h => ?_⟩
    rw [join, if_neg fun hb => hfolder hb.1, if_neg hfolder, if_neg (hne name h),
      ← String.append_assoc, hclean name h]

theorem locationOf_front (hfront : IsFront front) (h : IsFileName name) :
    Files.locationOf (front ++ name) = Files.locationOf front ++ [name] := by
  rw [Files.locationOf, segments_front hfront h, List.filter_append, Files.locationOf]
  simp [h.ne_dots]

end Text.Path

namespace Artifact

open Files Text

/-! ## Directories -/

/-- The name of a file that no sidecar has. -/
structure IsArtifactName (name : String) : Prop extends Path.IsFileName name where
  ne_sidecar : ∀ other, name ≠ other ++ sidecarEnding

namespace DirectoryStore

variable {s s' : DirectoryStore} {u : Upload} {info : Info} {content key : String} {p : Places}

/-- What replacing an artifact leaves behind. -/
structure Replaced (s s' : DirectoryStore) (p : Places) (content : String) : Prop where
  root : s'.root = s.root
  /-- The content is in its place. -/
  data : s'.files.read p.data = .ok (.text content)
  /-- There is a sidecar. -/
  sidecar : ∃ x, s'.files.read p.sidecar = .ok (.sidecar x)
  /-- Files elsewhere are as before. -/
  others : ∀ q c, q ≠ p.data → q ≠ p.sidecar → p.data ∉ ancestors q → p.sidecar ∉ ancestors q →
    s.files.read q = .ok c → s'.files.read q = .ok c

/-- Two files are written, one after the other, when the place of the first was cleared. -/
theorem replaced_of_writes {cleared files files' : Workspace} {x : Sidecar}
    (hapart : p.data ≠ p.sidecar) (hbelow : p.sidecar ∉ ancestors p.data)
    (hcleared : ∀ q c, q ≠ p.data → s.files.read q = .ok c → cleared.read q = .ok c)
    (hdata : cleared.write p.data (.text content) = .ok files)
    (hsidecar : files.write p.sidecar (.sidecar x) = .ok files') :
    Replaced s { s with files := files' } p content where
  root := rfl
  data := Tree.read_of_write hsidecar hapart hbelow (Tree.read_write hdata)
  sidecar := ⟨x, Tree.read_write hsidecar⟩
  others := fun q c hq hq' hbelow hbelow' hread =>
    Tree.read_of_write hsidecar hq' hbelow'
      (Tree.read_of_write hdata hq hbelow (hcleared q c hq hread))

theorem replace_ok (hapart : p.data ≠ p.sidecar) (hbelow : p.sidecar ∉ ancestors p.data)
    (h : s.replace p u content = (s', .ok info)) : Replaced s s' p content := by
  unfold replace at h
  dsimp only at h
  split at h
  · cases h
  · next files hdata =>
    split at h
    · cases h
    · next files' hsidecar =>
      cases h
      refine replaced_of_writes hapart hbelow (fun q c hq hread => ?_) hdata hsidecar
      split_ifs
      · split
        · next cleared hremove => exact Tree.read_of_remove hremove hq hread
        · exact hread
      · exact hread

/-- **Storing in a directory**: the artifact and its sidecar are in their places, and the files
    elsewhere are as before. -/
theorem put_ok (hbody : u.body = .ok content) (hplaces : s.places u.key = .ok p)
    (hapart : p.data ≠ p.sidecar) (hbelow : p.sidecar ∉ ancestors p.data)
    (h : s.put u = (s', .ok info)) : Replaced s s' p content := by
  unfold put at h
  rw [hplaces, hbody] at h
  dsimp only at h
  split_ifs at h with htaken hcanceled
  · cases h
  · split at h <;> cases h
  · split at h
    · cases h
    · next files hdirectory =>
      obtain ⟨hroot, hdata, hsidecar, hothers⟩ := replace_ok hapart hbelow h
      exact ⟨hroot, hdata, hsidecar, fun q c hq hq' hbelow hbelow' hread =>
        hothers q c hq hq' hbelow hbelow' (Tree.read_of_makeDirectory hdirectory hread)⟩

theorem sidecarAt_ok {q : Location} {x : Sidecar} :
    s.sidecarAt q = .ok x ↔ ∃ y, s.files.read q = .ok y ∧ y.sidecar? = some x := by
  unfold sidecarAt
  cases s.files.read q with
  | error e => simp
  | ok y => cases hy : y.sidecar? <;> simp [hy]

theorem head_ok : s.head key = .ok info ↔
    ∃ p, s.places key = .ok p ∧ ∃ x, s.sidecarAt p.sidecar = .ok x ∧
      x.info key (s.url key) = info := by
  simp only [head, bind_eq_ok, mapError_eq_ok, pure, Except.pure, Except.ok.injEq]

/-- An artifact is found iff its sidecar and its content can be read. -/
theorem get_ok : s.get key = .ok (info, content) ↔
    s.head key = .ok info ∧
      ∃ p d, s.places key = .ok p ∧ s.files.read p.data = .ok d ∧ d.text? = some content := by
  simp only [get, bind_eq_ok, mapError_eq_ok]
  constructor
  · rintro ⟨i, hhead, p, hplaces, d, hdata, h⟩
    split at h
    · next c hc =>
      cases h
      exact ⟨hhead, p, d, hplaces, hdata, hc⟩
    · cases h
  · rintro ⟨hhead, p, d, hplaces, hdata, hc⟩
    exact ⟨info, hhead, p, hplaces, d, hdata, by rw [hc]; rfl⟩

theorem get_mono (hroot : s'.root = s.root) (hplaces : s.places key = .ok p)
    (hdata : ∀ c, s.files.read p.data = .ok c → s'.files.read p.data = .ok c)
    (hsidecar : ∀ c, s.files.read p.sidecar = .ok c → s'.files.read p.sidecar = .ok c)
    (h : s.get key = .ok (info, content)) : s'.get key = .ok (info, content) := by
  have hplaces' : s'.places key = .ok p := by rw [places, hroot]; exact hplaces
  obtain ⟨hhead, p₁, d, hp₁, hd, hc⟩ := get_ok.1 h
  obtain ⟨p₂, hp₂, x, hx, hinfo⟩ := head_ok.1 hhead
  obtain ⟨y, hy, hyx⟩ := sidecarAt_ok.1 hx
  obtain rfl : p = p₁ := Except.ok.inj (hplaces.symm.trans hp₁)
  obtain rfl : p = p₂ := Except.ok.inj (hplaces.symm.trans hp₂)
  refine get_ok.2 ⟨head_ok.2 ⟨p, hplaces', x, sidecarAt_ok.2 ⟨y, hsidecar y hy, hyx⟩, ?_⟩,
    p, d, hplaces', hdata d hd, hc⟩
  rw [url, hroot]
  exact hinfo

theorem Replaced.get (h : Replaced s s' p content) (hplaces : s.places key = .ok p) :
    ∃ info, s'.get key = .ok (info, content) := by
  have hplaces' : s'.places key = .ok p := by rw [places, h.root]; exact hplaces
  obtain ⟨x, hx⟩ := h.sidecar
  exact ⟨_, get_ok.2 ⟨head_ok.2 ⟨p, hplaces', x, sidecarAt_ok.2 ⟨_, hx, rfl⟩, rfl⟩,
    p, _, hplaces', h.data, rfl⟩⟩

/-- The places of a name in a directory. -/
def placesIn (folder : Location) (name : String) : Places :=
  { data := folder ++ [name], sidecar := folder ++ [name ++ sidecarEnding] }

theorem isFileName_sidecar {name : String} (h : '/' ∉ name.toList) :
    Path.IsFileName (name ++ sidecarEnding) := by
  have hending : 5 ≤ (name ++ sidecarEnding).length := by
    rw [String.length_append]
    exact Nat.le_add_left 5 _
  refine ⟨?_, ?_, ?_, ?_⟩
  · rw [String.toList_append, List.mem_append]
    exact not_or.2 ⟨h, by decide⟩
  all_goals
    intro he
    rw [he] at hending
    exact absurd hending (by decide)

/-- The files with one text in front of their names are kept in one directory. -/
theorem exists_folder (s : DirectoryStore) {front : String} (hfront : Path.IsFront front) :
    ∃ folder, ∀ name p, Path.IsFileName name → s.places (front ++ name) = .ok p →
      p = placesIn folder name := by
  obtain ⟨front₁, hfront₁, hclean⟩ := Path.clean_front hfront
  obtain ⟨front₂, hfront₂, hjoin⟩ := Path.join_front s.root hfront₁
  refine ⟨locationOf front₂, fun name p h hp => ?_⟩
  obtain ⟨key, hkey, rfl⟩ := map_eq_ok.1 hp
  have hkey : key = front₁ ++ name := by
    rw [← hclean name h]
    unfold storageKey at hkey
    split_ifs at hkey
    exact (Except.ok.inj hkey).symm
  rw [hkey, placesOf, hjoin name h, String.append_assoc, Path.locationOf_front hfront₂ h,
    Path.locationOf_front hfront₂ (isFileName_sidecar h.slash), placesIn]

theorem places_of_put (h : s.put u = (s', .ok info)) : ∃ p, s.places u.key = .ok p := by
  unfold put at h
  cases hplaces : s.places u.key with
  | error e =>
    rw [hplaces] at h
    cases h
  | ok p => exact ⟨p, rfl⟩

theorem places_of_get (h : s.get key = .ok (info, content)) : ∃ p, s.places key = .ok p := by
  obtain ⟨-, p, d, hp, -⟩ := get_ok.1 h
  exact ⟨p, hp⟩

section
variable {folder : Location} {a b : String}

theorem replaced_of_put (hbody : u.body = .ok content)
    (hplaces : s.places u.key = .ok (placesIn folder a)) (h : s.put u = (s', .ok info)) :
    Replaced s s' (placesIn folder a) content := by
  refine put_ok hbody hplaces ?_ (Tree.not_mem_ancestors (by simp [placesIn])) h
  intro he
  have hname : a = a ++ sidecarEnding := by simpa [placesIn] using he
  have hlength := congrArg String.length hname
  rw [String.length_append] at hlength
  exact absurd hlength (by simp [sidecarEnding])

/-- Storing an artifact keeps those of other names in its directory. -/
theorem Replaced.keeps (h : Replaced s s' (placesIn folder a) content) (ha : IsArtifactName a)
    (hb : IsArtifactName b) (hne : b ≠ a) (hplaces : s.places key = .ok (placesIn folder b))
    {found : Info × String} (hget : s.get key = .ok found) : s'.get key = .ok found := by
  -- all places are equally far from the root, so none is above another
  have hdata : (placesIn folder a).data.length = folder.length + 1 := by simp [placesIn]
  have hsidecar : (placesIn folder a).sidecar.length = folder.length + 1 := by simp [placesIn]
  have hkept : ∀ name, name ≠ a → name ≠ a ++ sidecarEnding → ∀ c,
      s.files.read (folder ++ [name]) = .ok c → s'.files.read (folder ++ [name]) = .ok c := by
    intro name hname hname' c
    have hlength : (folder ++ [name]).length = folder.length + 1 := by simp
    exact h.others _ c (by simpa [placesIn] using hname) (by simpa [placesIn] using hname')
      (Tree.not_mem_ancestors (by omega)) (Tree.not_mem_ancestors (by omega))
  refine get_mono h.root hplaces (hkept b hne (hb.ne_sidecar a)) ?_ hget
  refine hkept _ (ha.ne_sidecar b).symm fun he => hne ?_
  exact (String.append_left_inj _).1 he

end

end DirectoryStore

/-! ## Other stores -/

namespace MemoryStore

theorem get_ok {s : MemoryStore} {key : String} {o : Stored} :
    s.get key = .ok o ↔ s.objects.lookup key = some o := by
  unfold get
  cases s.objects.lookup key <;> simp

theorem put_ok {s s' : MemoryStore} {u : Upload} {info : Info} {content : String}
    (hbody : u.body = .ok content) (h : s.put u = .ok (s', info)) :
    s'.objects = Data.putEntry u.key { info, content } s.objects := by
  unfold put at h
  rw [hbody] at h
  dsimp only at h
  split_ifs at h
  cases h
  rfl

end MemoryStore

namespace BucketStore

theorem get_ok {s : BucketStore} {key : String} {o : Stored} :
    s.get key = .ok o ↔
      key ≠ "" ∧ s.isReachable = true ∧ s.objects.lookup key = some o := by
  unfold get
  split_ifs with h
  · rcases h with h | h <;> simp_all
  · simp only [not_or, Bool.not_eq_true', Bool.not_eq_false] at h
    cases s.objects.lookup key <;> simp [h]

theorem put_ok {s s' : BucketStore} {u : Upload} {info : Info} {content : String}
    (hbody : u.body = .ok content) (h : s.put u = .ok (s', info)) :
    u.key ≠ "" ∧ s'.isReachable = true ∧
      s'.objects = Data.putEntry u.key { info, content := received content } s.objects := by
  unfold put at h
  rw [hbody] at h
  dsimp only at h
  split_ifs at h with hblank hreach
  cases h
  refine ⟨?_, by simpa using hreach, rfl⟩
  intro hkey
  rw [hkey] at hblank
  exact hblank rfl

end BucketStore

/-! ## Any store -/

namespace Sink

/-- What a store makes of a content. -/
def kept : Sink → String → String
  | bucket _, content => received content
  | _, content => content

/-- The store has a content under a key. -/
def Holds (s : Sink) (key content : String) : Prop := ∃ info, s.get key = .ok (info, content)

variable {s s' : Sink} {u : Upload} {info : Info} {front a b content other : String}

theorem holds_memory {m : MemoryStore} {key : String} :
    (memory m).Holds key content ↔ ∃ info, m.objects.lookup key = some { info, content } := by
  refine exists_congr fun info => ?_
  simp only [get, map_eq_ok, MemoryStore.get_ok]
  constructor
  · rintro ⟨o, ho, he⟩
    cases he
    exact ho
  · exact fun h => ⟨_, h, rfl⟩

theorem holds_bucket {m : BucketStore} {key : String} :
    (bucket m).Holds key content ↔ key ≠ "" ∧ m.isReachable = true ∧
      ∃ info, m.objects.lookup key = some { info, content } := by
  simp only [Holds, get, map_eq_ok, BucketStore.get_ok]
  constructor
  · rintro ⟨info, o, ⟨hkey, hreach, ho⟩, he⟩
    cases he
    exact ⟨hkey, hreach, _, ho⟩
  · rintro ⟨hkey, hreach, info, h⟩
    exact ⟨info, _, ⟨hkey, hreach, h⟩, rfl⟩

theorem put_ok (hbody : u.body = .ok content) (h : s.put u = (s', .ok info)) :
    (∃ m m', s = memory m ∧ s' = memory m' ∧
      m'.objects = Data.putEntry u.key { info, content } m.objects) ∨
    (∃ d d', s = directory d ∧ s' = directory d' ∧ d.put u = (d', .ok info)) ∨
    (∃ b b', s = bucket b ∧ s' = bucket b' ∧ u.key ≠ "" ∧ b'.isReachable = true ∧
      b'.objects = Data.putEntry u.key { info, content := received content } b.objects) := by
  unfold put at h
  split at h
  · next m =>
    split at h
    · next m' i hput =>
      cases h
      exact Or.inl ⟨m, m', rfl, rfl, MemoryStore.put_ok hbody hput⟩
    · cases h
  · next d =>
    obtain ⟨hstore, hanswer⟩ := Prod.mk.inj h
    exact Or.inr (Or.inl ⟨d, (d.put u).1, rfl, hstore.symm, Prod.ext rfl hanswer⟩)
  · next b =>
    split at h
    · next b' i hput =>
      cases h
      obtain ⟨hkey, hreach, hobjects⟩ := BucketStore.put_ok hbody hput
      exact Or.inr (Or.inr ⟨b, b', rfl, rfl, hkey, hreach, hobjects⟩)
    · cases h

theorem kept_put (hbody : u.body = .ok content) (h : s.put u = (s', .ok info)) :
    s'.kept = s.kept := by
  rcases put_ok hbody h with ⟨m, m', rfl, rfl, -⟩ | ⟨d, d', rfl, rfl, -⟩ | ⟨b, b', rfl, rfl, -⟩ <;>
    rfl

/-- **What is put into a store** is found there. -/
theorem holds_put (hfront : Path.IsFront front) (ha : IsArtifactName a) (hkey : u.key = front ++ a)
    (hbody : u.body = .ok content) (h : s.put u = (s', .ok info)) :
    s'.Holds u.key (s.kept content) := by
  rcases put_ok hbody h with ⟨m, m', rfl, rfl, hobjects⟩ | ⟨d, d', rfl, rfl, hput⟩ |
    ⟨b, b', rfl, rfl, hne, hreach, hobjects⟩
  · exact holds_memory.2 ⟨info, by rw [hobjects, Data.lookup_putEntry, if_pos rfl]; rfl⟩
  · obtain ⟨folder, hfolder⟩ := d.exists_folder hfront
    obtain ⟨p, hp⟩ := DirectoryStore.places_of_put hput
    obtain rfl := hfolder a p ha.toIsFileName (hkey ▸ hp)
    exact (DirectoryStore.replaced_of_put hbody hp hput).get hp
  · exact holds_bucket.2 ⟨hne, hreach, info, by
      rw [hobjects, Data.lookup_putEntry, if_pos rfl]
      rfl⟩

/-- **What is in a store** is found there after something else was put into its directory. -/
theorem holds_of_put (hfront : Path.IsFront front) (ha : IsArtifactName a)
    (hb : IsArtifactName b) (hne : b ≠ a) (hkey : u.key = front ++ a)
    (hbody : u.body = .ok content) (h : s.put u = (s', .ok info))
    (hholds : s.Holds (front ++ b) other) : s'.Holds (front ++ b) other := by
  have hkeys : front ++ b ≠ u.key := by
    rw [hkey]
    exact fun he => hne ((String.append_right_inj _).1 he)
  rcases put_ok hbody h with ⟨m, m', rfl, rfl, hobjects⟩ | ⟨d, d', rfl, rfl, hput⟩ |
    ⟨m, m', rfl, rfl, -, hreach, hobjects⟩
  · obtain ⟨i, hi⟩ := holds_memory.1 hholds
    exact holds_memory.2 ⟨i, by rw [hobjects, Data.lookup_putEntry, if_neg hkeys, hi]⟩
  · obtain ⟨folder, hfolder⟩ := d.exists_folder hfront
    obtain ⟨p, hp⟩ := DirectoryStore.places_of_put hput
    obtain rfl := hfolder a p ha.toIsFileName (hkey ▸ hp)
    obtain ⟨i, hi⟩ := hholds
    obtain ⟨q, hq⟩ := DirectoryStore.places_of_get hi
    obtain rfl := hfolder b q hb.toIsFileName hq
    exact ⟨i, (DirectoryStore.replaced_of_put hbody hp hput).keeps ha hb hne hq hi⟩
  · obtain ⟨hb, -, i, hi⟩ := holds_bucket.1 hholds
    exact holds_bucket.2 ⟨hb, hreach, i, by rw [hobjects, Data.lookup_putEntry, if_neg hkeys, hi]⟩

end Sink

end Artifact

end ObjectLowering
