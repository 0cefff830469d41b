/-
  Member paths, and the search for them.

  A member path leads from an object through structs nested by value; it is
  given as a `Location`, the last member with those that enclose it.

  * `Reached` are the paths of a class, by its features alone.
  * `survey_depthFirst`: the survey of a class is a depth-first search for
    paths with one set of keys, and its records are read off the trace, the
    list of the paths that it visits.  Here the bound on the depth is shown
    to be enough: structs on the way have different ids.
-/
import ObjectLowering.Lowering.Location
import ObjectLowering.Proofs.DepthFirst
import ObjectLowering.Proofs.Flattening

namespace ObjectLowering.Lowering

open Model Code

/-! ## Paths -/

/-- The members of a classifier under a stem, attributes first. -/
def dataOf (r : Registry) (c : Classifier) (stem : String) : List Member :=
  (Features.ofFlattened (flatten r c stem)).data

/-- The ids of the structs that members embed. -/
def structIds (via : List Member) : List String :=
  via.filterMap fun m => m.storage.classifier.map (·.id)

/-- The struct whose members are addressed through a member: one nested by value, neither a
    collection inside a keyed member nor a struct inside itself. -/
def opened (root : String) (via : List Member) (m : Member) : Option Classifier :=
  m.storage.classifier.filter fun c =>
    m.isNested && !(via.any (·.isKeyed) && m.isKeyed) &&
      !((structIds via).contains c.id || c.id == root)

/-- The member paths of a class: its own members, and the members of the structs that members on a
    path open. Members from another family are no part of it. -/
inductive Reached (r : Registry) (root : Classifier) (stem : String) : Location → Prop where
  | top {m : Member} (hm : m ∈ dataOf r root stem) (hf : m.isForeign = false) :
    Reached r root stem ⟨[], m⟩
  | inside {via : List Member} {m x : Member} {c : Classifier} (h : Reached r root stem ⟨via, m⟩)
    (ho : opened root.id via m = some c) (hx : x ∈ dataOf r c m.key) (hf : x.isForeign = false) :
    Reached r root stem ⟨via ++ [m], x⟩

section
variable {r : Registry} {c : Classifier} {stem : String} {m : Member}

theorem mem_dataOf : m ∈ dataOf r c stem ↔ m ∈ membersOf (flatten r c stem) :=
  (data_perm _).mem_iff

theorem key_of_mem_dataOf (h : m ∈ dataOf r c stem) : m.key = keyOf stem m.name :=
  key_of_mem_flatten (mem_dataOf.1 h)

theorem dataOf_names_nodup (r : Registry) (c : Classifier) (stem : String) :
    ((dataOf r c stem).map (·.name)).Nodup :=
  ((data_perm _).map _).nodup_iff.2 (membersOf_names_nodup r c stem)

theorem claim_of_mem_dataOf (h : m ∈ dataOf r c stem) :
    (m.key, m.claimOwner) ∈ claimsOf (flatten r c stem) :=
  List.mem_map.2 ⟨m, mem_dataOf.1 h, rfl⟩

theorem mem_classifiers {id : String} (h : r.classifier? id = some c) : c ∈ r.classifiers := by
  unfold Registry.classifier? at h
  split at h
  · next x hx =>
    obtain rfl := Option.some.inj h
    exact List.mem_filterMap.2 ⟨_, List.mem_of_find?_eq_some hx, rfl⟩
  · simp at h

/-- The type of a member is a classifier of the registry. -/
theorem classifier_of_mem_dataOf {d : Classifier} (h : m ∈ dataOf r c stem)
    (hd : m.storage.classifier = some d) : d ∈ r.classifiers := by
  obtain ⟨x, f, -, -, rfl⟩ := mem_membersOf_flatten.1 (mem_dataOf.1 h)
  exact mem_classifiers hd

theorem opened_eq_some {root : String} {via : List Member} :
    opened root via m = some c ↔
      m.storage.classifier = some c ∧ m.isNested = true ∧
        (via.any (·.isKeyed) && m.isKeyed) = false ∧ c.id ∉ structIds via ∧ c.id ≠ root := by
  simp only [opened, Option.filter_eq_some_iff, Bool.and_eq_true, Bool.not_eq_true', and_assoc,
    Bool.or_eq_false_iff, List.contains_eq_mem, decide_eq_false_iff_not, beq_eq_false_iff_ne]

end

section
variable {r : Registry} {root : Classifier} {stem : String}

/-- **The key of a path** is put together from the names on it. -/
theorem Reached.key_eq {l : Location} (h : Reached r root stem l) :
    l.key = l.names.foldl keyOf stem := by
  induction h with
  | top hm => exact key_of_mem_dataOf hm
  | @inside via m x c h ho hx hf ih =>
    have hk : x.key = keyOf m.key x.name := key_of_mem_dataOf hx
    simp only [Location.key, Location.names, List.map_append, List.map_cons, List.map_nil,
      List.foldl_append, List.foldl_cons, List.foldl_nil] at ih ⊢
    rw [hk, ih]

end

/-! ## The search -/

/-- The paths to members enclosed by `via`, members of another family left out. -/
def paths (via ms : List Member) : List Location :=
  (ms.filter fun m => !m.isForeign).map fun m => ⟨via, m⟩

/-- The paths that a path leads to: those to the members of the struct that it opens. -/
def Location.inner (r : Registry) (root : String) (l : Location) : List Location :=
  match opened root l.via l.member with
  | some c => paths (l.via ++ [l.member]) (dataOf r c l.key)
  | none => []

/-- The claims that entering the struct at the end of a path makes. -/
def Location.innerClaims (r : Registry) (root : String) (l : Location) : List (String × String) :=
  match opened root l.via l.member with
  | some c => claimsOf (flatten r c l.key)
  | none => []

/-- The reports on a path: those on the members of the struct that it opens, or why a nested struct
    stays closed. -/
def Location.innerNotes (r : Registry) (root : String) (l : Location) : List Diagnostic :=
  match opened root l.via l.member with
  | some c => notesOf (flatten r c l.key)
  | none =>
    if !l.member.isNested then []
    else if l.via.any (·.isKeyed) && l.member.isKeyed then [nestedCollectionNote l.member]
    else l.member.storage.classifier.toList.map (recursiveStructNote l.member)

/-- The survey `s'` continues `s` by a search, whose trace gives all records. -/
def Survey.Continues (r : Registry) (root : String) (via ms : List Member) (s s' : Survey) : Prop :=
  ∃ tr, DepthFirst Location.key (Location.inner r root) s.visited (paths via ms) tr ∧
    s'.locations = s.locations ++ tr.filter (fun l => !l.member.isNested) ∧
    s'.claims = s.claims ++ tr.flatMap (·.innerClaims r root) ∧
    (∀ k, k ∈ s'.visited ↔ k ∈ tr.map Location.key ∨ k ∈ s.visited) ∧
    s'.notes = s.notes ++ tr.flatMap (·.innerNotes r root)

section
variable {r : Registry} {root : String} {via ms : List Member} {m : Member} {c : Classifier}
  {active : List String} {l : Location}

theorem mem_paths :
    l ∈ paths via ms ↔ l.via = via ∧ l.member ∈ ms ∧ l.member.isForeign = false := by
  obtain ⟨v, x⟩ := l
  simp only [paths, List.mem_map, List.mem_filter, Bool.not_eq_true', Location.mk.injEq]
  constructor
  · rintro ⟨y, hy, rfl, rfl⟩
    exact ⟨rfl, hy⟩
  · rintro ⟨rfl, hx⟩
    exact ⟨x, hx, rfl, rfl⟩

theorem paths_cons (hf : m.isForeign = false) : paths via (m :: ms) = ⟨via, m⟩ :: paths via ms := by
  simp [paths, hf]

theorem paths_cons_foreign (hf : m.isForeign = true) : paths via (m :: ms) = paths via ms := by
  simp [paths, hf]

theorem mem_inner {p : Location} :
    l ∈ p.inner r root ↔ l.via = p.via ++ [p.member] ∧ l.member.isForeign = false ∧
      ∃ c, opened root p.via p.member = some c ∧ l.member ∈ dataOf r c p.key := by
  unfold Location.inner
  split
  · next d hd =>
    rw [mem_paths]
    constructor
    · rintro ⟨hv, hm, hf⟩
      exact ⟨hv, hf, d, hd, hm⟩
    · rintro ⟨hv, hf, e, he, hm⟩
      rw [hd] at he
      obtain rfl := Option.some.inj he
      exact ⟨hv, hm, hf⟩
  · next hn => simp [hn]

theorem structIds_append (ho : opened root via m = some c) :
    structIds (via ++ [m]) = structIds via ++ [c.id] := by
  simp [structIds, List.filterMap_append, (opened_eq_some.1 ho).1]

/-- What the survey makes of one member: it passes it over, stops at it, or enters its struct. -/
theorem surveyMembers_singleton (r : Registry) (root : String) (depth : Nat) (m : Member)
    (s : Survey)
    (hact : ∀ id, id ∈ active ↔ id ∈ structIds via) :
    ((m.isForeign = true ∨ m.key ∈ s.visited) ∧
      surveyMembers r root (depth + 1) via active [m] s = s) ∨
    (m.isForeign = false ∧ m.key ∉ s.visited ∧ opened root via m = none ∧
      surveyMembers r root (depth + 1) via active [m] s = { s with
        notes := s.notes ++ Location.innerNotes r root ⟨via, m⟩, visited := m.key :: s.visited
        locations := s.locations ++ if m.isNested then [] else [⟨via, m⟩] }) ∨
    (m.isForeign = false ∧ m.key ∉ s.visited ∧ ∃ c, opened root via m = some c ∧
      surveyMembers r root (depth + 1) via active [m] s =
        surveyMembers r root depth (via ++ [m]) (c.id :: active) (dataOf r c m.key) { s with
          notes := s.notes ++ notesOf (flatten r c m.key), visited := m.key :: s.visited
          claims := s.claims ++ claimsOf (flatten r c m.key) }) := by
  simp only [surveyMembers, List.foldl_cons, List.foldl_nil]
  by_cases hskip : (m.isForeign || s.visited.contains m.key) = true
  · rw [if_pos hskip]
    left
    simpa using hskip
  · rw [if_neg hskip]
    right
    simp only [Bool.or_eq_true, List.contains_eq_mem, decide_eq_true_eq, not_or,
      Bool.not_eq_true] at hskip
    have stopped : ∀ c, m.storage.classifier = some c →
        (m.isNested = false ∨ (via.any (·.isKeyed) && m.isKeyed) = true ∨
          (active.contains c.id || c.id == root) = true) → opened root via m = none := by
      intro c hc h
      rw [Option.eq_none_iff_forall_ne_some]
      intro d hd
      obtain ⟨hd, hn, hk, ha, hr⟩ := opened_eq_some.1 hd
      obtain rfl := Option.some.inj (hc.symm.trans hd)
      rcases h with h | h | h
      · simp [hn] at h
      · simp [hk] at h
      · simp [hact, ha, hr] at h
    cases hc : m.storage.classifier with
    | none =>
      have hn : m.isNested = false := by simp [Member.isNested, hc]
      have ho : opened root via m = none := by simp [opened, hc]
      exact Or.inl ⟨hskip.1, hskip.2, ho, by simp [Location.innerNotes, ho, hn]⟩
    | some c =>
      simp only
      by_cases hn : m.isNested = true
      · rw [if_neg (by simp [hn])]
        by_cases hk : (via.any (·.isKeyed) && m.isKeyed) = true
        · have ho := stopped c hc (Or.inr (Or.inl hk))
          rw [if_pos hk]
          exact Or.inl ⟨hskip.1, hskip.2, ho, by simp [Location.innerNotes, ho, hn, hk]⟩
        · rw [if_neg hk]
          by_cases ha : (active.contains c.id || c.id == root) = true
          · have ho := stopped c hc (Or.inr (Or.inr ha))
            rw [if_pos ha]
            exact Or.inl ⟨hskip.1, hskip.2, ho, by simp [Location.innerNotes, ho, hn, hk, hc]⟩
          · rw [if_neg ha]
            simp only [Bool.or_eq_true, List.contains_eq_mem, decide_eq_true_eq, not_or, hact,
              beq_iff_eq] at ha
            exact Or.inr ⟨hskip.1, hskip.2, c,
              opened_eq_some.2 ⟨hc, hn, Bool.eq_false_iff.2 hk, ha⟩, rfl⟩
      · have ho := stopped c hc (Or.inl (Bool.eq_false_iff.2 hn))
        rw [if_pos (by simp [hn])]
        exact Or.inl ⟨hskip.1, hskip.2, ho, by simp [Location.innerNotes, ho, hn]⟩

/-- The structs that `via` leads through are different classifiers of the registry. -/
structure Leads (r : Registry) (via : List Member) : Prop where
  nodup : (structIds via).Nodup
  known : structIds via ⊆ r.classifiers.map (·.id)
  length : (structIds via).length = via.length

theorem Leads.length_le (h : Leads r via) : via.length ≤ r.classifiers.length := by
  have hle := (List.subperm_of_subset h.nodup h.known).length_le
  rw [List.length_map] at hle
  exact h.length ▸ hle

theorem Leads.append (h : Leads r via) (ho : opened root via m = some c) (hc : c ∈ r.classifiers) :
    Leads r (via ++ [m]) where
  nodup := by
    rw [structIds_append ho, List.nodup_append_comm]
    exact List.nodup_cons.2 ⟨(opened_eq_some.1 ho).2.2.2.1, h.nodup⟩
  known := by
    rw [structIds_append ho]
    exact List.append_subset.2 ⟨h.known, by simpa using ⟨c, hc, rfl⟩⟩
  length := by
    rw [structIds_append ho, List.length_append, List.length_append, h.length]
    rfl

namespace Survey.Continues
variable {s s' s₁ s₂ : Survey}

theorem skip (hskip : m.isForeign = true ∨ m.key ∈ s.visited)
    (h : s.Continues r root via ms s') : s.Continues r root via (m :: ms) s' := by
  obtain ⟨tr, hsearch, hrecords⟩ := h
  refine ⟨tr, ?_, hrecords⟩
  cases hf : m.isForeign with
  | true => rwa [paths_cons_foreign hf]
  | false =>
    rw [paths_cons hf]
    exact .skip (hskip.resolve_left (by simp [hf])) hsearch

/-- The search records a path that is not opened, and goes on. -/
theorem leaf (hf : m.isForeign = false) (hk : m.key ∉ s.visited) (ho : opened root via m = none)
    (h : Survey.Continues r root via ms { s with
      notes := s.notes ++ Location.innerNotes r root ⟨via, m⟩, visited := m.key :: s.visited
      locations := s.locations ++ if m.isNested then [] else [⟨via, m⟩] } s') :
    s.Continues r root via (m :: ms) s' := by
  obtain ⟨tr, hsearch, hl, hc, hv, hn⟩ := h
  have hinner : (⟨via, m⟩ : Location).inner r root = [] := by rw [Location.inner, ho]
  refine ⟨⟨via, m⟩ :: tr, ?_, ?_, ?_, fun k => ?_, ?_⟩
  · rw [paths_cons hf]
    have hkey : (⟨via, m⟩ : Location).key ∉ s.visited := hk
    exact .visit_leaf hkey hinner hsearch
  · rw [hl]
    by_cases hn : m.isNested = true <;> simp [hn]
  · rw [hc]
    simp [Location.innerClaims, ho]
  · rw [hv]
    simp only [List.mem_cons, List.map_cons, Location.key, or_left_comm, or_assoc]
  · rw [hn, List.flatMap_cons, List.append_assoc]

/-- The search goes through the members of an opened struct before the members beside it. -/
theorem inside (hf : m.isForeign = false) (hk : m.key ∉ s.visited)
    (ho : opened root via m = some c)
    (h₁ : Survey.Continues r root (via ++ [m]) (dataOf r c m.key) { s with
      notes := s.notes ++ notesOf (flatten r c m.key), visited := m.key :: s.visited
      claims := s.claims ++ claimsOf (flatten r c m.key) } s₁)
    (h₂ : s₁.Continues r root via ms s₂) : s.Continues r root via (m :: ms) s₂ := by
  obtain ⟨tr₁, hw₁, hl₁, hc₁, hv₁, hn₁⟩ := h₁
  obtain ⟨tr₂, hw₂, hl₂, hc₂, hv₂, hn₂⟩ := h₂
  have hinner : (⟨via, m⟩ : Location).inner r root = paths (via ++ [m]) (dataOf r c m.key) := by
    rw [Location.inner, ho]
    rfl
  refine ⟨⟨via, m⟩ :: (tr₁ ++ tr₂), ?_, ?_, ?_, fun k => ?_, ?_⟩
  · rw [paths_cons hf]
    have hkey : (⟨via, m⟩ : Location).key ∉ s.visited := hk
    refine .visit hkey (hinner ▸ hw₁) (hw₂.congr_seen fun k => ?_)
    rw [hv₁, List.mem_append]
    rfl
  · have hn : m.isNested = true := (opened_eq_some.1 ho).2.1
    rw [hl₂, hl₁]
    simp [hn]
  · rw [hc₂, hc₁]
    simp [Location.innerClaims, ho, Location.key]
  · rw [hv₂, hv₁]
    simp only [List.mem_cons, List.map_cons, List.map_append, List.mem_append, Location.key,
      or_left_comm, or_assoc]
  · have hnotes : Location.innerNotes r root ⟨via, m⟩ = notesOf (flatten r c m.key) := by
      simp [Location.innerNotes, ho, Location.key]
    rw [hn₂, hn₁, List.flatMap_cons, List.flatMap_append, hnotes]
    simp only [List.append_assoc]

end Survey.Continues

/-- **The survey makes a search**, as long as the depth is more than the number of classifiers that
    the path has not led through. -/
theorem surveyMembers_continues (r : Registry) (root : String) (depth : Nat) (via : List Member)
    (active : List String) (ms : List Member) (s : Survey)
    (hact : ∀ id, id ∈ active ↔ id ∈ structIds via) (hvia : Leads r via)
    (hdepth : r.classifiers.length < depth + via.length)
    (hms : ∀ m ∈ ms, ∀ c, m.storage.classifier = some c → c ∈ r.classifiers) :
    s.Continues r root via ms (surveyMembers r root depth via active ms s) := by
  induction depth generalizing via active ms s with
  | zero => have := hvia.length_le; omega
  | succ depth ihd =>
    induction ms generalizing s with
    | nil => exact ⟨[], .nil, by simp [surveyMembers]⟩
    | cons m ms ihm =>
      have hcons : surveyMembers r root (depth + 1) via active (m :: ms) s =
          surveyMembers r root (depth + 1) via active ms
            (surveyMembers r root (depth + 1) via active [m] s) := rfl
      have ihm := fun s => ihm s fun x hx => hms x (by simp [hx])
      rw [hcons]
      rcases surveyMembers_singleton r root depth m s hact with
        ⟨hskip, hs⟩ | ⟨hf, hk, ho, hs⟩ | ⟨hf, hk, c, ho, hs⟩
      · rw [hs]
        exact (ihm s).skip hskip
      · rw [hs]
        exact (ihm _).leaf hf hk ho
      · have hcr : c ∈ r.classifiers := hms m (by simp) c (opened_eq_some.1 ho).1
        have hinner := ihd (via ++ [m]) (c.id :: active) (dataOf r c m.key)
          { s with
            notes := s.notes ++ notesOf (flatten r c m.key), visited := m.key :: s.visited
            claims := s.claims ++ claimsOf (flatten r c m.key) }
          (fun id => by simp [structIds_append ho, hact, or_comm])
          (hvia.append ho hcr) (by rw [List.length_append, List.length_singleton]; omega)
          (fun x hx d => classifier_of_mem_dataOf hx)
        rw [← hs] at hinner
        exact hinner.inside hf hk ho (ihm _)

end

/-! ## Traces -/

/-- The path that a path continues, if there is one, is in a trace. -/
def Follows (tr : List Location) (l : Location) : Prop :=
  ∀ v p, l.via = v ++ [p] → (⟨v, p⟩ : Location) ∈ tr

section
variable {r : Registry} {root : Classifier} {stem : String} {ms : List Member}
  {seen : List String} {tr : List Location} {l : Location}

/-- A search from the members of a class visits member paths only. -/
theorem reached_of_mem_trace
    (h : DepthFirst Location.key (Location.inner r root.id) seen (paths [] (dataOf r root stem)) tr)
    (hl : l ∈ tr) : Reached r root stem l := by
  refine h.forall_mem (fun l hl => ?_) (fun p hp l hl => ?_) l hl
  · obtain ⟨via, m⟩ := l
    obtain ⟨rfl, hm, hf⟩ := mem_paths.1 hl
    exact .top hm hf
  · obtain ⟨via, m⟩ := l
    obtain ⟨rfl, hf, c, ho, hm⟩ := mem_inner.1 hl
    exact .inside hp ho hm hf

theorem follows_of_mem_trace
    (h : DepthFirst Location.key (Location.inner r root.id) seen (paths [] ms) tr) (hl : l ∈ tr) :
    Follows tr l := by
  intro v p hv
  rcases h.parent hl with hm | ⟨q, hq, hm⟩
  · rw [(mem_paths.1 hm).1] at hv
    simp at hv
  · rw [(mem_inner.1 hm).1] at hv
    obtain ⟨rfl, hp⟩ := List.append_inj' hv rfl
    rw [← List.singleton_inj.1 hp]
    exact hq

end

/-- The survey of a class is a depth-first search from its own members. -/
theorem survey_depthFirst (r : Registry) (root : Classifier) (stem : String) :
    ∃ tr, DepthFirst Location.key (Location.inner r root.id) [] (paths [] (dataOf r root stem)) tr ∧
      (survey r root (.ofFlattened (flatten r root stem))).locations =
        tr.filter (fun l => !l.member.isNested) ∧
      (survey r root (.ofFlattened (flatten r root stem))).claims =
        tr.flatMap (·.innerClaims r root.id) ∧
      (survey r root (.ofFlattened (flatten r root stem))).notes =
        tr.flatMap (·.innerNotes r root.id) := by
  obtain ⟨tr, hw, hl, hc, -, hn⟩ := surveyMembers_continues r root.id
    (r.classifiers.length + 1) [] [] (dataOf r root stem) {} (fun id => by simp [structIds])
    ⟨List.nodup_nil, by simp [structIds], rfl⟩ (by simp) (fun m hm c => classifier_of_mem_dataOf hm)
  rw [List.nil_append] at hl hc hn
  exact ⟨tr, hw, hl, hc, hn⟩

end ObjectLowering.Lowering
