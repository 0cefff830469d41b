/-
  The walks of all accessors of a class.

  The accessors are walked one after the other, with one set of active
  structs, one table of ids and one memory of what was flattened.

  * `Flattenings.flattening`: members of a struct are claimed when they are
    flattened for the first time under a prefix.
  * `walkAccessors` walks the accessors; the prefixes of a struct that is
    nested in itself are ever new, so it is not the memory that ends a walk.
  * `accessor_walks_exact`: every walk ends, with exact active sets throughout.
    Together the walks make the claims of the survey, have its locations as
    cases and skip what it reports; so they are what lowering a class does.
-/
import ObjectLowering.Proofs.Claims
import ObjectLowering.Proofs.Collecting
import ObjectLowering.Proofs.Walking

namespace ObjectLowering.Lowering

open Model Code

/-! ## Claims one after the other -/

namespace IdTable

variable {t t' : IdTable} {name : String} {xs : List (String × String)} {n : Nat}

theorem claimAll_length (h : t.claimAll name xs = (t', n, none)) : n = xs.length := by
  induction xs generalizing t n with
  | nil =>
    rw [claimAll] at h
    exact (Prod.mk.inj (Prod.mk.inj h).2).1.symm
  | cons p xs ih =>
    obtain ⟨key, owner⟩ := p
    cases hc : t.claim name key owner with
    | error c =>
      rw [claimAll_error hc] at h
      cases h
    | ok q =>
      rw [claimAll_ok hc] at h
      obtain ⟨ht, hn, he⟩ : _ ∧ _ ∧ _ := by simpa only [Prod.mk.injEq] using h
      have hlength : (q.1.claimAll name xs).2.1 = xs.length :=
        ih (t := q.1) (Prod.ext ht (Prod.ext rfl he))
      rw [List.length_cons, ← hn, hlength]

/-- Claims go on from the table that claims before them leave, if none of those is refused. -/
theorem claimAll_append (t : IdTable) (xs ys : List (String × String)) :
    t.claimAll name (xs ++ ys) =
      match t.claimAll name xs with
      | (t', n, none) =>
        ((t'.claimAll name ys).1, n + (t'.claimAll name ys).2.1, (t'.claimAll name ys).2.2)
      | (t', n, some c) => (t', n, some c) := by
  induction xs generalizing t with
  | nil => simp [claimAll]
  | cons p xs ih =>
    obtain ⟨key, owner⟩ := p
    cases hc : t.claim name key owner with
    | error c => rw [List.cons_append, claimAll_error hc, claimAll_error hc]
    | ok q =>
      rw [List.cons_append, claimAll_ok hc, claimAll_ok hc, ih]
      rcases q.1.claimAll name xs with ⟨t', n, e⟩
      cases e with
      | none => simp only [Nat.add_right_comm]
      | some c => rfl

end IdTable

/-- The claims of the members and machines of a class, which come before those of its structs. -/
def Plan.ownClaims (p : Plan) (stems : Stems) : List (Claimant × String × String) :=
  (claimsOf p.flattened).map (Claimant.features, ·) ++ p.machines.flatMap (machineClaims stems)

/-- Claims that are refused after those of the members and machines are claims of features. -/
theorem lowerSimObject_eq {r : Registry} {stems : Stems} {c : Classifier} {t t' : IdTable} {n : Nat}
    (h : (t.withScope c.id).claimAll c.id
      (((Plan.of r stems c).ownClaims stems).map (·.2)) = (t', n, none)) :
    lowerSimObject r stems t c =
      match t'.claimAll c.id (Plan.of r stems c).survey.claims with
      | (t, _, none) => (t, .ok ((Plan.of r stems c).unit r stems (t.entries c.id)))
      | (t, _, some x) =>
        (t, .error { className := c.name, claimant := .features, collision := x }) := by
  let p := Plan.of r stems c
  have hsplit : p.claims stems = p.ownClaims stems ++ p.survey.claims.map (Claimant.features, ·) :=
    rfl
  have hclaims : (p.claims stems).map (·.2) =
      (p.ownClaims stems).map (·.2) ++ p.survey.claims := by
    rw [hsplit, List.map_append, List.map_map]
    exact congrArg _ (List.map_id _)
  have hlength : n = (p.ownClaims stems).length := by
    rw [IdTable.claimAll_length h, List.length_map]
  rw [lowerSimObject]
  dsimp only
  rw [hclaims, IdTable.claimAll_append, h]
  dsimp only
  rcases hs : t'.claimAll c.id p.survey.claims with ⟨t₂, n₂, e⟩
  cases e with
  | none => rfl
  | some x =>
    have hclaimant : ((p.claims stems)[n + n₂]?.map (·.1)).getD .features = .features := by
      rw [hsplit, hlength, List.getElem?_append_right (Nat.le_add_right _ _),
        Nat.add_sub_cancel_left, List.getElem?_map]
      cases p.survey.claims[n₂]? <;> rfl
    dsimp only
    rw [hclaimant]

/-! ## Flattening with a memory -/

/-- What was claimed and flattened. -/
structure Flattenings where
  table : IdTable
  /-- Prefixes and ids of what was flattened. -/
  memory : List (String × String)

/-- Flattens a classifier under a prefix for a class; its members are claimed, unless that was done
    before. -/
def Flattenings.flattening (r : Registry) (name : String) (c : Classifier) (stem : String)
    (s : Flattenings) : Flattenings × Option Collision :=
  if (stem, c.id) ∈ s.memory then (s, none)
  else
    match s.table.claimAll name (claimsOf (flatten r c stem)) with
    | (t, _, none) => ({ table := t, memory := (stem, c.id) :: s.memory }, none)
    | (t, _, some e) => ({ s with table := t }, some e)

/-- The walker of an accessor of a class. -/
def accessorWalker (r : Registry) (stems : Stems) (c : Classifier) (a : Accessor) :
    Walker Flattenings Collision :=
  { registry := r, root := c.id, stem := stems.feature, accessor := a
    flattening := Flattenings.flattening r c.id }

/-- Walks accessors up to the first error, and gives the locations with a case for each. -/
def walkAccessors (r : Registry) (stems : Stems) (c : Classifier) :
    List Accessor → Walk Flattenings →
      Option (Outcome Flattenings Collision × List (List Location))
  | [], w => some ((w, none), [])
  | a :: rest, w =>
    ((accessorWalker r stems c a).walk (r.classifiers.length + 1) c []
      { w with done := [], cases := [] }).bind fun
        | (w, none) => (walkAccessors r stems c rest w).map fun (o, cases) => (o, w.cases :: cases)
        | (w, some e) => some ((w, some e), [])

section
variable {r : Registry} {stems : Stems} {c : Classifier} {a : Accessor}
  {entries : List (Classifier × String)} {s : Flattenings}

theorem accessorWalker_flattening (r : Registry) (stems : Stems) (c : Classifier) (a : Accessor) :
    (accessorWalker r stems c a).flattening = Flattenings.flattening r c.id := rfl

theorem flattening_granted {d : Classifier} {name stem : String} {t : IdTable} {n : Nat}
    (hnew : (stem, d.id) ∉ s.memory)
    (hclaim : s.table.claimAll name (claimsOf (flatten r d stem)) = (t, n, none)) :
    Flattenings.flattening r name d stem s =
      ({ table := t, memory := (stem, d.id) :: s.memory }, none) := by
  rw [Flattenings.flattening, if_neg hnew, hclaim]

theorem flattening_refused {d : Classifier} {name stem : String} {t : IdTable} {n : Nat}
    {e : Collision} (hnew : (stem, d.id) ∉ s.memory)
    (hclaim : s.table.claimAll name (claimsOf (flatten r d stem)) = (t, n, some e)) :
    Flattenings.flattening r name d stem s = ({ s with table := t }, some e) := by
  rw [Flattenings.flattening, if_neg hnew, hclaim]

theorem flattenAll_known (h : ∀ x ∈ entries, (x.2, x.1.id) ∈ s.memory) :
    (accessorWalker r stems c a).flattenAll entries s = (s, none) := by
  induction entries with
  | nil => rfl
  | cons x entries ih =>
    have hflat : (accessorWalker r stems c a).flattening x.1 x.2 s = (s, none) :=
      if_pos (h x List.mem_cons_self)
    rw [Walker.flattenAll, hflat]
    exact ih fun y hy => h y (List.mem_cons_of_mem _ hy)

/-- Flattening what was not flattened before makes all claims. -/
theorem flattenAll_new (stems : Stems) (a : Accessor)
    (hnodup : (entries.map fun x => (x.2, x.1.id)).Nodup)
    (hnew : ∀ x ∈ entries, (x.2, x.1.id) ∉ s.memory) :
    ∃ s' e, (accessorWalker r stems c a).flattenAll entries s = (s', e) ∧
      (s.table.claimAll c.id (entries.flatMap fun x => claimsOf (flatten r x.1 x.2))).1 = s'.table ∧
      (s.table.claimAll c.id (entries.flatMap fun x => claimsOf (flatten r x.1 x.2))).2.2 = e ∧
      (e = none → s.memory ⊆ s'.memory ∧ ∀ x ∈ entries, (x.2, x.1.id) ∈ s'.memory) := by
  induction entries generalizing s with
  | nil => exact ⟨s, none, rfl, rfl, rfl, fun _ => ⟨fun _ hx => hx, by simp⟩⟩
  | cons x entries ih =>
    obtain ⟨hout, hnodup⟩ := List.nodup_cons.1 hnodup
    rw [Walker.flattenAll, List.flatMap_cons]
    rcases hclaim : s.table.claimAll c.id (claimsOf (flatten r x.1 x.2)) with ⟨t, n, e⟩
    cases e with
    | some e =>
      rw [accessorWalker_flattening, flattening_refused (hnew x List.mem_cons_self) hclaim]
      refine ⟨_, some e, rfl, ?_, ?_, fun he => by cases he⟩
      · rw [IdTable.claimAll_append, hclaim]
      · rw [IdTable.claimAll_append, hclaim]
    | none =>
      rw [accessorWalker_flattening, flattening_granted (hnew x List.mem_cons_self) hclaim]
      obtain ⟨s', e, hrun, htable, herror, hmemory⟩ :=
        ih (s := { table := t, memory := (x.2, x.1.id) :: s.memory }) hnodup fun y hy => by
          rw [List.mem_cons, not_or]
          refine ⟨fun heq => hout ?_, hnew y (List.mem_cons_of_mem _ hy)⟩
          exact List.mem_map.2 ⟨y, hy, heq⟩
      refine ⟨s', e, hrun, ?_, ?_, fun he => ?_⟩
      · rw [IdTable.claimAll_append, hclaim, ← htable]
      · rw [IdTable.claimAll_append, hclaim, ← herror]
      · obtain ⟨hold, hentries⟩ := hmemory he
        refine ⟨fun y hy => hold (List.mem_cons_of_mem _ hy), fun y hy => ?_⟩
        rcases List.mem_cons.1 hy with rfl | hy
        · exact hold List.mem_cons_self
        · exact hentries y hy

end

/-! ## What a walk enters -/

section
variable {r : Registry} {root : String} {tr : List Location} {l : Location}

theorem flatMap_entered (r : Registry) (root : String) (tr : List Location) :
    (tr.filterMap (·.entered? root)).flatMap (fun x => claimsOf (flatten r x.1 x.2)) =
      tr.flatMap (·.innerClaims r root) := by
  induction tr with
  | nil => rfl
  | cons l tr ih =>
    rw [List.flatMap_cons, List.filterMap_cons, ← ih]
    cases ho : opened root l.via l.member with
    | none => simp [Location.entered?, Location.innerClaims, ho]
    | some c => simp [Location.entered?, Location.innerClaims, ho]

theorem entered_keys (root : String) (tr : List Location) :
    ((tr.filterMap (·.entered? root)).map (·.2)).Sublist (tr.map Location.key) := by
  induction tr with
  | nil => exact List.Sublist.slnil
  | cons l tr ih =>
    rw [List.filterMap_cons]
    cases ho : opened root l.via l.member with
    | none =>
      have hentered : l.entered? root = none := by simp [Location.entered?, ho]
      rw [hentered]
      exact ih.cons _
    | some c =>
      have hentered : l.entered? root = some (c, l.key) := by simp [Location.entered?, ho]
      rw [hentered]
      exact ih.cons_cons _

/-- No struct is entered twice under one prefix. -/
theorem entered_nodup (h : (tr.map Location.key).Nodup) :
    ((tr.filterMap (·.entered? root)).map fun x => (x.2, x.1.id)).Nodup := by
  refine List.Nodup.of_map Prod.fst ?_
  rw [List.map_map]
  exact h.sublist (entered_keys root tr)

/-- The class itself is not entered. -/
theorem id_ne_of_entered {x : Classifier × String} (h : x ∈ tr.filterMap (·.entered? root)) :
    x.1.id ≠ root := by
  obtain ⟨l, -, hl⟩ := List.mem_filterMap.1 h
  obtain ⟨c, hc, rfl⟩ := Option.map_eq_some_iff.1 hl
  exact (opened_eq_some.1 hc).2.2.2.2

/-- Members with an encloser are reported as recursive, and no others. -/
theorem mem_innerNotes_iff {d : Diagnostic} (hd : d.code = .recursiveStruct) :
    d ∈ l.innerNotes r root ↔
      ∃ c, l.encloser? root = some c ∧ d = recursiveStructNote l.member c := by
  have hencloser : (⟨l.via, l.member⟩ : Location).encloser? root = l.encloser? root := rfl
  rw [Location.innerNotes, ← hencloser]
  rcases Location.cases root l.via l.member with
    ⟨hn, ho, he⟩ | ⟨c, hc, hn, ⟨hk, ho, he⟩ | ⟨hk, -, ho, he⟩ | ⟨-, -, ho, he⟩⟩
  · simp [ho, he, hn]
  · have hcode : d ≠ nestedCollectionNote l.member := by
      rintro rfl
      cases hd
    simp only [ho, he, hn, hk]
    simpa using hcode
  · simp only [ho, he, hn, hk, hc]
    simp
  · have hcode : d ∉ notesOf (flatten r c l.key) := fun hmem => by
      rcases (note_of_flatten hmem).1 with h | h <;> rw [h] at hd <;> cases hd
    simpa [ho, he] using hcode

/-- The reports of recursive structs on a trace are those on its members with an encloser. -/
theorem mem_flatMap_innerNotes_iff {d : Diagnostic} (hd : d.code = .recursiveStruct) :
    d ∈ tr.flatMap (·.innerNotes r root) ↔
      ∃ l c, l ∈ tr.filter (fun l => (l.encloser? root).isSome) ∧
        l.member.storage.classifier = some c ∧ d = recursiveStructNote l.member c := by
  simp only [List.mem_flatMap, mem_innerNotes_iff hd, List.mem_filter]
  constructor
  · rintro ⟨l, hl, c, hc, hnote⟩
    exact ⟨l, c, ⟨hl, by rw [hc]; rfl⟩, (Location.encloser?_eq_some.1 hc).1, hnote⟩
  · rintro ⟨l, c, ⟨hl, hencloser⟩, hc, hnote⟩
    obtain ⟨x, hx⟩ := Option.isSome_iff_exists.1 hencloser
    obtain rfl := Option.some.inj (hc.symm.trans (Location.encloser?_eq_some.1 hx).1)
    exact ⟨l, hl, c, hx, hnote⟩

end

/-! ## Runs of walks -/

section
variable {r : Registry} {stems : Stems} {c : Classifier} {tr : List Location}
  {w : Walk Flattenings}

theorem mem_skipped {l : Location} {visits : List Visit} :
    l ∈ visits.filterMap Visit.skipped? ↔ .recursive l ∈ visits := by
  rw [List.mem_filterMap]
  constructor
  · rintro ⟨v, hv, hl⟩
    cases v with
    | call => cases hl
    | back => cases hl
    | recursive x =>
      obtain rfl := Option.some.inj hl
      exact hv
  · exact fun h => ⟨_, h, rfl⟩

/-- Every accessor is walked along the search of the class. -/
theorem accessorWalker_continues
    (h : DepthFirst Location.key (Location.inner r c.id) []
      (paths [] (dataOf r c stems.feature)) tr)
    (a : Accessor) (hw : w.active = ∅) :
    ∃ w' e new, (accessorWalker r stems c a).walk (r.classifiers.length + 1) c []
        { w with done := [], cases := [] } = some (w', e) ∧
      (accessorWalker r stems c a).Continues [(c, stems.feature)]
        (paths [] (dataOf r c stems.feature)) { w with done := [], cases := [] } w' e tr new := by
  have htop : Enclosed r c.id [] w.active := hw ▸ Enclosed.top r c.id
  obtain ⟨w', e, tr', new, hwalk, hcontinues⟩ := (accessorWalker r stems c a).walk_continues
    (r.classifiers.length + 1) c [] { w with done := [], cases := [] } htop (Nat.lt_succ_self _)
  obtain rfl := h.unique hcontinues.search
  exact ⟨w', e, new, hwalk, hcontinues⟩

/-- Once all is flattened, walks make no claims and give no errors. -/
theorem walkAccessors_known
    (h : DepthFirst Location.key (Location.inner r c.id) []
      (paths [] (dataOf r c stems.feature)) tr)
    (hknown : ∀ x ∈ [(c, stems.feature)] ++ tr.filterMap (·.entered? c.id),
      (x.2, x.1.id) ∈ w.shared.memory) (hw : w.active = ∅) (accessors : List Accessor) :
    ∃ w' new, walkAccessors r stems c accessors w =
        some ((w', none), accessors.map (·.locations (tr.filter fun l => !l.member.isNested))) ∧
      w'.shared = w.shared ∧ w'.active = ∅ ∧ w'.visits = w.visits ++ new ∧
      (∀ v ∈ new, v.Exact c.id) ∧
      ∀ l, .recursive l ∈ new → l ∈ tr.filter fun l => (l.encloser? c.id).isSome := by
  induction accessors generalizing w with
  | nil => exact ⟨w, [], rfl, rfl, hw, by simp, by simp, by simp⟩
  | cons a rest ih =>
    obtain ⟨w₁, e, new₁, hwalk, h₁⟩ := accessorWalker_continues h a hw
    have hflat : (w.shared, none) = (w₁.shared, e) :=
      (flattenAll_known hknown).symm.trans h₁.flattened
    obtain ⟨hshared, rfl⟩ := Prod.mk.inj hflat
    obtain ⟨w₂, new₂, hrest, hshared₂, hactive₂, hvisits₂, hexact₂, hskipped₂⟩ :=
      ih (hshared ▸ hknown) (h₁.restored.trans hw)
    refine ⟨w₂, new₁ ++ new₂, ?_, hshared₂.trans hshared.symm, hactive₂, ?_, ?_, fun l hl => ?_⟩
    · rw [walkAccessors, hwalk, Option.bind_some]
      simp only [hrest, Option.map_some, List.map_cons, Option.some.injEq, Prod.mk.injEq,
        List.cons.injEq, true_and, and_true]
      exact h₁.cases rfl
    · rw [hvisits₂, h₁.logged, List.append_assoc]
    · exact fun v hv => (List.mem_append.1 hv).elim (h₁.exact v) (hexact₂ v)
    · rcases List.mem_append.1 hl with hl | hl
      · have hskipped₁ : new₁.filterMap Visit.skipped? =
            tr.filter fun l => (l.encloser? c.id).isSome := h₁.skipped rfl
        rw [← hskipped₁]
        exact mem_skipped.2 hl
      · exact hskipped₂ l hl

end

/-- What the walks of all accessors of a class come to, from a table of ids. -/
structure Walked (r : Registry) (stems : Stems) (c : Classifier) (t : IdTable)
    (w : Walk Flattenings) (e : Option Collision) (cases : List (List Location)) : Prop where
  restored : w.active = ∅
  exact : ∀ v ∈ w.visits, v.Exact c.id
  /-- They make the claims of the survey, and end with the first that is refused. -/
  table : w.shared.table = (t.claimAll c.id (Plan.of r stems c).survey.claims).1
  error : e = (t.claimAll c.id (Plan.of r stems c).survey.claims).2.2
  /-- If none is refused, the cases are those of the locations. -/
  cases : e = none →
    cases = Accessor.all.map (·.locations (Plan.of r stems c).survey.locations)
  /-- What is reported as recursive is what is skipped. -/
  recursive : e = none → ∀ d, d.code = .recursiveStruct →
    (d ∈ (Plan.of r stems c).survey.notes ↔ ∃ l x, .recursive l ∈ w.visits ∧
      l.member.storage.classifier = some x ∧ d = recursiveStructNote l.member x)

/-- How the accessors of a class are walked. -/
structure AccessorWalks (r : Registry) (stems : Stems) (c : Classifier) : Prop where
  /-- The walk of an accessor ends, whatever flattening does and wherever it fails: any depth over
      the number of classifiers gives the same outcome.  The active structs are those on the path
      throughout, and none is left. -/
  ends : ∀ {σ ε : Type} (a : Accessor) (flattening : Classifier → String → σ → σ × Option ε)
    (s : σ), ∃ w e,
      (∀ depth, r.classifiers.length < depth →
        Walker.walk ⟨r, c.id, stems.feature, a, flattening⟩ depth c [] { shared := s } =
          some (w, e)) ∧
      w.active = ∅ ∧ ∀ v ∈ w.visits, v.Exact c.id
  /-- So the walks of all accessors end. -/
  walked : ∀ t, ∃ w e cases, walkAccessors r stems c Accessor.all
      { shared := { table := t, memory := [(stems.feature, c.id)] } } = some ((w, e), cases) ∧
    Walked r stems c t w e cases
  /-- They are what lowering the class does once its own members and its machines are claimed. -/
  lowered : ∀ t t' n, (t.withScope c.id).claimAll c.id
      (((Plan.of r stems c).ownClaims stems).map (·.2)) = (t', n, none) →
    ∀ w e cases, walkAccessors r stems c Accessor.all
        { shared := { table := t', memory := [(stems.feature, c.id)] } } = some ((w, e), cases) →
      lowerSimObject r stems t c = (w.shared.table, match e with
        | none => .ok ((Plan.of r stems c).unit r stems (w.shared.table.entries c.id))
        | some x => .error { className := c.name, claimant := .features, collision := x })

section
variable {tr : List Location}

/-- The first walk flattens the structs of the class, each once, and claims their members. -/
theorem flattenAll_first (r : Registry) (stems : Stems) (c : Classifier) (t : IdTable)
    (a : Accessor) (hkeys : (tr.map Location.key).Nodup) :
    ∃ s e, (accessorWalker r stems c a).flattenAll
        ([(c, stems.feature)] ++ tr.filterMap (·.entered? c.id))
        { table := t, memory := [(stems.feature, c.id)] } = (s, e) ∧
      s.table = (t.claimAll c.id (tr.flatMap (·.innerClaims r c.id))).1 ∧
      e = (t.claimAll c.id (tr.flatMap (·.innerClaims r c.id))).2.2 ∧
      (e = none → ∀ x ∈ [(c, stems.feature)] ++ tr.filterMap (·.entered? c.id),
        (x.2, x.1.id) ∈ s.memory) := by
  let start : Flattenings := { table := t, memory := [(stems.feature, c.id)] }
  have hknown : (accessorWalker r stems c a).flattenAll [(c, stems.feature)] start =
      (start, none) := flattenAll_known (by simp [start])
  have hnew : ∀ x ∈ tr.filterMap (·.entered? c.id), (x.2, x.1.id) ∉ start.memory := by
    intro x hx hmem
    exact id_ne_of_entered hx (Prod.mk.inj (List.mem_singleton.1 hmem)).2
  obtain ⟨s, e, hrun, htable, herror, hmemory⟩ :=
    flattenAll_new (c := c) stems a (entered_nodup hkeys) hnew
  rw [flatMap_entered] at htable herror
  refine ⟨s, e, ?_, htable.symm, herror.symm, fun he x hx => ?_⟩
  · rw [Walker.flattenAll_append, hknown]
    exact hrun
  · rcases List.mem_append.1 hx with hx | hx
    · rw [List.mem_singleton.1 hx]
      exact (hmemory he).1 List.mem_cons_self
    · exact (hmemory he).2 x hx

end

/-- The walks of all accessors, from any table. -/
theorem walkAccessors_all (r : Registry) (stems : Stems) (c : Classifier) (t : IdTable) :
    ∃ w e cases, walkAccessors r stems c Accessor.all
        { shared := { table := t, memory := [(stems.feature, c.id)] } } = some ((w, e), cases) ∧
      Walked r stems c t w e cases := by
  obtain ⟨tr, hsearch, hlocations, hclaims, hnotes⟩ := survey_depthFirst r c stems.feature
  obtain ⟨w₁, e, new₁, hwalk, h₁⟩ := accessorWalker_continues hsearch .getValue
    (w := { shared := { table := t, memory := [(stems.feature, c.id)] } }) rfl
  obtain ⟨s, e', hflat, htable, herror, hmemory⟩ :=
    flattenAll_first r stems c t .getValue hsearch.keys.1
  obtain ⟨rfl, rfl⟩ := Prod.mk.inj (hflat.symm.trans h₁.flattened)
  have hsurvey : (Plan.of r stems c).survey =
      survey r c (.ofFlattened (flatten r c stems.feature)) := rfl
  rw [← hclaims, ← hsurvey] at htable herror
  have hvisits₁ : w₁.visits = new₁ := h₁.logged
  cases e' with
  | some x =>
    refine ⟨w₁, some x, [], ?_, {
      restored := h₁.restored
      exact := hvisits₁ ▸ h₁.exact
      table := htable
      error := herror
      cases := nofun
      recursive := nofun }⟩
    rw [Accessor.all, walkAccessors, hwalk]
    rfl
  | none =>
    have hskipped₁ : new₁.filterMap Visit.skipped? =
        tr.filter fun l => (l.encloser? c.id).isSome := h₁.skipped rfl
    obtain ⟨w₂, new₂, hrest, hshared, hactive, hvisits₂, hexact, hskipped₂⟩ :=
      walkAccessors_known hsearch (hmemory rfl) h₁.restored
        [.setValue, .getReference, .setReference, .removeReference]
    have hvisits : w₂.visits = new₁ ++ new₂ := by rw [hvisits₂, hvisits₁]
    have hrecursive : ∀ l, .recursive l ∈ w₂.visits ↔
        l ∈ tr.filter fun l => (l.encloser? c.id).isSome := by
      intro l
      rw [hvisits, List.mem_append, ← mem_skipped, hskipped₁]
      exact or_iff_left_of_imp (hskipped₂ l)
    have hcases : w₁.cases = Accessor.getValue.locations (Plan.of r stems c).survey.locations := by
      rw [hsurvey, hlocations]
      exact h₁.cases rfl
    rw [← hlocations, ← hsurvey] at hrest
    refine ⟨w₂, none, Accessor.all.map (·.locations (Plan.of r stems c).survey.locations), ?_, {
      restored := hactive
      exact := fun v hv => ?_
      table := by rw [hshared, htable]
      error := herror
      cases := fun _ => rfl
      recursive := fun _ d hd => ?_ }⟩
    · rw [Accessor.all, walkAccessors, hwalk, Option.bind_some]
      dsimp only
      rw [hrest, hcases]
      rfl
    · rw [hvisits] at hv
      exact (List.mem_append.1 hv).elim (h₁.exact v) (hexact v)
    · rw [hsurvey, hnotes, mem_flatMap_innerNotes_iff hd]
      simp only [hrecursive]

/-- **The walks of accessors**: they all end, the active set is exact at every call and return, and
    together they are what the survey says. -/
theorem accessor_walks_exact (r : Registry) (stems : Stems) (c : Classifier) :
    AccessorWalks r stems c where
  ends a flattening s := by
    let k : Walker _ _ := ⟨r, c.id, stems.feature, a, flattening⟩
    obtain ⟨w, e, tr, new, hwalk, hcontinues⟩ := k.walk_continues (r.classifiers.length + 1) c []
      { shared := s } (Enclosed.top r c.id) (Nat.lt_succ_self _)
    refine ⟨w, e, fun depth hdepth => Walker.walk_mono hdepth hwalk, hcontinues.restored, ?_⟩
    rw [hcontinues.logged]
    exact hcontinues.exact
  walked := walkAccessors_all r stems c
  lowered t t' n hown w e cases hwalk := by
    obtain ⟨w', e', cases', hwalk', hwalked⟩ := walkAccessors_all r stems c t'
    have hsame := hwalk.symm.trans hwalk'
    simp only [Option.some.injEq, Prod.mk.injEq] at hsame
    obtain ⟨⟨rfl, rfl⟩, rfl⟩ := hsame
    rw [lowerSimObject_eq hown, hwalked.table, hwalked.error]
    rcases t'.claimAll c.id (Plan.of r stems c).survey.claims with ⟨t₂, n₂, e⟩
    cases e <;> rfl

/-! A rig has two arms, and the tip of an arm holds an arm again. -/

def rig : Classifier := { id := "rig", name := "Rig", stereotype := "SimObject" }

def rigYard : Registry := Registry.prepare { elements := [
  .classifier rig,
  .classifier { id := "arm", name := "Arm", kind := .dataType },
  .classifier { id := "tip", name := "Tip", kind := .dataType },
  .attribute { id := "r1", name := "left", parent := "rig", typed := { type := "arm" } },
  .attribute { id := "r2", name := "right", parent := "rig", typed := { type := "arm" } },
  .attribute { id := "a1", name := "tip", parent := "arm", typed := { type := "tip" } },
  .attribute { id := "t1", name := "arm", parent := "tip", typed := { type := "arm" } },
  .attribute { id := "t2", name := "load", parent := "tip", typed := { typeName := "int" } }] }

/-- Both arms are entered, and the arm in the tip of each is skipped. -/
example : ((accessorWalker rigYard (.ofTexts "" "") rig .getValue).walk 4 rig []
    { shared := { table := {}, memory := [] } }).map (fun (w, e) =>
      (w.cases.map (·.names), (w.visits.filterMap Visit.skipped?).map (·.names), e)) =
    some ([["left", "tip", "load"], ["right", "tip", "load"]],
      [["left", "tip", "arm"], ["right", "tip", "arm"]], none) := by
  decide +kernel

end ObjectLowering.Lowering
