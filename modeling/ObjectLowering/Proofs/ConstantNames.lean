/-
  The names of id constants.

  A key is put together from constant names.  The declaration of a class
  names the constant of a key by the identifier of the key, and so do the
  labels of its accessors; this only fits the id table because a key is its
  own identifier.

  * `IsIdKey`: the keys of member paths and those of levels.
  * `tableAfter_within`: an id table has no other keys, whatever was lowered
    and whatever failed.
  * `constants_named_by_keys`: so the constants of a class are named by its
    keys as they stand in the table, and no two keys have one constant.
-/
import ObjectLowering.Proofs.Accessors
import ObjectLowering.Proofs.Histories
import ObjectLowering.Proofs.Nesting

namespace ObjectLowering.Lowering

open Model Code Text

/-! ## Keys -/

/-- The keys that are made from stems. -/
inductive IsIdKey (stems : Stems) : String → Prop where
  /-- The key of a member path, by the names on it. -/
  | path (names : List String) : IsIdKey stems (names.foldl keyOf stems.feature)
  /-- The key of a level. -/
  | level (name : String) : IsIdKey stems (keyOf stems.state name)

/-- Names under an identifier lead to an identifier. -/
theorem isIdentifier_foldl_keyOf {stem : String} (h : IsIdentifier stem) (names : List String) :
    IsIdentifier (names.foldl keyOf stem) := by
  induction names generalizing stem with
  | nil => exact h
  | cons name names ih => exact ih (isIdentifier_keyOf h name)

section
variable {r : Registry} {stems : Stems} {c : Classifier}

/-- A class claims such keys only. -/
theorem isIdKey_of_mem_classClaims {p : String × String} (h : p ∈ classClaims r stems c) :
    IsIdKey stems p.1 := by
  rcases mem_classClaims.1 h with hown | ⟨m, -, l, -, rfl⟩ | hnested
  · obtain ⟨m, hm, rfl⟩ := List.mem_map.1 hown
    have hkey : m.key = keyOf stems.feature m.name := key_of_mem_flatten hm
    rw [hkey]
    exact .path [m.name]
  · exact .level l.name
  · -- a feature of a nested struct lies one name below the path that the struct is on
    obtain ⟨l, name, hreached, hkey⟩ := key_of_mem_surveyClaims (List.mem_map_of_mem hnested)
    have hpath : IsIdKey stems ((l.names ++ [name]).foldl keyOf stems.feature) := .path _
    rwa [List.foldl_append, ← hreached.key_eq, List.foldl_cons, List.foldl_nil, ← hkey] at hpath

end

/-- Under stems that are identifiers, keys are identifiers. -/
theorem IsIdKey.isIdentifier {stems : Stems} {key : String} (hfeature : IsIdentifier stems.feature)
    (hstate : IsIdentifier stems.state) (h : IsIdKey stems key) : IsIdentifier key := by
  cases h with
  | path names => exact isIdentifier_foldl_keyOf hfeature names
  | level name => exact isIdentifier_keyOf hstate name

/-! ## Tables -/

/-- **The keys of a table** that starts empty are made from the stems, whatever is lowered. -/
theorem tableAfter_within (r : Registry) (stems : Stems) (hash : String → UInt64)
    (cs : List Classifier) : (tableAfter r stems { hash } cs).Within {key | IsIdKey stems key} :=
  (IdTable.within_empty hash _).tableAfter fun _ _ _ => isIdKey_of_mem_classClaims

/-! ## Constants -/

/-- Constants that are named by the keys themselves, sorted by key, and a blank line. -/
def keyConstants (ids : List IdEntry) : List Edit :=
  let lines := (sortByKey (·.key) ids).map fun e => Edit.line (constantLine e.key e.id)
  if ids.isEmpty then [] else lines ++ [.line ""]

namespace Plan

theorem idEdits_eq_keyConstants {ids : List IdEntry} (h : ∀ e ∈ ids, ident e.key = e.key) :
    idEdits ids = keyConstants ids := by
  have hlines : (sortByKey (·.key) ids).map (fun e => Edit.line (constantLine (ident e.key) e.id)) =
      (sortByKey (·.key) ids).map fun e => Edit.line (constantLine e.key e.id) := by
    refine List.map_congr_left fun e he => ?_
    have hkey := h e (List.mem_mergeSort.1 he)
    rw [hkey]
  rw [keyConstants, ← hlines]
  rfl

end Plan

/-! ## Labels -/

namespace Plan
section
variable {r : Registry} {stems : Stems} {c : Classifier}

/-- The labels of an accessor, if keys are identifiers: the keys of the locations that it covers,
    then those of the state variables that it has. -/
theorem labels_accessor (hfeature : IsIdentifier stems.feature) (hstate : IsIdentifier stems.state)
    (a : Accessor) : (casesOf ((of r stems c).accessor stems a)).map (·.label) =
      (a.locations (of r stems c).survey.locations).map Location.key ++
        if a.isReference then [] else ((of r stems c).stateVariables stems).map (·.key) := by
  have hkeys : ((of r stems c).stateVariables stems).map (fun v => ident v.key) =
      ((of r stems c).stateVariables stems).map (·.key) := by
    refine List.map_congr_left fun v hv => ?_
    obtain ⟨m, -, hv⟩ := List.mem_flatMap.1 hv
    obtain ⟨level, -, rfl⟩ := List.mem_map.1 hv
    exact (isIdentifier_keyOf hstate level.name).ident_eq
  have hlabels := (addressed r c hfeature).labels_eq a
  rw [labels] at hlabels
  rw [casesOf_accessor, List.map_append, hlabels, labels_stateCases, hkeys]

end
end Plan

/-! ## Classes -/

/-- The code of a class, `p` being its plan, names constants by the keys in the id table `t` that it
    leaves. -/
structure NamedByKeys (r : Registry) (stems : Stems) (p : Plan) (t : IdTable) (u : CodeUnit) :
    Prop where
  ids : u.ids = t.entries p.classifier.id
  /-- The declaration has the constants, named by the keys as they stand, and no other mention of
      the ids. -/
  declaration : ∃ rest, (∀ ids, p.declarationEdits r ids = p.declarationHead ++ Plan.idEdits ids ++
    rest) ∧ u.declaration = render (p.declarationHead ++ keyConstants u.ids ++ rest)
  /-- The definition is written from the accessors, and more behind them. -/
  definition : ∃ rest, u.definition = trimEnd (· == '\n')
    (render (Accessor.all.flatMap (fun a => spaced (p.accessor stems a)) ++ rest)) ++ "\n"
  /-- The labels of an accessor are keys as they stand. -/
  labels : ∀ a, (casesOf (p.accessor stems a)).map (·.label) =
    (a.locations p.survey.locations).map Location.key ++
      if a.isReference then [] else (p.stateVariables stems).map (·.key)
  /-- Every label is the name of a constant. -/
  declared : ∀ a, ∀ k ∈ casesOf (p.accessor stems a), ∃ e ∈ u.ids, k.label = e.key
  /-- No two ids have one constant. -/
  nodup : (u.ids.map fun e => ident e.key).Nodup

/-- The code of a simulation object, if the id table has no keys but those made from the stems. -/
theorem lowerClass_namedByKeys {r : Registry} {stems : Stems} {t t' : IdTable} {c : Classifier}
    {u : CodeUnit} (hfeature : IsIdentifier stems.feature) (hstate : IsIdentifier stems.state)
    (ht : t.Within {key | IsIdKey stems key}) (hf : family r c = .simObject)
    (hl : lowerClass r stems t c = (t', .ok u)) :
    NamedByKeys r stems (.of r stems c) t' u := by
  have hafter : t'.Within {key | IsIdKey stems key} := by
    have hclaims : ∀ p ∈ classClaims r stems c, IsIdKey stems p.1 :=
      fun _ => isIdKey_of_mem_classClaims
    have hcall := ht.lowerClass hclaims
    rwa [hl] at hcall
  obtain ⟨rfl, hgranted⟩ := lowerClass_ok hf ht.valid hl
  have hsame : ∀ e ∈ t'.entries c.id, ident e.key = e.key := fun e he =>
    ((hafter.mem_of_entry he).isIdentifier hfeature hstate).ident_eq
  refine {
    ids := rfl
    declaration := ?_
    definition := ⟨_, by rw [Plan.unit, Plan.definitionEdits, List.append_assoc]; rfl⟩
    labels := Plan.labels_accessor hfeature hstate
    declared := fun a k hk => ?_
    nodup := ?_ }
  · obtain ⟨rest, hrest⟩ := (Plan.of r stems c).declarationEdits_split r
    refine ⟨rest, hrest, ?_⟩
    rw [Plan.unit, hrest, Plan.idEdits_eq_keyConstants hsame]
  · obtain ⟨-, owner, hclaim⟩ := label_of_mem_accessor hfeature hstate hk
    have hlisted := hgranted.listed _ hclaim
    rw [← IdTable.entries_eq] at hlisted
    exact ⟨_, hlisted, rfl⟩
  · have hkeys := hafter.valid.keys c.id
    rw [← IdTable.entries_eq, ← List.map_congr_left hsame] at hkeys
    exact hkeys

/-- **Constants are named by keys.** A key is its own identifier, whatever names it is made from.
    An id table that starts empty has such keys only, whatever is lowered with it, so that no two
    of its keys have one constant, and the code of every simulation object has the constants under
    the keys as they stand. -/
theorem constants_named_by_keys (r : Registry) (hash : String → UInt64) (feature state : String)
    (cs : List Classifier) :
    (∀ (root : String) (names : List String), ident (names.foldl keyOf (constantName root)) =
      names.foldl keyOf (constantName root)) ∧
    (∀ stem name : String, ident (keyOf (constantName stem) name) =
      keyOf (constantName stem) name) ∧
    (∀ n, ∀ e ∈ (tableAfter r (.ofTexts feature state) { hash } cs).entries n,
      IsIdKey (.ofTexts feature state) e.key) ∧
    Set.InjOn ident {key | IsIdKey (.ofTexts feature state) key} ∧
    ∀ c t u, family r c = .simObject →
      lowerClass r (.ofTexts feature state) (tableAfter r (.ofTexts feature state) { hash } cs) c =
        (t, .ok u) →
      NamedByKeys r (.ofTexts feature state) (.of r (.ofTexts feature state) c) t u := by
  obtain ⟨hfeature, hstate⟩ := isIdentifier_ofTexts feature state
  generalize Stems.ofTexts feature state = stems at *
  have htable := tableAfter_within r stems hash cs
  refine ⟨fun root names => ?_, fun stem name => ?_, fun n e he => htable.mem_of_entry he,
    fun key hkey key' hkey' h => ?_, fun c t u => lowerClass_namedByKeys hfeature hstate htable⟩
  · exact (isIdentifier_foldl_keyOf (isIdentifier_constantName root) names).ident_eq
  · exact (isIdentifier_keyOf (isIdentifier_constantName stem) name).ident_eq
  · rwa [(hkey.isIdentifier hfeature hstate).ident_eq,
      (hkey'.isIdentifier hfeature hstate).ident_eq] at h

/-! A ketch with names that are no identifiers, and a machine. -/

def ketch : Classifier := { id := "ketch", name := "Ketch", stereotype := "SimObject" }

def ketchSteering : StateMachine := { id := "m", name := "Auto-Läufer", parent := "ketch" }

def marina : Registry := Registry.prepare { elements := [
  .classifier ketch,
  .classifier { id := "hull", name := "Hull", kind := .dataType },
  .attribute { id := "k1", name := "Größe (mm)", parent := "ketch", typed := {
    typeName := "double" } },
  .attribute { id := "k2", name := "2nd hull", parent := "ketch", typed := { type := "hull" } },
  .attribute { id := "h1", name := "ǆ", parent := "hull", typed := { typeName := "int" } },
  .stateMachine ketchSteering,
  .state { id := "off", name := "Off", parent := "m" }] }

def ketchStems : Stems := .ofTexts "3d" ""

/-- The plan of the ketch with its level written out. -/
def ketchPlan : Plan :=
  { Plan.of marina ketchStems ketch with
    machines := [⟨ketchSteering, [topLevel marina ketchSteering]⟩] }

theorem ketchPlan_eq : Plan.of marina ketchStems ketch = ketchPlan := by
  have htrees : marina.machineTrees ketchSteering.id = [.state _ []] := rfl
  have hmachines : (marina.owned ketch.id).machines = [ketchSteering] := rfl
  refine Plan.of_machines ?_
  rw [hmachines, List.map_singleton, Machine.of, levelsOf_eq, htrees]
  simp only [nestedLevels]
  rfl

theorem ketch_keys : (claimsRun marina ketchStems {} ketch).2.2 = none ∧
    ((claimsRun marina ketchStems {} ketch).1.entries ketch.id).map (·.key) =
      ["_3D_GRÖßE_MM", "_3D__2ND_HULL", "STATE_AUTO_LÄUFER", "_3D__2ND_HULL_Ǆ"] := by
  rw [claimsRun, classClaims, ketchPlan_eq]
  exact ⟨by decide +kernel, by decide +kernel⟩

theorem ketch_named_by_keys :
    family marina ketch = .simObject ∧
    (casesOf (ketchPlan.accessor ketchStems .getValue)).map (·.label) =
      ["_3D_GRÖßE_MM", "_3D__2ND_HULL_Ǆ", "STATE_AUTO_LÄUFER"] ∧
    ∃ t u, lowerClass marina ketchStems (tableAfter marina ketchStems {} []) ketch = (t, .ok u) ∧
      u.ids.map (·.key) =
        ["_3D_GRÖßE_MM", "_3D__2ND_HULL", "STATE_AUTO_LÄUFER", "_3D__2ND_HULL_Ǆ"] ∧
      NamedByKeys marina ketchStems ketchPlan t u := by
  have hf : family marina ketch = .simObject := by decide +kernel
  obtain ⟨hgranted, hkeys⟩ := ketch_keys
  obtain ⟨-, -, -, -, hnamed⟩ := constants_named_by_keys marina Digest.XxHash.hash "3d" "" []
  obtain ⟨t, u, hl⟩ := lowerClass_of_granted hf hgranted
  have hu : NamedByKeys marina ketchStems (.of marina ketchStems ketch) t u := hnamed ketch t u hf hl
  have ht : t = (claimsRun marina ketchStems {} ketch).1 := by
    rw [← lowerClass_table hf, hl]
  refine ⟨hf, by decide +kernel, t, u, hl, ?_, ketchPlan_eq ▸ hu⟩
  rw [hu.ids, ht]
  exact hkeys

end ObjectLowering.Lowering
