/-
  What the index of an accessor selects.

  An accessor has one index.  The access expression of a member path selects
  with it an element of every collection that it leads through (`Selects`),
  and the case of a collection selects an element of the collection itself
  (`Accessor.selectsAt_statements`).

  * No path leads through two collections (`Reached.keyed_le_one`).
  * `lowerClass_selections`: a collection of nested structs inside a keyed
    member has no cases, and is reported.  For other collections inside a
    keyed member this is not so: the index selects twice, and these are the
    only cases in which it does (`tram_selects_twice`).
-/
import ObjectLowering.Proofs.Branches
import ObjectLowering.Proofs.Collecting
import ObjectLowering.Proofs.Locations

namespace ObjectLowering.Lowering

open Model Code Text

/-! ## Access expressions -/

/-- How the index selects an element of a collection on the way: reading or writing. -/
def Member.selections (m : Member) : List String :=
  [".at(" ++ Location.indexOf m.storage ++ ")", "[" ++ Location.indexOf m.storage ++ "]"]

/-- An access expression in which the index selects an element of each of the given members,
    outermost first. -/
inductive Selects : List Member → String → Prop where
  | last (m : Member) : Selects [] m.ident
  | through {ms : List Member} {expr : String} (m : Member) (hm : m.isKeyed = false)
    (h : Selects ms expr) : Selects ms (m.ident ++ "." ++ expr)
  | into {ms : List Member} {expr selection : String} (m : Member) (hm : m.isKeyed = true)
    (hs : selection ∈ m.selections) (h : Selects ms expr) :
    Selects (m :: ms) (m.ident ++ selection ++ "." ++ expr)

/-- A statement in which the index selects an element of the collection that an access expression
    leads to. -/
def SelectsAt (m : Member) (base : String) (e : Edit) : Prop :=
  ∃ before between after, between ∈ [".count(", "[", ", ", ".erase("] ∧
    (e = .line (before ++ base ++ between ++ Location.indexOf m.storage ++ after) ∨
      e = .opening (before ++ base ++ between ++ Location.indexOf m.storage ++ after))

namespace Location

/-- The collections between the object and a location, itself included. -/
def collections (l : Location) : List Member := (l.via ++ [l.member]).filter (·.isKeyed)

/-- The location is a collection inside a keyed member. -/
def isInner (l : Location) : Bool := l.via.any (·.isKeyed) && l.member.isKeyed

theorem selects_join {step : Member → String}
    (hplain : ∀ m, m.isKeyed = false → step m = m.ident ++ ".")
    (hkeyed : ∀ m, m.isKeyed = true → ∃ s ∈ m.selections, step m = m.ident ++ s ++ ".")
    (via : List Member) (m : Member) :
    Selects (via.filter (·.isKeyed)) (String.join (via.map step) ++ m.ident) := by
  induction via with
  | nil =>
    rw [List.map_nil, String.join_nil, String.empty_append]
    exact .last m
  | cons x via ih =>
    rw [List.map_cons, String.join_cons, String.append_assoc]
    cases hx : x.isKeyed with
    | false =>
      rw [hplain x hx, List.filter_cons_of_neg (by simp [hx])]
      exact .through x hx ih
    | true =>
      obtain ⟨s, hs, hstep⟩ := hkeyed x hx
      rw [hstep, List.filter_cons_of_pos hx]
      exact .into x hx hs ih

end Location

namespace Accessor

/-- The access expression of a location selects an element of every collection on the way. -/
theorem selects_base (a : Accessor) (l : Location) :
    Selects (l.via.filter (·.isKeyed)) (a.base l) := by
  unfold base
  split_ifs
  · refine Location.selects_join (fun m hm => ?_) (fun m hm => ?_) l.via l.member
    · rw [Location.writeStep, if_neg (by simp [hm])]
    · refine ⟨"[" ++ Location.indexOf m.storage ++ "]", by simp [Member.selections], ?_⟩
      rw [Location.writeStep, if_pos hm]
      simp only [String.append_assoc]
      rfl
  · refine Location.selects_join (fun m hm => ?_) (fun m hm => ?_) l.via l.member
    · rw [Location.readStep, if_neg (by simp [hm])]
    · refine ⟨".at(" ++ Location.indexOf m.storage ++ ")", by simp [Member.selections], ?_⟩
      rw [Location.readStep, if_pos hm]
      simp only [String.append_assoc]
      rfl

/-- The case of a collection selects an element of it. -/
theorem selectsAt_statements (a : Accessor) {m : Member} (hm : m.isKeyed = true) (base : String) :
    ∃ e ∈ a.statements m base, SelectsAt m base e := by
  have hshape : m.storage.shape = .keyed := by simpa [Member.isKeyed] using hm
  cases a with
  | getValue =>
    cases hs : m.storage.isShared <;>
      simp only [statements, readAccess, hshape, hs, if_true, Bool.false_eq_true, if_false]
    · refine ⟨_, List.mem_cons_self, "if (", ".count(", ") != 0" ++ ")", by simp, Or.inr ?_⟩
      simp only [String.append_assoc]
    · refine ⟨_, List.mem_cons_self, "if (", ".count(",
        ") != 0" ++ " && " ++ base ++ ".at(" ++ Location.indexOf m.storage ++ ")" ++ ")", by simp,
        Or.inr ?_⟩
      simp only [String.append_assoc]
  | setValue =>
    cases hs : m.storage.isShared <;>
      simp only [statements, writeAccess, hshape, hs, if_true, Bool.false_eq_true, if_false]
    · refine ⟨_, List.mem_cons_self, "", "[",
        "]" ++ " = " ++ conversion m.category m.storage ++ ";", by simp, Or.inl ?_⟩
      simp only [String.append_assoc, String.empty_append]
    · refine ⟨_, List.mem_cons_self, "", "[", "]" ++ " = std::make_shared<" ++
        m.storage.elementType ++ ">(" ++ conversion m.category m.storage ++ ");", by simp,
        Or.inl ?_⟩
      simp only [String.append_assoc, String.empty_append]
  | getReference =>
    simp only [statements, hshape, if_true]
    exact ⟨_, List.mem_cons_self, "return sim::MakeRef(", ", ", ");", by simp, Or.inl rfl⟩
  | setReference =>
    simp only [statements, hshape, if_true]
    exact ⟨_, List.mem_cons_self, "sim::Assign(", "[", "], ref);", by simp, Or.inl rfl⟩
  | removeReference =>
    simp only [statements, hshape, if_true]
    refine ⟨_, List.mem_cons_self, "", ".erase(", ");", by simp, Or.inl ?_⟩
    rw [String.empty_append]

end Accessor

/-! ## Collections on a path -/

section
variable {r : Registry} {c : Classifier} {stem : String} {l l' : Location}

/-- **No path leads through two collections.** -/
theorem Reached.keyed_le_one (h : Reached r c stem l) : (l.via.filter (·.isKeyed)).length ≤ 1 := by
  induction h with
  | top => simp
  | @inside via m x d _ ho _ _ ih =>
    obtain ⟨-, -, hk, -⟩ := opened_eq_some.1 ho
    simp only at ih ⊢
    rw [List.filter_append, List.length_append]
    by_cases hm : m.isKeyed = true
    · have hnone : via.filter (·.isKeyed) = [] := by
        simpa [hm, List.filter_eq_nil_iff] using hk
      simp [hnone, hm]
    · simp [hm, ih]

/-- The index selects an element in two collections iff one of them is inside the other; else it
    selects in one at most. -/
theorem Reached.length_collections (h : Reached r c stem l) :
    (l.collections.length = 2 ↔ l.isInner = true) ∧
      (l.collections.length ≤ 1 ↔ l.isInner = false) := by
  have hle := h.keyed_le_one
  have hinner : l.isInner = true ↔
      0 < (l.via.filter (·.isKeyed)).length ∧ l.member.isKeyed = true := by
    simp [Location.isInner, List.length_pos_iff, List.filter_eq_nil_iff]
  rw [← Bool.not_eq_true, hinner, Location.collections, List.filter_append, List.length_append]
  by_cases hm : l.member.isKeyed = true
  · simp only [List.filter_cons_of_pos hm, List.filter_nil, List.length_singleton, hm, and_true]
    omega
  · simp only [List.filter_cons_of_neg hm, List.filter_nil, List.length_nil, eq_false hm, and_false,
      iff_false, not_false_eq_true, iff_true]
    omega

/-- A path leads through structs only that are opened. -/
theorem Reached.opened_on_way (h : Reached r c stem l') {via : List Member} {m : Member}
    (hp : via ++ [m] <+: l'.via) : opened c.id via m ≠ none := by
  induction h with
  | top => simp at hp
  | @inside via' m' x d _ ho _ _ ih =>
    rcases List.prefix_concat_iff.1 hp with he | hp
    · obtain ⟨rfl, hm⟩ := List.append_inj' he rfl
      rw [List.singleton_inj.1 hm]
      simp [ho]
    · exact ih hp

theorem opened_of_isInner {root : String} (h : l.isInner = true) :
    opened root l.via l.member = none := by
  rw [Option.eq_none_iff_forall_ne_some]
  intro d hd
  obtain ⟨-, -, hk, -⟩ := opened_eq_some.1 hd
  simp [Location.isInner, hk] at h

end

/-! ## Reports -/

section
variable {r : Registry} {stems : Stems} {c : Classifier} {d : Diagnostic} {l : Location}

theorem code_of_mem_notesOf {stem : String} (h : d ∈ notesOf (flatten r c stem)) :
    d.code ≠ .nestedCollection := by
  rcases (note_of_flatten h).1 with hd | hd <;> simp [hd]

theorem code_of_mem_chainNotes {m : Machine} {events : List String} {bs : List Branch}
    (hbs : bs ∈ m.chains r events) (h : d ∈ Branch.chainNotes bs) :
    d.code = .unsupportedVertex ∨ d.code = .unreachable := by
  rw [Branch.chainNotes_eq, List.mem_append] at h
  rcases h with h | h
  · left
    obtain ⟨b, hb, hd⟩ := List.mem_flatMap.1 h
    obtain ⟨tests, t, rfl, -⟩ := branch_of_mem_chain hbs (Branch.mem_of_mem_reachable hb)
    exact (note_of_branch hd).1
  · right
    obtain ⟨b, -, rfl⟩ := List.mem_map.1 h
    rfl

/-- The survey reports collections inside keyed members where nested structs stay closed. -/
theorem mem_innerNotes (hd : d.code = .nestedCollection) {root : String} :
    d ∈ l.innerNotes r root ↔
      l.isInner = true ∧ l.member.isNested = true ∧ d = nestedCollectionNote l.member := by
  rw [Location.innerNotes]
  split
  · next e he =>
    have hi : l.isInner ≠ true := fun hi => by simp [opened_of_isInner hi] at he
    exact iff_of_false (fun h => code_of_mem_notesOf h hd) (fun h => hi h.1)
  · split_ifs with hn hi
    · exact iff_of_false (by simp) (fun h => by simp [h.2.1] at hn)
    · simp only [Bool.not_eq_true', Bool.not_eq_false] at hn
      rw [List.mem_singleton]
      exact ⟨fun h => ⟨hi, hn, h⟩, fun h => h.2.2⟩
    · refine iff_of_false (fun h => ?_) (fun h => hi h.1)
      obtain ⟨e, -, rfl⟩ := List.mem_map.1 h
      cases hd

end

/-! ## Cases -/

/-- What the index selects in the code of a class `c`, `tr` being the paths that its survey
    visits. -/
structure Selections (r : Registry) (stems : Stems) (c : Classifier) (u : CodeUnit)
    (tr : List Location) : Prop where
  search : DepthFirst Location.key (Location.inner r c.id) []
    (paths [] (dataOf r c stems.feature)) tr
  locations : (Plan.of r stems c).survey.locations = tr.filter fun l => !l.member.isNested
  /-- An unambiguous class has all its paths visited. -/
  complete : Unambiguous r c stems.feature → ∀ l, Reached r c stems.feature l → l ∈ tr
  /-- The cases of an accessor are those of the visited paths that it covers, nested structs apart,
      and those of state variables, which have no index. -/
  cases : ∀ a k, k ∈ casesOf ((Plan.of r stems c).accessor stems a) ↔
    (∃ l ∈ tr, l.member.isNested = false ∧ a.covers l = true ∧ k = a.caseOf l) ∨
    k ∈ stateCases ((Plan.of r stems c).stateVariables stems) a
  /-- A case selects an element of every collection between the object and the member, at most one,
      and of the member itself if it is a collection. -/
  selects : ∀ l ∈ tr, ∀ a : Accessor, (l.via.filter (·.isKeyed)).length ≤ 1 ∧
    Selects (l.via.filter (·.isKeyed)) (a.base l) ∧
    (l.member.isKeyed = true → ∃ e ∈ (a.caseOf l).body, SelectsAt l.member (a.base l) e)
  /-- A collection of nested structs inside a keyed member is reported, and no case leads through
      it. -/
  structs : ∀ l ∈ tr, l.isInner = true → l.member.isNested = true →
    nestedCollectionNote l.member ∈ u.diagnostics ∧ ∀ l' ∈ tr, ¬ l.via ++ [l.member] <+: l'.via
  /-- Nothing else is reported in this way. -/
  reports : ∀ d ∈ u.diagnostics, d.code = .nestedCollection →
    ∃ l ∈ tr, l.isInner = true ∧ l.member.isNested = true ∧ d = nestedCollectionNote l.member
  /-- Any other collection inside a keyed member has a case, which selects twice. -/
  others : ∀ l ∈ tr, l.isInner = true → l.member.isNested = false →
    l.collections.length = 2 ∧ ∃ a : Accessor, a.covers l = true
  /-- So all cases select at most once iff there is no other collection inside a keyed member. -/
  once : (∀ a : Accessor, ∀ l ∈ tr, l.member.isNested = false → a.covers l = true →
      l.collections.length ≤ 1) ↔
    ∀ l ∈ tr, l.isInner = true → l.member.isNested = true

/-- **What the index selects**, in the code of a simulation object that is lowered, whatever was
    lowered or claimed before. -/
theorem lowerClass_selections {r : Registry} {hash : String → UInt64} {ops : List IdOperation}
    {feature state : String} {stems : Stems} {c : Classifier} {t : IdTable} {u : CodeUnit}
    (hs : stems = .ofTexts feature state) (hf : family r c = .simObject)
    (hl : lowerClass r stems (.run { hash } ops) c = (t, .ok u)) :
    ∃ tr, Selections r stems c u tr := by
  have hstem : IsIdentifier stems.feature := hs ▸ (isIdentifier_ofTexts feature state).1
  obtain ⟨-, hgranted⟩ := lowerClass_ok hf ((IdTable.valid_empty hash).run ops) hl
  obtain ⟨tr, hw, hlocations, -, hnotes⟩ := survey_depthFirst r c stems.feature
  change (Plan.of r stems c).survey.locations = _ at hlocations
  have hreached : ∀ l ∈ tr, Reached r c stems.feature l := fun l => reached_of_mem_trace hw
  have hdiagnostics : ∀ d : Diagnostic, d.code = .nestedCollection →
      (d ∈ u.diagnostics ↔ ∃ l ∈ tr, l.isInner = true ∧ l.member.isNested = true ∧
        d = nestedCollectionNote l.member) := by
    intro d hd
    have hsurvey : d ∈ (Plan.of r stems c).survey.notes ↔ ∃ l ∈ tr, d ∈ l.innerNotes r c.id := by
      rw [← List.mem_flatMap, ← hnotes]
      rfl
    rw [lowerClass_diagnostics hf hl, mem_notes, hsurvey]
    simp only [mem_innerNotes hd]
    constructor
    · rintro (h | ⟨m, -, level, -, h⟩ | h | ⟨m, -, bs, hbs, h⟩)
      · exact absurd hd (code_of_mem_notesOf h)
      · simp [(note_of_level h).1] at hd
      · exact h
      · rcases code_of_mem_chainNotes hbs h with h | h <;> simp [h] at hd
    · intro h
      exact Or.inr (Or.inr (Or.inl h))
  have hothers : ∀ l ∈ tr, l.isInner = true → l.member.isNested = false →
      l.collections.length = 2 ∧ ∃ a : Accessor, a.covers l = true := fun l hl hi _ =>
    ⟨(hreached l hl).length_collections.1.2 hi, Accessor.exists_covers l⟩
  refine ⟨tr, {
    search := hw
    locations := hlocations
    complete := fun hun l h => ?_
    cases := fun a k => ?_
    selects := fun l hl a =>
      ⟨(hreached l hl).keyed_le_one, a.selects_base l, fun hk => a.selectsAt_statements hk _⟩
    structs := fun l hl hi hn => ⟨(hdiagnostics _ rfl).2 ⟨l, hl, hi, hn, rfl⟩, fun l' hl' hp =>
      (hreached l' hl').opened_on_way hp (opened_of_isInner hi)⟩
    reports := fun d hd hcode => (hdiagnostics d hcode).1 hd
    others := hothers
    once := ⟨fun h l hl hi => ?_, fun h a l hl hn _ => ?_⟩ }⟩
  · obtain ⟨tr', hw', -, hclaims⟩ := Plan.depthFirst r stems c
    obtain rfl := hw.unique hw'
    exact h.mem_trace_of_granted hstem hgranted hun hw hclaims
  · rw [Plan.casesOf_accessor, Plan.featureCases_eq, hlocations, List.mem_append, List.mem_map]
    simp only [Accessor.locations, List.mem_filter, Bool.not_eq_true', and_assoc]
    simp only [eq_comm]
  · by_contra hn
    obtain ⟨htwo, a, ha⟩ := hothers l hl hi (Bool.eq_false_iff.2 hn)
    have hone := h a l hl (Bool.eq_false_iff.2 hn) ha
    omega
  · refine (hreached l hl).length_collections.2.2 (Bool.eq_false_iff.2 fun hi => ?_)
    simp [h l hl hi] at hn

/-! The cars of a train have a number and doors, which are structs.  Those of a tram have seats,
    which are numbers. -/

def train : Classifier := { id := "train", name := "Train", stereotype := "SimObject" }

def trainDepot : Registry := Registry.prepare { elements := [
  .classifier train,
  .classifier { id := "car", name := "Car", kind := .dataType },
  .classifier { id := "door", name := "Door", kind := .dataType },
  .attribute { id := "t1", name := "cars", parent := "train",
               typed := { type := "car", multiplicity := .many } },
  .attribute { id := "c1", name := "number", parent := "car", typed := { typeName := "int" } },
  .attribute { id := "c2", name := "doors", parent := "car",
               typed := { type := "door", multiplicity := .many } },
  .attribute { id := "d1", name := "width", parent := "door", typed := { typeName := "int" } }] }

theorem train_selects_once :
    family trainDepot train = .simObject ∧
    ∃ t u tr, lowerClass trainDepot (.ofTexts "" "") (.run { hash := Digest.XxHash.hash } [])
        train = (t, .ok u) ∧
      Selections trainDepot (.ofTexts "" "") train u tr ∧
      u.diagnostics.map (·.text) = [
        "warning: nested-collection [c2] collection \"ATTR_CARS_DOORS\" " ++
        "inside a keyed member is not addressable"] ∧
      (tr.filter fun l => !l.member.isNested).map (fun l => (l.key, l.collections.length)) =
        [("ATTR_CARS_NUMBER", 1)] := by
  have hf : family trainDepot train = .simObject := by decide +kernel
  have hgranted : (((IdTable.run { hash := Digest.XxHash.hash } []).withScope train.id).claimAll
      train.id (classClaims trainDepot (.ofTexts "" "") train)).2.2 = none := by decide +kernel
  obtain ⟨t, u, hl⟩ := lowerClass_of_granted hf hgranted
  obtain ⟨tr, h⟩ := lowerClass_selections rfl hf hl
  refine ⟨hf, t, u, tr, hl, h, ?_, ?_⟩
  · rw [lowerClass_diagnostics hf hl]
    decide +kernel
  · rw [← h.locations]
    decide +kernel

def tram : Classifier := { id := "tram", name := "Tram", stereotype := "SimObject" }

def tramDepot : Registry := Registry.prepare { elements := [
  .classifier tram,
  .classifier { id := "car", name := "Car", kind := .dataType },
  .attribute { id := "t1", name := "cars", parent := "tram",
               typed := { type := "car", multiplicity := .many } },
  .attribute { id := "c1", name := "number", parent := "car", typed := { typeName := "int" } },
  .attribute { id := "c2", name := "seats", parent := "car",
               typed := { typeName := "int", multiplicity := .many } }] }

/-- One index selects a car of the tram and a seat of the car, and nothing is reported. -/
theorem tram_selects_twice :
    ∃ t u, lowerClass tramDepot (.ofTexts "" "") (.run { hash := Digest.XxHash.hash } []) tram =
        (t, .ok u) ∧ u.diagnostics = [] ∧
      (⟨"ATTR_CARS_SEATS",
        [.line ("cars[index.As<uint64_t>()].seats[index.As<uint64_t>()] = " ++
          "static_cast<int64_t>(value.GetInt());"), .line "break;"]⟩ : Case) ∈
        (Plan.of tramDepot (.ofTexts "" "") tram).featureCases .setValue := by
  have hf : family tramDepot tram = .simObject := by decide +kernel
  have hgranted : (((IdTable.run { hash := Digest.XxHash.hash } []).withScope tram.id).claimAll
      tram.id (classClaims tramDepot (.ofTexts "" "") tram)).2.2 = none := by decide +kernel
  obtain ⟨t, u, hl⟩ := lowerClass_of_granted hf hgranted
  refine ⟨t, u, hl, ?_, by decide +kernel⟩
  rw [lowerClass_diagnostics hf hl]
  decide +kernel

end ObjectLowering.Lowering
