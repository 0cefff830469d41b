/-
  What the writing accessors leave alone.

  Values of derived members cannot be written.  An accessor that writes has
  no case for a derived member, but a member inside a derived struct is not
  held back by the struct (`radar_track_written`).

  * `WriteCases`: the cases of the writing accessors are those of the paths
    whose last member is not derived.
  * `lowerClass_readOnly`: so nothing derived is written iff every struct
    member that is derived has derived members only inside.
-/
import ObjectLowering.Proofs.Locations

namespace ObjectLowering.Lowering

open Model Code Text

namespace Location

/-- The members between the object and a location, itself included. -/
def path (l : Location) : List Member := l.via ++ [l.member]

/-- Nothing on the way to the location is derived, itself included. -/
def IsWritable (l : Location) : Prop := ∀ m ∈ l.path, m.isDerived = false

/-- A member that encloses the location is derived. -/
def isInsideDerived (l : Location) : Bool := l.via.any (·.isDerived)

theorem isWritable_iff (l : Location) :
    l.IsWritable ↔ l.isInsideDerived = false ∧ l.member.isDerived = false := by
  simp [IsWritable, path, isInsideDerived, or_imp, forall_and]

end Location

namespace Accessor

/-- The writing accessors of the sort of a location: the two for references, or the one for
    values. -/
def writersOf (l : Location) : List Accessor :=
  if l.member.category = .reference then [.setReference, .removeReference] else [.setValue]

theorem mem_writersOf {a : Accessor} {l : Location} :
    a ∈ writersOf l ↔
      a.writes = true ∧ (l.member.category == .reference) = a.isReference := by
  unfold writersOf
  split_ifs with h <;> cases a <;> simp [h, writes, isReference]

/-- The writers cover a location exactly if its member is not derived. -/
theorem covers_iff_of_writes {a : Accessor} (hw : a.writes = true) (l : Location) :
    a.covers l = true ↔ a ∈ writersOf l ∧ l.member.isDerived = false := by
  rw [mem_writersOf]
  simp [covers, hw]

theorem writersOf_ne_nil (l : Location) : writersOf l ≠ [] := by
  unfold writersOf
  split_ifs <;> simp

/-- A writing accessor changes what its access expression leads to: the expression is assigned to,
    or a statement on it removes or assigns a reference. -/
theorem statements_of_writes {a : Accessor} (hw : a.writes = true) (m : Member) (base : String) :
    ∃ before after, before ∈ ["", "sim::Assign("] ∧
      a.statements m base = [.line (before ++ base ++ after), .line "break;"] := by
  cases a with
  | getValue => simp [writes] at hw
  | getReference => simp [writes] at hw
  | setValue =>
    have htarget : ∀ value, ∃ after, writeAccess m.storage base value = base ++ after := by
      intro value
      simp only [writeAccess]
      split_ifs <;> exact ⟨_, by simp only [String.append_assoc]; rfl⟩
    obtain ⟨after, hafter⟩ := htarget (conversion m.category m.storage)
    exact ⟨"", after, by simp, by simp only [statements, hafter, String.empty_append]⟩
  | setReference =>
    simp only [statements]
    split_ifs <;> exact ⟨"sim::Assign(", _, by simp, by simp only [String.append_assoc]; rfl⟩
  | removeReference =>
    simp only [statements]
    split_ifs <;>
      exact ⟨"", _, by simp, by simp only [String.empty_append, String.append_assoc]; rfl⟩

end Accessor

/-! ## Cases that write -/

namespace Plan

/-- Nothing derived is written: every path that a case of a writing accessor stands for is
    writable. -/
def IsReadOnly (p : Plan) : Prop :=
  ∀ a : Accessor, a.writes = true → ∀ k ∈ p.featureCases a, ∀ l,
    p.survey.at? k.label = some l → l.IsWritable

theorem mem_casesOf_of_writes (p : Plan) (stems : Stems) {a : Accessor} (hw : a.writes = true)
    (k : Case) :
    k ∈ casesOf (p.accessor stems a) ↔
      (∃ l ∈ p.survey.locations, a ∈ Accessor.writersOf l ∧ l.member.isDerived = false ∧
        k = a.caseOf l) ∨
      k ∈ stateCases (p.stateVariables stems) a := by
  simp only [casesOf_accessor, featureCases_eq, List.mem_append, List.mem_map, Accessor.locations,
    List.mem_filter, Accessor.covers_iff_of_writes hw, and_assoc, eq_comm]

/-- **Nothing derived is written iff derived structs hold derived members only.** A case depends on
    the last member of its path alone. -/
theorem Addressed.isReadOnly_iff {p : Plan} (h : p.Addressed) :
    p.IsReadOnly ↔
      ∀ l ∈ p.survey.locations, l.isInsideDerived = true → l.member.isDerived = true := by
  constructor
  · intro hread l hl hinside
    by_contra hd
    -- some accessor writes the location, whatever stands above it
    obtain ⟨a, ha⟩ := List.exists_mem_of_ne_nil _ (Accessor.writersOf_ne_nil l)
    have hw := (Accessor.mem_writersOf.1 ha).1
    have hcovers := (Accessor.covers_iff_of_writes hw l).2 ⟨ha, Bool.eq_false_iff.2 hd⟩
    have hcase : a.caseOf l ∈ p.featureCases a := by
      rw [featureCases_eq]
      exact List.mem_map_of_mem (List.mem_filter.2 ⟨hl, hcovers⟩)
    have hat : p.survey.at? (a.caseOf l).label = some l := by
      rw [Accessor.caseOf, (h.identifiers l hl).ident_eq]
      exact h.at?_eq_some hl
    have hwritable := (l.isWritable_iff.1 (hread a hw _ hcase l hat)).1
    rw [hinside] at hwritable
    cases hwritable
  · intro hinside a hw k hk l hat
    rw [featureCases_eq, List.mem_map] at hk
    obtain ⟨x, hx, rfl⟩ := hk
    obtain ⟨hx, hcovers⟩ := List.mem_filter.1 hx
    rw [Accessor.caseOf, (h.identifiers x hx).ident_eq, h.at?_eq_some hx] at hat
    obtain rfl := Option.some.inj hat
    have hd := ((Accessor.covers_iff_of_writes hw x).1 hcovers).2
    refine x.isWritable_iff.2 ⟨Bool.eq_false_iff.2 fun hi => ?_, hd⟩
    rw [hinside x hx hi] at hd
    cases hd

end Plan

/-- What the writing accessors do in the code of a class `c`, `p` being its plan. -/
structure WriteCases (r : Registry) (stems : Stems) (c : Classifier) (p : Plan) (u : CodeUnit) :
    Prop where
  /-- The definition is written from the accessors, and more behind them. -/
  definition : ∃ rest, u.definition = trimEnd (· == '\n')
    (render (Accessor.all.flatMap (fun a => spaced (p.accessor stems a)) ++ rest)) ++ "\n"
  /-- The locations are member paths, nested structs apart. -/
  reached : ∀ l ∈ p.survey.locations, Reached r c stems.feature l ∧ l.member.isNested = false
  /-- An unambiguous class has all of them. -/
  complete : Unambiguous r c stems.feature →
    ∀ l, Reached r c stems.feature l → l.member.isNested = false → l ∈ p.survey.locations
  /-- The cases that write are those of the locations whose own member is not derived, and those of
      state variables. -/
  cases : ∀ a : Accessor, a.writes = true → ∀ k, k ∈ casesOf (p.accessor stems a) ↔
    (∃ l ∈ p.survey.locations, a ∈ Accessor.writersOf l ∧ l.member.isDerived = false ∧
      k = a.caseOf l) ∨
    k ∈ stateCases (p.stateVariables stems) a
  /-- Such a case changes what an access expression through the whole path leads to. -/
  targets : ∀ a : Accessor, a.writes = true → ∀ l, ∃ expr before after,
    PassesThrough l.names expr ∧ before ∈ ["", "sim::Assign("] ∧
      (a.caseOf l).body = [.line (before ++ expr ++ after), .line "break;"]
  /-- So the derived structs on the way decide whether something derived is written. -/
  readOnly : p.IsReadOnly ↔
    ∀ l ∈ p.survey.locations, l.isInsideDerived = true → l.member.isDerived = true
  /-- The same by the features of an unambiguous class. -/
  readOnly_features : Unambiguous r c stems.feature →
    (p.IsReadOnly ↔ ∀ l, Reached r c stems.feature l → l.member.isNested = false →
      l.isInsideDerived = true → l.member.isDerived = true)

theorem not_nested_of_mem_locations {r : Registry} {stems : Stems} {c : Classifier} {l : Location}
    (h : l ∈ (Plan.of r stems c).survey.locations) : l.member.isNested = false := by
  obtain ⟨tr, -, htr, -⟩ := Plan.depthFirst r stems c
  rw [htr] at h
  simpa using (List.mem_filter.1 h).2

/-- **What is read-only.**  In the code of a simulation object that is lowered, whatever was lowered
    or claimed before, a member that is derived is never written itself; but a member that is not
    is written wherever it stands. -/
theorem lowerClass_readOnly {r : Registry} {hash : String → UInt64} {ops : List IdOperation}
    {feature state : String} {stems : Stems} {c : Classifier} {t : IdTable} {u : CodeUnit}
    (hs : stems = .ofTexts feature state) (hf : family r c = .simObject)
    (hl : lowerClass r stems (.run { hash } ops) c = (t, .ok u)) :
    WriteCases r stems c (.of r stems c) u := by
  have hstem : IsIdentifier stems.feature := hs ▸ (isIdentifier_ofTexts feature state).1
  obtain ⟨rfl, hgranted⟩ := lowerClass_ok hf ((IdTable.valid_empty hash).run ops) hl
  have haddr := Plan.addressed r c hstem
  have hreached : ∀ l ∈ (Plan.of r stems c).survey.locations,
      Reached r c stems.feature l ∧ l.member.isNested = false := fun l hl =>
    ⟨reached_of_mem_locations hl, not_nested_of_mem_locations hl⟩
  have hcomplete : Unambiguous r c stems.feature → ∀ l, Reached r c stems.feature l →
      l.member.isNested = false → l ∈ (Plan.of r stems c).survey.locations := by
    intro hun l hr hn
    obtain ⟨tr, -, hlocations, hall⟩ := exists_complete_trace hstem hgranted hun
    rw [hlocations]
    exact List.mem_filter.2 ⟨(hall l hr).1, by simp [hn]⟩
  refine {
    definition := ⟨_, by rw [Plan.unit, Plan.definitionEdits, List.append_assoc]; rfl⟩
    reached := hreached
    complete := hcomplete
    cases := fun a hw k => Plan.mem_casesOf_of_writes _ stems hw k
    targets := fun a hw l => ?_
    readOnly := haddr.isReadOnly_iff
    readOnly_features := fun hun => ?_ }
  · obtain ⟨before, after, hbefore, hbody⟩ := Accessor.statements_of_writes hw l.member (a.base l)
    exact ⟨a.base l, before, after, a.base_passesThrough l, hbefore, hbody⟩
  · rw [haddr.isReadOnly_iff]
    constructor
    · intro h l hr hn
      exact h l (hcomplete hun l hr hn)
    · intro h l hl
      exact h l (hreached l hl).1 (hreached l hl).2

/-! A buoy knows its position, a struct whose accuracy is derived, and a derived depth.  A radar
    derives its track, a struct of plain numbers. -/

def buoy : Classifier := { id := "buoy", name := "Buoy", stereotype := "SimObject" }

def radar : Classifier := { id := "radar", name := "Radar", stereotype := "SimObject" }

def seaMark : Registry := Registry.prepare { elements := [
  .classifier buoy,
  .classifier radar,
  .classifier { id := "position", name := "Position", kind := .dataType },
  .classifier { id := "track", name := "Track", kind := .dataType },
  .attribute { id := "b1", name := "position", parent := "buoy", typed := { type := "position" } },
  .attribute { id := "b2", name := "depth", parent := "buoy",
               typed := { typeName := "double", isDerived := true } },
  .attribute { id := "b3", name := "watched by", parent := "buoy", typed := { type := "radar" } },
  .attribute { id := "p1", name := "north", parent := "position",
               typed := { typeName := "double" } },
  .attribute { id := "p2", name := "accuracy", parent := "position",
               typed := { typeName := "double", isDerived := true } },
  .attribute { id := "r1", name := "track", parent := "radar",
               typed := { type := "track", isDerived := true } },
  .attribute { id := "t1", name := "speed", parent := "track", typed := { typeName := "double" } },
  .attribute { id := "t2", name := "target", parent := "track", typed := { type := "buoy" } }] }

theorem buoy_readOnly :
    family seaMark buoy = .simObject ∧
    ∃ t u, lowerClass seaMark (.ofTexts "" "") (.run { hash := Digest.XxHash.hash } []) buoy =
        (t, .ok u) ∧
      WriteCases seaMark (.ofTexts "" "") buoy (.of seaMark (.ofTexts "" "") buoy) u ∧
      (Plan.of seaMark (.ofTexts "" "") buoy).IsReadOnly ∧
      (Plan.of seaMark (.ofTexts "" "") buoy).labels .getValue =
        ["ATTR_POSITION_NORTH", "ATTR_POSITION_ACCURACY", "ATTR_DEPTH"] ∧
      (Plan.of seaMark (.ofTexts "" "") buoy).labels .setValue = ["ATTR_POSITION_NORTH"] := by
  have hf : family seaMark buoy = .simObject := by decide +kernel
  have hgranted : (((IdTable.run { hash := Digest.XxHash.hash } []).withScope buoy.id).claimAll
      buoy.id (classClaims seaMark (.ofTexts "" "") buoy)).2.2 = none := by decide +kernel
  obtain ⟨t, u, hl⟩ := lowerClass_of_granted hf hgranted
  have h := lowerClass_readOnly rfl hf hl
  exact ⟨hf, t, u, hl, h, h.readOnly.2 (by decide +kernel), by decide +kernel, by decide +kernel⟩

/-- The track of the radar is derived, and yet its speed and its target are written. -/
theorem radar_track_written :
    ∃ t u, lowerClass seaMark (.ofTexts "" "") (.run { hash := Digest.XxHash.hash } []) radar =
        (t, .ok u) ∧
      ¬ (Plan.of seaMark (.ofTexts "" "") radar).IsReadOnly ∧
      (∀ m ∈ u.data, m.name = "track" ∧ m.isDerived = true) ∧
      (Plan.of seaMark (.ofTexts "" "") radar).featureCases .setValue = [⟨"ATTR_TRACK_SPEED",
        [.line "track.speed = static_cast<double>(value.GetFloat());", .line "break;"]⟩] ∧
      (Plan.of seaMark (.ofTexts "" "") radar).featureCases .setReference = [⟨"ATTR_TRACK_TARGET",
        [.line "sim::Assign(track.target, ref);", .line "break;"]⟩] := by
  have hf : family seaMark radar = .simObject := by decide +kernel
  have hgranted : (((IdTable.run { hash := Digest.XxHash.hash } []).withScope radar.id).claimAll
      radar.id (classClaims seaMark (.ofTexts "" "") radar)).2.2 = none := by decide +kernel
  obtain ⟨t, u, hl⟩ := lowerClass_of_granted hf hgranted
  obtain ⟨ids, rfl⟩ := lowerClass_unit hf hl
  have haddr : (Plan.of seaMark (.ofTexts "" "") radar).Addressed :=
    Plan.addressed seaMark radar (isIdentifier_ofTexts "" "").1
  have hdata : ∀ m ∈ (Plan.of seaMark (.ofTexts "" "") radar).features.data,
      m.name = "track" ∧ m.isDerived = true := by decide +kernel
  refine ⟨t, _, hl, fun h => ?_, hdata, by decide +kernel, by decide +kernel⟩
  exact absurd (haddr.isReadOnly_iff.1 h) (by decide +kernel)

end ObjectLowering.Lowering
