/-
  The identifiers of the members of a class or data type.

  Members are told apart by their names, but declared under the identifiers of
  their names, and different names can have one identifier.

  * The key of a member is made from its identifier, so members with one
    identifier claim one key (`key_eq_of_ident_eq`).  A simulation object with
    such members is refused if their claims tell them apart
    (`claimOwner_eq_of_ident_eq`).
  * A struct claims nothing, and is lowered whatever its members are called.
  * `lowerClass_member_identifiers`: so the identifiers in the code are
    distinct exactly if no two members with one identifier go unnoticed.
-/
import ObjectLowering.Proofs.Batches
import ObjectLowering.Proofs.Locations

namespace ObjectLowering.Lowering

open Model Code

/-- Two members have one identifier, though not one name. -/
def Clash (x y : Member) : Prop := x.ident = y.ident ∧ x.name ≠ y.name

/-- A clash that no claim tells of: the class claims nothing, or the owners are written alike. -/
def Unnoticed (r : Registry) (c : Classifier) (x y : Member) : Prop :=
  Clash x y ∧ (family r c = .simObject → x.claimOwner = y.claimOwner)

/-- How clashes of members show when a class or data type is lowered with a given table. -/
structure MemberIdentifiers (r : Registry) (stems : Stems) (t : IdTable) (c : Classifier) :
    Prop where
  /-- The code declares the members of the class. -/
  members : ∀ t' u, lowerClass r stems t c = (t', .ok u) → u.data = dataOf r c stems.feature
  /-- Their identifiers are distinct iff no clash goes unnoticed. -/
  distinct_iff : ∀ t' u, lowerClass r stems t c = (t', .ok u) →
    ((u.data.map (·.ident)).Nodup ↔ ∀ x ∈ u.data, ∀ y ∈ u.data, ¬ Unnoticed r c x y)
  /-- A simulation object with another clash is refused. -/
  refused : family r c = .simObject → ∀ x ∈ dataOf r c stems.feature,
    ∀ y ∈ dataOf r c stems.feature, Clash x y → ¬ Unnoticed r c x y →
    ∃ t' e, lowerClass r stems t c = (t', .error e)
  /-- A struct is never refused. -/
  accepted : family r c = .struct → ∃ u, lowerClass r stems t c = (t, .ok u)

section
variable {r : Registry} {stems : Stems} {t t' : IdTable} {c : Classifier} {u : CodeUnit}
  {stem : String} {x y : Member}

theorem key_eq_of_ident_eq (hx : x ∈ dataOf r c stem) (hy : y ∈ dataOf r c stem)
    (h : x.ident = y.ident) : x.key = y.key := by
  have hconstant : constantName x.name = constantName y.name := congrArg Text.toUpper h
  rw [key_of_mem_dataOf hx, key_of_mem_dataOf hy, keyOf, keyOf, hconstant]

/-- Members of a simulation object that was lowered have one identifier only if their owners are
    written alike. -/
theorem claimOwner_eq_of_ident_eq (hf : family r c = .simObject) (ht : t.Valid)
    (hl : lowerClass r stems t c = (t', .ok u)) (hx : x ∈ dataOf r c stems.feature)
    (hy : y ∈ dataOf r c stems.feature) (h : x.ident = y.ident) : x.claimOwner = y.claimOwner := by
  obtain ⟨-, hgranted⟩ := lowerClass_ok hf ht hl
  have hclaim : ∀ m ∈ dataOf r c stems.feature, (m.key, m.claimOwner) ∈ classClaims r stems c :=
    fun m hm => mem_classClaims.2 (Or.inl (claim_of_mem_dataOf hm))
  have hclaimed := hclaim x hx
  rw [key_eq_of_ident_eq hx hy h] at hclaimed
  exact hgranted.owner_eq hclaimed (hclaim y hy) (claimOwner_ne_empty x) (claimOwner_ne_empty y)

theorem data_of_lowerClass (hc : c.kind = .objectClass ∨ c.kind = .dataType)
    (hl : lowerClass r stems t c = (t', .ok u)) : u.data = dataOf r c stems.feature := by
  rcases lowerClass_sorts hl with ⟨hk, -⟩ | ⟨hk, -⟩ | ⟨-, rfl⟩ | ⟨-, ids, rfl⟩
  · simp [hk] at hc
  · simp [hk] at hc
  · rfl
  · rfl

theorem lowerClass_struct (hc : c.kind = .objectClass ∨ c.kind = .dataType)
    (hf : family r c = .struct) (stems : Stems) (t : IdTable) :
    lowerClass r stems t c = (t, .ok (structUnit r stems c)) := by
  have hne : family r c ≠ .simObject := by rw [hf]; decide
  rcases hc with hc | hc <;> simp only [lowerClass, hc, if_neg hne]

/-- The members of a class have identifiers of their own iff those of one identifier have one
    name. -/
theorem identifiers_nodup_iff (r : Registry) (c : Classifier) (stem : String) :
    ((dataOf r c stem).map (·.ident)).Nodup ↔
      ∀ x ∈ dataOf r c stem, ∀ y ∈ dataOf r c stem, ¬ Clash x y := by
  constructor
  · rintro h x hx y hy ⟨hident, hname⟩
    exact hname (congrArg Member.name (List.inj_on_of_nodup_map h hx hy hident))
  · intro h
    refine List.Nodup.map_on (fun x hx y hy hident => ?_) (dataOf_names_nodup r c stem).of_map
    by_contra hne
    exact h x hx y hy ⟨hident, fun hname => hne (eq_of_name_eq hx hy hname)⟩

end

/-- **The identifiers of members**, whatever was lowered or claimed before. -/
theorem lowerClass_member_identifiers {r : Registry} {hash : String → UInt64}
    {ops : List IdOperation} {c : Classifier} (stems : Stems)
    (hc : c.kind = .objectClass ∨ c.kind = .dataType) :
    MemberIdentifiers r stems (.run { hash } ops) c := by
  have hvalid := (IdTable.valid_empty hash).run ops
  -- what a clash needs to go unnoticed holds of all clashes in the code
  have hsilent : ∀ t' u, lowerClass r stems (.run { hash } ops) c = (t', .ok u) →
      ∀ x ∈ dataOf r c stems.feature, ∀ y ∈ dataOf r c stems.feature, Clash x y →
      Unnoticed r c x y := fun t' u hl x hx y hy hclash =>
    ⟨hclash, fun hf => claimOwner_eq_of_ident_eq hf hvalid hl hx hy hclash.1⟩
  refine {
    members := fun t' u hl => data_of_lowerClass hc hl
    distinct_iff := fun t' u hl => ?_
    refused := fun hf x hx y hy hclash hnoticed => ?_
    accepted := fun hf => ⟨_, lowerClass_struct hc hf stems _⟩ }
  · rw [data_of_lowerClass hc hl, identifiers_nodup_iff]
    constructor
    · exact fun h x hx y hy hun => h x hx y hy hun.1
    · exact fun h x hx y hy hclash => h x hx y hy (hsilent t' u hl x hx y hy hclash)
  · rcases lowerClass_cases hf stems (.run { hash } ops) with
      ⟨t', n, -, hok⟩ | ⟨t', n, claimant, collision, -, herr⟩
    · exact absurd (hsilent t' _ hok x hx y hy hclash) hnoticed
    · exact ⟨t', _, herr⟩

/-! A winch inherits a load from its base and has one itself; a crate has two loads. -/

def winch : Classifier := { id := "winch", name := "Winch", stereotype := "SimObject" }

def crate : Classifier := { id := "crate", name := "Crate", kind := .dataType }

def warehouse : Registry := Registry.prepare { elements := [
  .classifier winch,
  .classifier { id := "hoist", name := "Winch.", stereotype := "SimObject" },
  .classifier crate,
  .generalization { id := "g", parent := "winch", general := "hoist" },
  .attribute { id := "w1", name := ".load", parent := "winch", typed := { typeName := "int" } },
  .attribute { id := "h1", name := "load", parent := "hoist", typed := { typeName := "int" } },
  .attribute { id := "c1", name := "max load", parent := "crate", typed := { typeName := "int" } },
  .attribute { id := "c2", name := "max_load", parent := "crate",
               typed := { typeName := "int" } }] }

theorem ship_identifiers_distinct :
    (ship.kind = .objectClass ∨ ship.kind = .dataType) ∧
    ∃ t u, lowerClass harbour (.ofTexts "" "") (.run { hash := Digest.XxHash.hash } []) ship =
      (t, .ok u) ∧ u.data.map (·.ident) = ["hull", "load"] ∧ (u.data.map (·.ident)).Nodup := by
  have hc : ship.kind = .objectClass ∨ ship.kind = .dataType := Or.inl rfl
  have hf : family harbour ship = .simObject := by decide +kernel
  obtain ⟨t, u, hl⟩ := lowerClass_of_granted hf ship_granted
  have hrule : MemberIdentifiers harbour (.ofTexts "" "")
      (.run { hash := Digest.XxHash.hash } []) ship :=
    lowerClass_member_identifiers (.ofTexts "" "") hc
  have hnames : u.data.map (·.ident) = ["hull", "load"] := by
    rw [hrule.members t u hl]
    decide +kernel
  refine ⟨hc, t, u, hl, hnames, (hrule.distinct_iff t u hl).2 ?_⟩
  rw [hrule.members t u hl]
  have hapart : ∀ x ∈ dataOf harbour ship (Stems.ofTexts "" "").feature,
      ∀ y ∈ dataOf harbour ship (Stems.ofTexts "" "").feature,
      x.ident = y.ident → x.name = y.name := by decide +kernel
  exact fun x hx y hy hun => hun.1.2 (hapart x hx y hy hun.1.1)

/-- Both are lowered, and each has one identifier twice. -/
theorem loads_declared_twice :
    (∃ t u, lowerClass warehouse (.ofTexts "" "") (.run { hash := Digest.XxHash.hash } []) crate =
      (t, .ok u) ∧
      u.declaration = "struct Crate \x7b\n    int64_t max_load;\n    int64_t max_load;\n\x7d;\n" ∧
      ¬ (u.data.map (·.ident)).Nodup) ∧
    ∃ t u, lowerClass warehouse (.ofTexts "" "") (.run { hash := Digest.XxHash.hash } []) winch =
      (t, .ok u) ∧ u.data.map (·.name) = [".load", "load"] ∧ ¬ (u.data.map (·.ident)).Nodup := by
  constructor
  · refine ⟨_, _, lowerClass_struct (Or.inr rfl) (by decide +kernel) _ _, ?_, ?_⟩
    · decide +kernel
    · decide +kernel
  · have hf : family warehouse winch = .simObject := by decide +kernel
    have hgranted : (((IdTable.run { hash := Digest.XxHash.hash } []).withScope winch.id).claimAll
        winch.id (classClaims warehouse (.ofTexts "" "") winch)).2.2 = none := by decide +kernel
    obtain ⟨t, u, hl⟩ := lowerClass_of_granted hf hgranted
    refine ⟨t, u, hl, ?_⟩
    rw [data_of_lowerClass (Or.inl rfl) hl]
    decide +kernel

end ObjectLowering.Lowering
