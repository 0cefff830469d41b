/-
  Lowering a simulation object, as the run of its claims.

  A simulation object is lowered iff all its claims are granted, and the
  code is then that of its plan (`lowerClass_ok`); else the answer is a
  collision (`lowerClass_cases`).  All that lowering does to the id table is
  a run of operations (`lowerClass_run`).
-/
import ObjectLowering.Lowering.Lower
import ObjectLowering.Proofs.Ids
import ObjectLowering.Proofs.MemberPaths

namespace ObjectLowering.Lowering

open Model Code

namespace IdTable

theorem run_claimAll (t : IdTable) (name : String) (claims : List (String × String)) :
    ∃ ops, (t.claimAll name claims).1 = t.run ops := by
  induction claims generalizing t with
  | nil => exact ⟨[], rfl⟩
  | cons p claims ih =>
    obtain ⟨key, owner⟩ := p
    rw [claimAll]
    cases hp : t.claim name key owner with
    | error c => exact ⟨[], rfl⟩
    | ok q =>
      obtain ⟨ops, hops⟩ := ih q.1
      refine ⟨.claim name key owner :: ops, ?_⟩
      have hstep : (t.step (.claim name key owner)).1 = q.1 := by rw [step, hp]; rfl
      rw [run, List.foldl_cons, hstep]
      exact hops

end IdTable

section
variable {r : Registry} {stems : Stems} {t t' : IdTable} {c : Classifier} {u : CodeUnit}

theorem kind_of_simObject (h : family r c = .simObject) : c.kind = .objectClass := by
  unfold family at h
  split at h <;> simp_all

theorem lowerClass_simObject (h : family r c = .simObject) (stems : Stems) (t : IdTable) :
    lowerClass r stems t c = lowerSimObject r stems t c := by
  rw [lowerClass, kind_of_simObject h]
  exact if_pos h

/-- The claims of a class without what claims them. -/
def classClaims (r : Registry) (stems : Stems) (c : Classifier) : List (String × String) :=
  ((Plan.of r stems c).claims stems).map (·.2)

/-- A simulation object is lowered, all its claims being granted, or has a collision. -/
theorem lowerClass_cases (h : family r c = .simObject) (stems : Stems) (t : IdTable) :
    (∃ t' n, (t.withScope c.id).claimAll c.id (classClaims r stems c) = (t', n, none) ∧
      lowerClass r stems t c = (t', .ok ((Plan.of r stems c).unit r stems (t'.entries c.id)))) ∨
    ∃ t' n claimant collision,
      (t.withScope c.id).claimAll c.id (classClaims r stems c) = (t', n, some collision) ∧
      lowerClass r stems t c = (t', .error { className := c.name, claimant, collision }) := by
  rw [lowerClass_simObject h, lowerSimObject]
  split
  · next t' n hc => exact Or.inl ⟨t', n, hc, rfl⟩
  · next t' n collision hc => exact Or.inr ⟨t', n, _, collision, hc, rfl⟩

/-- What holds of a simulation object that was lowered. -/
theorem lowerClass_ok (h : family r c = .simObject) (ht : t.Valid)
    (hl : lowerClass r stems t c = (t', .ok u)) :
    u = (Plan.of r stems c).unit r stems (t'.entries c.id) ∧
      (t.withScope c.id).Granted t' c.id (classClaims r stems c) := by
  rcases lowerClass_cases h stems t with ⟨t₁, n, hc, hok⟩ | ⟨t₁, n, claimant, collision, -, herr⟩
  · rw [hl] at hok
    obtain ⟨rfl, hu⟩ := Prod.mk.inj hok
    exact ⟨Except.ok.inj hu, IdTable.claimAll_granted (ht.withScope _) hc⟩
  · rw [hl] at herr
    cases (Prod.mk.inj herr).2

/-- A simulation object that was lowered has the code of its plan. -/
theorem lowerClass_unit (h : family r c = .simObject)
    (hl : lowerClass r stems t c = (t', .ok u)) :
    ∃ ids, u = (Plan.of r stems c).unit r stems ids := by
  rcases lowerClass_cases h stems t with ⟨t₁, n, -, hok⟩ | ⟨t₁, n, claimant, collision, -, herr⟩
  · rw [hl] at hok
    exact ⟨_, Except.ok.inj (Prod.mk.inj hok).2⟩
  · rw [hl] at herr
    cases (Prod.mk.inj herr).2

theorem lowerClass_diagnostics (h : family r c = .simObject)
    (hl : lowerClass r stems t c = (t', .ok u)) : u.diagnostics = (Plan.of r stems c).notes r := by
  obtain ⟨ids, rfl⟩ := lowerClass_unit h hl
  rw [Plan.unit]

theorem lowerClass_events (h : family r c = .simObject)
    (hl : lowerClass r stems t c = (t', .ok u)) : u.events = (Plan.of r stems c).events r := by
  obtain ⟨ids, rfl⟩ := lowerClass_unit h hl
  rw [Plan.unit]

theorem lowerClass_of_granted (h : family r c = .simObject)
    (hc : ((t.withScope c.id).claimAll c.id (classClaims r stems c)).2.2 = none) :
    ∃ t' u, lowerClass r stems t c = (t', .ok u) := by
  rcases lowerClass_cases h stems t with ⟨t', n, -, hok⟩ | ⟨t', n, claimant, collision, hn, -⟩
  · exact ⟨t', _, hok⟩
  · rw [hn] at hc; cases hc

/-- Lowering changes the table by operations only. -/
theorem lowerClass_run (r : Registry) (stems : Stems) (t : IdTable) (c : Classifier) :
    ∃ ops, (lowerClass r stems t c).1 = t.run ops := by
  by_cases h : family r c = .simObject
  · obtain ⟨ops, hops⟩ := (t.withScope c.id).run_claimAll c.id (classClaims r stems c)
    refine ⟨.scope c.id :: ops, ?_⟩
    have hrun : t.run (.scope c.id :: ops) = (t.withScope c.id).run ops := rfl
    rw [hrun, ← hops]
    rcases lowerClass_cases h stems t with ⟨t', n, hc, he⟩ | ⟨t', n, claimant, collision, hc, he⟩
    · rw [he, hc]
    · rw [he, hc]
  · refine ⟨[], ?_⟩
    unfold lowerClass
    split
    · rfl
    · rfl
    · rw [if_neg h]; rfl
    · rw [if_neg h]; rfl

end

/-- A plan with its machines written out. -/
theorem Plan.of_machines {r : Registry} {c : Classifier} {ms : List Machine} {stems : Stems}
    (h : (r.owned c.id).machines.map (Machine.of r) = ms) :
    Plan.of r stems c = { Plan.of r stems c with machines := ms } := by
  subst h
  rfl

/-! ## The claims of a class -/

section
variable {r : Registry} {stems : Stems} {c : Classifier} {p : String × String}

theorem mem_classClaims :
    p ∈ classClaims r stems c ↔
      p ∈ claimsOf (flatten r c stems.feature) ∨
      (∃ m ∈ (Plan.of r stems c).machines, ∃ l ∈ m.levels,
        p = (keyOf stems.state l.name, "state machine " ++ l.path)) ∨
      p ∈ (Plan.of r stems c).survey.claims := by
  simp only [classClaims, Plan.claims, Plan.machineClaims, List.map_append, List.map_map,
    List.map_flatMap, List.mem_append, List.mem_map, List.mem_flatMap, Function.comp_apply,
    or_assoc, exists_eq_right]
  simp only [Plan.of, eq_comm]

/-- The survey of a plan is a search. The keys of all paths that it meets are claimed, whether it
    visits them or passes them over. -/
theorem Plan.depthFirst (r : Registry) (stems : Stems) (c : Classifier) :
    ∃ tr, DepthFirst Location.key (Location.inner r c.id) []
        (paths [] (dataOf r c stems.feature)) tr ∧
      (Plan.of r stems c).survey.locations = tr.filter (fun l => !l.member.isNested) ∧
      ∀ l, Reached r c stems.feature l → Follows tr l →
        (l.key, l.member.claimOwner) ∈ classClaims r stems c := by
  obtain ⟨tr, hw, hl, hc, -⟩ := survey_depthFirst r c stems.feature
  refine ⟨tr, hw, hl, fun l hr hfollows => mem_classClaims.2 ?_⟩
  cases hr with
  | top hm => exact Or.inl (claim_of_mem_dataOf hm)
  | @inside via m x d _ ho hx =>
    have hmem := hfollows via m rfl
    refine Or.inr (Or.inr ?_)
    have hclaims : (Plan.of r stems c).survey.claims = tr.flatMap (·.innerClaims r c.id) := hc
    rw [hclaims, List.mem_flatMap]
    refine ⟨_, hmem, ?_⟩
    rw [Location.innerClaims, ho]
    exact claim_of_mem_dataOf hx

end

end ObjectLowering.Lowering
