/-
  Batches as calls in a row.

  A batch makes the calls of `lowerEach` for eligible classifiers, in order
  and with one id table, up to the first place where it finds itself
  cancelled (`Batch.run_stops`).  Its units are the answers of the calls that
  succeed.

  * `mem_units_call`: every unit is the answer to a call for its classifier.
  * `units_classifiers`: a batch that has not failed has one unit for each
    eligible classifier.
-/
import ObjectLowering.Lowering.Batch
import ObjectLowering.Proofs.Histories

namespace ObjectLowering.Lowering

open Model Code

/-- The units among answers. -/
def unitsOf (answers : List (Except LowerError CodeUnit)) : List CodeUnit :=
  answers.filterMap Except.toOption

/-- The failures among answers. -/
def failuresOf (answers : List (Except LowerError CodeUnit)) : List LowerError :=
  answers.filterMap fun
    | .ok _ => none
    | .error e => some e

/-- What is observed of a call and its answer. -/
def observationOf (c : Classifier) (answer : Except LowerError CodeUnit) : Observation :=
  { className := c.name, outcome := answer.map CodeUnit.stats }

/-- What is observed of calls one after the other. -/
def observations (r : Registry) (stems : Stems) (t : IdTable) (cs : List Classifier) :
    List Observation :=
  List.zipWith observationOf cs (lowerEach r stems t cs)

section
variable {r : Registry} {stems : Stems} {t t' : IdTable} {c : Classifier} {u : CodeUnit}
  {cs : List Classifier}

/-! ## Calls -/

/-- A class that is no simulation object, and every data type, is a struct. -/
theorem family_eq_struct (hc : c.kind = .objectClass ∨ c.kind = .dataType)
    (hf : family r c ≠ .simObject) : family r c = .struct := by
  rcases hc with hc | hc <;> simp only [family, hc] at hf ⊢
  exact if_neg fun h => hf (if_pos h)

/-- The code of a classifier, by its sort. -/
theorem lowerClass_sorts (hl : lowerClass r stems t c = (t', .ok u)) :
    (c.kind = .enumeration ∧ u = enumerationUnit r c) ∨
    (c.kind = .primitiveType ∧ u = aliasUnit r c) ∨
    (family r c = .struct ∧ u = structUnit r stems c) ∨
    (family r c = .simObject ∧ ∃ ids, u = (Plan.of r stems c).unit r stems ids) := by
  by_cases hf : family r c = .simObject
  · exact Or.inr (Or.inr (Or.inr ⟨hf, lowerClass_unit hf hl⟩))
  · unfold lowerClass at hl
    split at hl
    · next hk =>
      cases hl
      exact Or.inl ⟨hk, rfl⟩
    · next hk =>
      cases hl
      exact Or.inr (Or.inl ⟨hk, rfl⟩)
    · next hk =>
      rw [if_neg hf] at hl
      cases hl
      exact Or.inr (Or.inr (Or.inl ⟨family_eq_struct (Or.inl hk) hf, rfl⟩))
    · next hk =>
      rw [if_neg hf] at hl
      cases hl
      exact Or.inr (Or.inr (Or.inl ⟨family_eq_struct (Or.inr hk) hf, rfl⟩))

/-- The code that is made for a classifier is its own. -/
theorem lowerClass_classifier (hl : lowerClass r stems t c = (t', .ok u)) : u.classifier = c := by
  rcases lowerClass_sorts hl with ⟨-, rfl⟩ | ⟨-, rfl⟩ | ⟨-, rfl⟩ | ⟨-, ids, rfl⟩ <;> rfl

/-- A unit among the answers was made for its classifier, with the table that the calls before it
    left. -/
theorem mem_unitsOf_lowerEach (h : u ∈ unitsOf (lowerEach r stems t cs)) :
    ∃ before t', before ++ [u.classifier] <+: cs ∧
      lowerClass r stems (tableAfter r stems t before) u.classifier = (t', .ok u) := by
  induction cs generalizing t with
  | nil => cases h
  | cons c cs ih =>
    rw [lowerEach, unitsOf, List.filterMap_cons] at h
    have later : u ∈ unitsOf (lowerEach r stems (lowerClass r stems t c).1 cs) →
        ∃ before t', before ++ [u.classifier] <+: c :: cs ∧
          lowerClass r stems (tableAfter r stems t before) u.classifier = (t', .ok u) := by
      intro h
      obtain ⟨before, t', hfront, hl⟩ := ih h
      exact ⟨c :: before, t', List.cons_prefix_cons.2 ⟨rfl, hfront⟩, hl⟩
    cases hl : lowerClass r stems t c with
    | mk t₁ answer =>
      rw [hl] at h later
      cases answer with
      | error e => exact later h
      | ok v =>
        rcases List.mem_cons.1 h with rfl | h
        · have hc := lowerClass_classifier hl
          rw [hc]
          exact ⟨[], t₁, List.prefix_append [c] cs, hl⟩
        · exact later h

/-- Calls without a failure answer with a unit for each classifier. -/
theorem unitsOf_classifiers (h : failuresOf (lowerEach r stems t cs) = []) :
    (unitsOf (lowerEach r stems t cs)).map (·.classifier) = cs := by
  induction cs generalizing t with
  | nil => rfl
  | cons c cs ih =>
    rw [lowerEach, failuresOf, List.filterMap_cons] at h
    rw [lowerEach, unitsOf, List.filterMap_cons]
    cases hl : lowerClass r stems t c with
    | mk t₁ answer =>
      simp only [hl] at h
      cases answer with
      | error e => cases h
      | ok v =>
        have hv := lowerClass_classifier hl
        exact congrArg₂ List.cons hv (ih h)

end

/-! ## Batches -/

namespace Batch

/-- The calls that a batch makes. -/
structure Calls (r : Registry) (stems : Stems) (b : Batch) (cs : List Classifier) (b' : Batch) :
    Prop where
  ids : b'.ids = tableAfter r stems b.ids cs
  units : b'.units = b.units ++ unitsOf (lowerEach r stems b.ids cs)
  failures : b'.failures = b.failures ++ failuresOf (lowerEach r stems b.ids cs)
  observed : b'.observed = b.observed ++ observations r stems b.ids cs

variable {r : Registry} {stems : Stems} {cs : List Classifier}

theorem Calls.nil (r : Registry) (stems : Stems) (b : Batch) : Calls r stems b [] b where
  ids := rfl
  units := (List.append_nil _).symm
  failures := (List.append_nil _).symm
  observed := (List.append_nil _).symm

/-- What a step observes comes before what later calls observe. -/
theorem observed_step (r : Registry) (stems : Stems) (b : Batch) (c : Classifier)
    (cs : List Classifier) :
    (b.step r stems c).observed ++ observations r stems (b.step r stems c).ids cs =
      b.observed ++ observations r stems b.ids (c :: cs) := by
  rw [observations, observations, lowerEach]
  cases hl : lowerClass r stems b.ids c with
  | mk t answer => cases answer <;> simp [step, hl, observationOf, Except.map]

/-- A step is one call. -/
theorem Calls.cons {b b' : Batch} {c : Classifier} (h : Calls r stems (b.step r stems c) cs b') :
    Calls r stems b (c :: cs) b' := by
  have hobserved := h.observed.trans (observed_step r stems b c cs)
  unfold step at h
  split at h
  · next t u hl =>
    have hcall : lowerEach r stems b.ids (c :: cs) = .ok u :: lowerEach r stems t cs := by
      rw [lowerEach, hl]
    refine ⟨?_, ?_, ?_, hobserved⟩
    · rw [h.ids, tableAfter, tableAfter, List.foldl_cons, hl]
    · rw [h.units, hcall, List.append_assoc]
      rfl
    · rw [h.failures, hcall]
      rfl
  · next t e hl =>
    have hcall : lowerEach r stems b.ids (c :: cs) = .error e :: lowerEach r stems t cs := by
      rw [lowerEach, hl]
    refine ⟨?_, ?_, ?_, hobserved⟩
    · rw [h.ids, tableAfter, tableAfter, List.foldl_cons, hl]
    · rw [h.units, hcall]
      rfl
    · rw [h.failures, hcall, List.append_assoc]
      rfl

/-- A batch stops at the first place where it finds itself cancelled, or at the end. -/
structure Stops (r : Registry) (stems : Stems) (cancel : Cancellation) (b : Batch)
    (cs : List Classifier) (n : Nat) : Prop where
  le : n ≤ cs.length
  before : ∀ i < n,
    cancel (b.observed ++ observations r stems b.ids ((cs.take i).filter isEligible)) = false
  cancelled : n < cs.length →
    cancel (b.observed ++ observations r stems b.ids ((cs.take n).filter isEligible)) = true

/-- Stopping later, after one more classifier. -/
theorem Stops.succ {cancel : Cancellation} {b b' : Batch} {c : Classifier} {n : Nat}
    (h : Stops r stems cancel b' cs n) (hc : cancel b.observed = false)
    (hobserved : ∀ i, b'.observed ++ observations r stems b'.ids ((cs.take i).filter isEligible) =
      b.observed ++ observations r stems b.ids (((c :: cs).take (i + 1)).filter isEligible)) :
    Stops r stems cancel b (c :: cs) (n + 1) where
  le := Nat.succ_le_succ h.le
  before := by
    intro i hi
    cases i with
    | zero => simpa [observations] using hc
    | succ i => rw [← hobserved]; exact h.before i (Nat.lt_of_succ_lt_succ hi)
  cancelled := by
    intro hn
    rw [← hobserved]
    exact h.cancelled (Nat.lt_of_succ_lt_succ hn)

theorem step_wasCanceled (r : Registry) (stems : Stems) (b : Batch) (c : Classifier) :
    (b.step r stems c).wasCanceled = b.wasCanceled := by
  unfold step
  split <;> rfl

/-- **A batch is a row of calls** for the eligible classifiers in front of the place where it
    stops. -/
theorem run_stops (r : Registry) (stems : Stems) (cancel : Cancellation) (b : Batch)
    (cs : List Classifier) :
    ∃ n, Stops r stems cancel b cs n ∧
      Calls r stems b ((cs.take n).filter isEligible) (b.run r stems cancel cs) ∧
      (b.run r stems cancel cs).wasCanceled = (b.wasCanceled || decide (n < cs.length)) := by
  induction cs generalizing b with
  | nil => exact ⟨0, ⟨Nat.le_refl _, nofun, nofun⟩, .nil r stems b, by simp [run]⟩
  | cons c cs ih =>
    rw [run]
    split_ifs with hcancel hc
    · refine ⟨0, ⟨Nat.zero_le _, nofun, fun _ => ?_⟩, ?_, by simp⟩
      · simpa [observations] using hcancel
      · exact ⟨rfl, (List.append_nil _).symm, (List.append_nil _).symm, (List.append_nil _).symm⟩
    · obtain ⟨n, hstops, hcalls, hwas⟩ := ih (b.step r stems c)
      have hfront : ∀ i, ((c :: cs).take (i + 1)).filter isEligible =
          c :: (cs.take i).filter isEligible := fun i => by simp [hc]
      refine ⟨n + 1, ?_, ?_, ?_⟩
      · exact Stops.succ hstops (by simpa using hcancel) fun i => by rw [hfront, observed_step]
      · rw [hfront]
        exact hcalls.cons
      · rw [hwas, step_wasCanceled]
        simp
    · obtain ⟨n, hstops, hcalls, hwas⟩ := ih b
      have hfront : ∀ i, ((c :: cs).take (i + 1)).filter isEligible =
          (cs.take i).filter isEligible := fun i => by simp [hc]
      refine ⟨n + 1, ?_, ?_, ?_⟩
      · exact Stops.succ hstops (by simpa using hcancel) fun i => by rw [hfront]
      · rw [hfront]
        exact hcalls
      · rw [hwas]
        simp

/-- A batch makes the calls for all eligible classifiers unless it is cancelled. -/
theorem run_calls (r : Registry) (stems : Stems) (cancel : Cancellation) (b : Batch)
    (cs : List Classifier) :
    ∃ called, called <+: cs.filter isEligible ∧ Calls r stems b called (b.run r stems cancel cs) ∧
      ((b.run r stems cancel cs).wasCanceled = true ∨ called = cs.filter isEligible) := by
  obtain ⟨n, hstops, hcalls, hwas⟩ := run_stops r stems cancel b cs
  refine ⟨_, (List.take_prefix n cs).filter _, hcalls, ?_⟩
  by_cases hn : n < cs.length
  · exact Or.inl (by simp [hwas, hn])
  · exact Or.inr (by rw [List.take_of_length_le (Nat.le_of_not_lt hn)])

end Batch

section
variable {r : Registry} {stems : Stems} {ids : IdTable} {cancel : Cancellation} {u : CodeUnit}

/-- Every unit of a batch is the answer to a call for its classifier, made after the calls for the
    eligible classifiers in front of it. -/
theorem mem_units_call (h : u ∈ (lowerAll r stems ids cancel).units) :
    ∃ before t, before ++ [u.classifier] <+: r.classifiers.filter isEligible ∧
      lowerClass r stems (tableAfter r stems ids before) u.classifier = (t, .ok u) := by
  obtain ⟨called, hcalled, hcalls, -⟩ := Batch.run_calls r stems cancel { ids } r.classifiers
  rw [lowerAll, hcalls.units, List.nil_append] at h
  obtain ⟨before, t, hfront, hl⟩ := mem_unitsOf_lowerEach h
  exact ⟨before, t, hfront.trans hcalled, hl⟩

theorem mem_units (h : u ∈ (lowerAll r stems ids cancel).units) :
    u.classifier ∈ r.classifiers ∧ isEligible u.classifier = true ∧
      ∃ ops t, lowerClass r stems (ids.run ops) u.classifier = (t, .ok u) := by
  obtain ⟨before, t, hfront, hl⟩ := mem_units_call h
  obtain ⟨ops, hops⟩ := tableAfter_run r stems ids before
  have hmem : u.classifier ∈ before ++ [u.classifier] := List.mem_concat_self
  obtain ⟨hc, he⟩ := List.mem_filter.1 (hfront.subset hmem)
  exact ⟨hc, he, ops, t, hops ▸ hl⟩

/-- A batch that has not failed has a unit for each eligible classifier, in their order. -/
theorem units_classifiers (h : (lowerAll r stems ids cancel).hasFailed = false) :
    (lowerAll r stems ids cancel).units.map (·.classifier) = r.classifiers.filter isEligible := by
  obtain ⟨called, -, hcalls, hall⟩ := Batch.run_calls r stems cancel { ids } r.classifiers
  rw [Batch.hasFailed, Bool.or_eq_false_iff, lowerAll] at h
  have hnone : (Batch.run r stems cancel { ids } r.classifiers).failures = [] := by simpa using h.2
  have hfailures := hcalls.failures
  rw [hnone, List.nil_append] at hfailures
  rw [lowerAll, hcalls.units, List.nil_append, unitsOf_classifiers hfailures.symm]
  exact hall.resolve_left (by simp [h.1])

end

end ObjectLowering.Lowering
