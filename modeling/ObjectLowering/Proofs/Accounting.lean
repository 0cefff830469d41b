/-
  What a batch leaves behind, accounted for class by class.

  * `lowerClass_answers`: a class is answered with its own code or with a
    failure that names it, and every failure is a collision: two keys have
    one hash, or one key has two owners (`Collision.Genuine`).
  * `Counters.Shows`: counters that add up to units and failures, as they
    are and as a snapshot shows them.
  * `lowerAll_accounts`: calls, units, failures, report and counters agree
    wherever a batch stops, and it can be made to stop anywhere.
-/
import Mathlib.Algebra.GroupWithZero.Nat
import ObjectLowering.Lowering.Counters
import ObjectLowering.Proofs.Batches

namespace ObjectLowering.Lowering

open Model Code

/-! ## Failures are collisions -/

/-- Two keys have one hash, or one key has two owners. -/
def Collision.Genuine (hash : String → UInt64) (c : Collision) : Prop :=
  c.id = hash c.key ∧
    ((c.holder = "" ∧ c.existing ≠ c.key ∧ hash c.existing = hash c.key) ∨
      (c.holder ≠ "" ∧ c.claimant ≠ "" ∧ c.holder ≠ c.claimant ∧ c.existing = c.key))

namespace IdTable

variable {t : IdTable} {name key owner : String} {c : Collision}

/-- Every key of the index has the id that it stands under. -/
def Indexed (t : IdTable) : Prop := ∀ id k, t.index.lookup id = some k → t.hash k = id

theorem Indexed.step (h : t.Indexed) (op : IdOperation) : (t.step op).1.Indexed := by
  intro id k hk
  rw [step_hash]
  rcases t.step_cases op with hs | ⟨c, hs⟩ | ⟨key, owner, t', e, hc, hs⟩ <;> rw [hs] at hk
  · rw [withScope_index] at hk
    exact h id k hk
  · exact h id k hk
  · rcases claim_cases hc with ⟨-, -, hindex, -⟩ | ⟨-, rfl, -, hindex, -⟩
    · rw [hindex] at hk
      exact h id k hk
    · rw [hindex] at hk
      split_ifs at hk with hid
      · rw [← Option.some.inj hk, hid]
      · exact h id k hk

theorem indexed_run (hash : String → UInt64) (ops : List IdOperation) :
    (run { hash } ops).Indexed := by
  induction ops using List.reverseRecOn with
  | nil => nofun
  | append_singleton ops op ih =>
    rw [run_concat]
    exact ih.step op

theorem genuine_of_claim (hv : t.Valid) (hi : t.Indexed) (hc : t.claim name key owner = .error c) :
    c.Genuine t.hash := by
  have hr := claim_eq_error.1 hc
  unfold refusal? at hr
  cases hf : (t.scopeAt name).find key with
  | some e =>
    obtain ⟨he, hk⟩ := IdScope.find_eq_some hf
    simp only [hf] at hr
    split_ifs at hr with ho
    obtain rfl := Option.some.inj hr
    exact ⟨hk ▸ hv.ids name e he, Or.inr ⟨ho.2.1, ho.1, ho.2.2, rfl⟩⟩
  | none =>
    simp only [hf, blocker?, Option.map_eq_some_iff, Option.filter_eq_some_iff] at hr
    obtain ⟨existing, ⟨hl, hne⟩, rfl⟩ := hr
    exact ⟨rfl, Or.inl ⟨rfl, by simpa using hne, hi _ _ hl⟩⟩

/-- A run of claims that stops was refused one of them, after operations that were granted. -/
theorem refused_of_claimAll {claims : List (String × String)}
    (hc : (t.claimAll name claims).2.2 = some c) :
    ∃ ops key owner, (key, owner) ∈ claims ∧ (t.run ops).claim name key owner = .error c := by
  induction claims generalizing t with
  | nil => cases hc
  | cons p claims ih =>
    obtain ⟨key, owner⟩ := p
    cases hp : t.claim name key owner with
    | error c' =>
      rw [claimAll_error hp] at hc
      exact ⟨[], key, owner, List.mem_cons_self, hp.trans (congrArg _ (Option.some.inj hc))⟩
    | ok q =>
      rw [claimAll_ok hp] at hc
      obtain ⟨ops, key', owner', hmem, hrefused⟩ := ih hc
      have hstep : (t.step (.claim name key owner)).1 = q.1 := by rw [step, hp]; rfl
      refine ⟨.claim name key owner :: ops, key', owner', List.mem_cons_of_mem _ hmem, ?_⟩
      rw [run, List.foldl_cons, hstep]
      exact hrefused

end IdTable

/-- An answer to a call for `c`: its own code, or a failure that names it, a collision of a key that
    the class claims. -/
def Answers (r : Registry) (stems : Stems) (hash : String → UInt64) (c : Classifier) :
    Except LowerError CodeUnit → Prop
  | .ok u => u.classifier = c
  | .error e => e.message = "lower " ++ c.name ++ ": " ++ e.cause ∧ family r c = .simObject ∧
      e.collision.key ∈ (classClaims r stems c).map (·.1) ∧ e.collision.Genuine hash

theorem lowerClass_answers (r : Registry) (stems : Stems) (hash : String → UInt64)
    (ops : List IdOperation) (c : Classifier) :
    Answers r stems hash c (lowerClass r stems (IdTable.run { hash } ops) c).2 := by
  by_cases hf : family r c = .simObject
  · rcases lowerClass_cases hf stems (IdTable.run { hash } ops) with
      ⟨t', n, -, hl⟩ | ⟨t', n, claimant, collision, hc, hl⟩
    · rw [hl]
      rfl
    · obtain ⟨ops', key, owner, hmem, hrefused⟩ := IdTable.refused_of_claimAll
        (congrArg (·.2.2) hc)
      -- the claim is refused by a table that is itself the outcome of a run
      have hrun : ((IdTable.run { hash } ops).withScope c.id).run ops' =
          IdTable.run { hash } (ops ++ .scope c.id :: ops') := by rw [IdTable.run_append]; rfl
      rw [hrun] at hrefused
      have hgenuine := IdTable.genuine_of_claim ((IdTable.valid_empty hash).run _)
        (IdTable.indexed_run hash _) hrefused
      rw [IdTable.run_hash] at hgenuine
      have hkey := (IdTable.refusal?_eq_some (IdTable.claim_eq_error.1 hrefused)).1
      rw [hl]
      exact ⟨rfl, hf, hkey ▸ List.mem_map_of_mem hmem, hgenuine⟩
  · obtain ⟨u, hu⟩ := lowerClass_other hf stems
    rw [hu]
    exact lowerClass_classifier (hu { hash })

theorem lowerEach_answers (r : Registry) (stems : Stems) (hash : String → UInt64)
    (ops : List IdOperation) (cs : List Classifier) :
    List.Forall₂ (Answers r stems hash) cs (lowerEach r stems (IdTable.run { hash } ops) cs) := by
  induction cs generalizing ops with
  | nil => exact .nil
  | cons c cs ih =>
    obtain ⟨ops', hops⟩ := lowerClass_run r stems (IdTable.run { hash } ops) c
    rw [lowerEach, hops, ← IdTable.run_append]
    exact .cons (lowerClass_answers r stems hash ops c) (ih _)

/-! ## Counters -/

section
variable (u : CodeUnit) (e : LowerError) (answers : List (Except LowerError CodeUnit))

@[simp] theorem unitsOf_nil : unitsOf [] = [] := rfl

@[simp] theorem unitsOf_ok : unitsOf (.ok u :: answers) = u :: unitsOf answers := rfl

@[simp] theorem unitsOf_error : unitsOf (.error e :: answers) = unitsOf answers := rfl

@[simp] theorem failuresOf_nil : failuresOf [] = [] := rfl

@[simp] theorem failuresOf_ok : failuresOf (.ok u :: answers) = failuresOf answers := rfl

@[simp] theorem failuresOf_error : failuresOf (.error e :: answers) = e :: failuresOf answers := rfl

end

namespace Counters

/-- What counters add up to for units and failures. -/
def tally (units : List CodeUnit) (failures : List LowerError) : Counters :=
  let total (count : Stats → Nat) := (units.map fun u => count u.stats).sum
  { succeeded := units.length, failed := failures.length, collisions := failures.length
    items := {
      features := total (·.features), references := total (·.references)
      machines := total (·.machines), ids := total (·.ids), diagnostics := total (·.diagnostics) } }

/-- A number of a snapshot, zero where the series does not exist. -/
def reading (c : Counters) (series : String) : Nat := (c.snapshot.lookup series).getD 0

/-- The kinds of items that are counted. -/
def itemKinds : List (String × (Stats → Nat)) :=
  [("diagnostic", (·.diagnostics)), ("feature", (·.features)), ("id", (·.ids)),
    ("reference", (·.references)), ("state_machine", (·.machines))]

/-- A snapshot shows how many units and failures there are and what the units hold. -/
structure Shows (c : Counters) (units : List CodeUnit) (failures : List LowerError) : Prop where
  succeeded : c.reading (seriesName "simgen_classes_lowered_total" "result" "success") =
    units.length
  failed : c.reading (seriesName "simgen_classes_lowered_total" "result" "error") = failures.length
  collisions : c.reading "simgen_id_collisions_total" = failures.length
  samples : c.reading "simgen_lowering_duration_seconds" = units.length + failures.length
  items : ∀ k ∈ itemKinds, c.reading (seriesName "simgen_lowered_items_total" "kind" k.1) =
    (units.map fun u => k.2 u.stats).sum

variable {units : List CodeUnit} {failures : List LowerError}

theorem observe_tally (c : Classifier) (answer : Except LowerError CodeUnit) :
    (tally units failures).observe (observationOf c answer) =
      tally (units ++ unitsOf [answer]) (failures ++ failuresOf [answer]) := by
  cases answer with
  | ok u => simp [observe, observationOf, Except.map, tally, addStats]
  | error e => simp [observe, observationOf, Except.map, tally]

theorem foldl_observe_tally (units : List CodeUnit) (failures : List LowerError) (r : Registry)
    (stems : Stems) (t : IdTable) (cs : List Classifier) :
    (observations r stems t cs).foldl observe (tally units failures) =
      tally (units ++ unitsOf (lowerEach r stems t cs))
        (failures ++ failuresOf (lowerEach r stems t cs)) := by
  induction cs generalizing t units failures with
  | nil => simp [observations, lowerEach]
  | cons c cs ih =>
    have hcons : observations r stems t (c :: cs) =
        observationOf c (lowerClass r stems t c).2 ::
          observations r stems (lowerClass r stems t c).1 cs := rfl
    rw [hcons, List.foldl_cons, observe_tally, ih, lowerEach]
    cases (lowerClass r stems t c).2 <;> simp

theorem tally_shows (units : List CodeUnit) (failures : List LowerError) :
    (tally units failures).Shows units failures := by
  -- which series exist depends on whether there are units, and whether there are failures
  cases units <;> cases failures <;> constructor <;>
    simp [reading, snapshot, classSeries, itemSeries, itemKinds, seriesName, classes, tally,
      List.lookup_cons]

end Counters

/-! ## Batches -/

/-- A batch that made the calls for the eligible ones among `visited` classifiers and left the
    classifiers `left` because it was cancelled. -/
structure Batch.Accounts (r : Registry) (stems : Stems) (t : IdTable)
    (visited left : List Classifier) (b : Batch) : Prop where
  answered : List.Forall₂ (Answers r stems t.hash) (visited.filter isEligible)
    (lowerEach r stems t (visited.filter isEligible))
  observed : b.observed = observations r stems t (visited.filter isEligible)
  units : b.units = unitsOf (lowerEach r stems t (visited.filter isEligible))
  failures : b.failures = failuresOf (lowerEach r stems t (visited.filter isEligible))
  hasFailed : b.hasFailed = false ↔ b.failures = [] ∧ left = []
  message : b.message = String.intercalate "\n"
    (b.failures.map LowerError.message ++ if left = [] then [] else ["context canceled"])
  counters : (Counters.ofObservations b.observed).Shows b.units b.failures

section
variable {r : Registry} {stems : Stems} {t : IdTable}

theorem Batch.Calls.counters {cs : List Classifier} {b : Batch}
    (h : Batch.Calls r stems { ids := t } cs b) :
    (Counters.ofObservations b.observed).Shows b.units b.failures := by
  have htally : Counters.ofObservations b.observed = Counters.tally b.units b.failures := by
    rw [h.observed, h.units, h.failures]
    exact Counters.foldl_observe_tally [] [] r stems t cs
  rw [htally]
  exact Counters.tally_shows _ _

/-- Only the eligible classifiers count, and whether any were left. -/
theorem Batch.Accounts.congr {visited visited' left left' : List Classifier} {b : Batch}
    (h : Batch.Accounts r stems t visited left b)
    (hvisited : visited.filter isEligible = visited'.filter isEligible)
    (hleft : left = [] ↔ left' = []) : Batch.Accounts r stems t visited' left' b where
  answered := hvisited ▸ h.answered
  observed := hvisited ▸ h.observed
  units := hvisited ▸ h.units
  failures := hvisited ▸ h.failures
  hasFailed := by rw [h.hasFailed, hleft]
  message := by rw [h.message]; simp only [hleft]
  counters := h.counters

/-- A batch accounts for the place where it stops. -/
theorem lowerAll_stops (r : Registry) (stems : Stems) (hash : String → UInt64)
    (ops : List IdOperation) (cancel : Cancellation) :
    ∃ n, Batch.Stops r stems cancel { ids := IdTable.run { hash } ops } r.classifiers n ∧
      Batch.Accounts r stems (IdTable.run { hash } ops) (r.classifiers.take n)
        (r.classifiers.drop n) (lowerAll r stems (IdTable.run { hash } ops) cancel) := by
  obtain ⟨n, hstops, hcalls, hwas⟩ :=
    Batch.run_stops r stems cancel { ids := IdTable.run { hash } ops } r.classifiers
  have hleft : decide (n < r.classifiers.length) = decide (r.classifiers.drop n ≠ []) := by
    simp [List.drop_eq_nil_iff]
  rw [Bool.false_or, hleft] at hwas
  refine ⟨n, hstops, ?_, hcalls.observed, hcalls.units, hcalls.failures, ?_, ?_, hcalls.counters⟩
  · rw [IdTable.run_hash]
    exact lowerEach_answers r stems hash ops _
  · rw [Batch.hasFailed, lowerAll, hwas]
    simp [and_comm]
  · rw [Batch.message, failuresMessage, lowerAll, hwas]
    by_cases h : r.classifiers.drop n = [] <;> simp [h]

theorem length_observations (cs : List Classifier) :
    (observations r stems t cs).length = cs.length := by
  induction cs generalizing t with
  | nil => rfl
  | cons c cs ih => simpa [observations, lowerEach] using ih

/-- The batch is cancelled when so many classes were observed. -/
def Cancellation.after (count : Nat) : Cancellation := fun os => os.length == count

/-- A batch can be made to stop behind any number of classifiers: it is cancelled when the eligible
    ones among them were observed. -/
theorem stops_after {n m : Nat} {cs : List Classifier} {b : Batch}
    (hb : b.observed = []) (hn : n < cs.length)
    (h : Batch.Stops r stems (.after ((cs.take n).filter isEligible).length) b cs m) :
    m < cs.length ∧ (cs.take m).filter isEligible = (cs.take n).filter isEligible := by
  have hcancel : ∀ i, Cancellation.after ((cs.take n).filter isEligible).length
      (b.observed ++ observations r stems b.ids ((cs.take i).filter isEligible)) = true ↔
      ((cs.take i).filter isEligible).length = ((cs.take n).filter isEligible).length := by
    intro i
    simp [Cancellation.after, hb, length_observations]
  have hm : m < cs.length := by
    by_contra hm
    -- it would have been cancelled at `n`, where the number is reached
    have hfalse := h.before n (by omega)
    rw [(hcancel n).2 rfl] at hfalse
    cases hfalse
  have hcount := (hcancel m).1 (h.cancelled hm)
  refine ⟨hm, ?_⟩
  rcases Nat.le_total m n with hle | hle
  · exact ((List.take_prefix_take_left hle).filter _).eq_of_length hcount
  · exact (((List.take_prefix_take_left hle).filter _).eq_of_length hcount.symm).symm

/-- **Every batch adds up**, whatever was lowered before it with its table: it stops at the first
    place where it finds itself cancelled and accounts for it, and there is no place where it could
    not be made to stop. -/
theorem lowerAll_accounts (r : Registry) (stems : Stems) (hash : String → UInt64)
    (ops : List IdOperation) :
    (∀ cancel, ∃ n,
      Batch.Stops r stems cancel { ids := IdTable.run { hash } ops } r.classifiers n ∧
      Batch.Accounts r stems (IdTable.run { hash } ops) (r.classifiers.take n)
        (r.classifiers.drop n) (lowerAll r stems (IdTable.run { hash } ops) cancel)) ∧
    ∀ n, ∃ cancel, Batch.Accounts r stems (IdTable.run { hash } ops) (r.classifiers.take n)
      (r.classifiers.drop n) (lowerAll r stems (IdTable.run { hash } ops) cancel) := by
  refine ⟨lowerAll_stops r stems hash ops, fun n => ?_⟩
  by_cases hn : n < r.classifiers.length
  · obtain ⟨m, hstops, haccounts⟩ := lowerAll_stops r stems hash ops
      (.after ((r.classifiers.take n).filter isEligible).length)
    obtain ⟨hm, hsame⟩ := stops_after rfl hn hstops
    refine ⟨_, haccounts.congr hsame ?_⟩
    simp [List.drop_eq_nil_iff]
    omega
  · obtain ⟨m, hstops, haccounts⟩ := lowerAll_stops r stems hash ops .never
    have hm : r.classifiers.length ≤ m := by
      by_contra hm
      cases hstops.cancelled (by omega)
    rw [List.take_of_length_le hm, List.drop_of_length_le hm] at haccounts
    rw [List.take_of_length_le (by omega), List.drop_of_length_le (by omega)]
    exact ⟨_, haccounts⟩

end

end ObjectLowering.Lowering
