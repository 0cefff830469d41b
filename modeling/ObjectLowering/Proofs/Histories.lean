/-
  Lowering class after class with one id table.

  `lowerEach` gives the answers to calls that share a table.

  * `lowerEach_eq_fresh`: as long as no two keys share an id, every call is
    answered as if it were the first, whatever was lowered before it.
  * `lowerClass_error_leftovers`: a class that fails leaves the keys it was
    granted in the table.  Later calls for other classes do not notice iff
    none of them is granted the id of such a key for another key
    (`oven_failure_spoils_baker`).
-/
import ObjectLowering.Proofs.Claims
import ObjectLowering.Proofs.Ownership

namespace ObjectLowering.Lowering

open Model

/-! ## Calls in a row -/

section
variable {r : Registry} {stems : Stems} {t u : IdTable} {c d : Classifier} {cs : List Classifier}

/-- The answers to calls one after the other. -/
def lowerEach (r : Registry) (stems : Stems) (t : IdTable) :
    List Classifier → List (Except LowerError CodeUnit)
  | [] => []
  | c :: cs => (lowerClass r stems t c).2 :: lowerEach r stems (lowerClass r stems t c).1 cs

/-- The table after calls one after the other. -/
def tableAfter (r : Registry) (stems : Stems) (t : IdTable) (cs : List Classifier) : IdTable :=
  cs.foldl (fun t c => (lowerClass r stems t c).1) t

/-- The run of the claims of a class. -/
def claimsRun (r : Registry) (stems : Stems) (t : IdTable) (c : Classifier) :
    IdTable × Nat × Option Collision :=
  (t.withScope c.id).claimAll c.id (classClaims r stems c)

theorem claimsRun_hash (r : Registry) (stems : Stems) (t : IdTable) (c : Classifier) :
    (claimsRun r stems t c).1.hash = t.hash := by
  rw [claimsRun, IdTable.claimAll_hash, IdTable.withScope_hash]

theorem claimsRun_elsewhere (r : Registry) (stems : Stems) (t : IdTable) {n : String}
    (hn : n ≠ c.id) : (claimsRun r stems t c).1.scopeAt n = t.scopeAt n := by
  rw [claimsRun, IdTable.claimAll_elsewhere _ _ hn, IdTable.scopeAt_withScope]

theorem lowerClass_table (h : family r c = .simObject) (stems : Stems) (t : IdTable) :
    (lowerClass r stems t c).1 = (claimsRun r stems t c).1 := by
  rcases lowerClass_cases h stems t with ⟨t', n, hc, hl⟩ | ⟨t', n, claimant, collision, hc, hl⟩ <;>
    rw [hl, claimsRun, hc]

/-- The answer to a call is read off the run of the claims and the entries that it leaves. -/
theorem lowerClass_answer (h : family r c = .simObject)
    (hrun : (claimsRun r stems t c).2 = (claimsRun r stems u c).2)
    (hentries : (claimsRun r stems t c).1.entries c.id = (claimsRun r stems u c).1.entries c.id) :
    (lowerClass r stems t c).2 = (lowerClass r stems u c).2 := by
  have hanswer : ∀ t, (lowerClass r stems t c).2 = match (claimsRun r stems t c).2 with
      | (_, none) => .ok ((Plan.of r stems c).unit r stems ((claimsRun r stems t c).1.entries c.id))
      | (n, some collision) => .error {
          className := c.name, collision
          claimant := ((((Plan.of r stems c).claims stems)[n]?).map (·.1)).getD .features } := by
    intro t
    rw [lowerClass_simObject h, lowerSimObject, claimsRun, classClaims]
    generalize (t.withScope c.id).claimAll c.id _ = x
    obtain ⟨t', n, _ | collision⟩ := x <;> rfl
  rw [hanswer, hanswer, hrun, hentries]

/-- All but simulation objects are lowered without the table. -/
theorem lowerClass_other (h : family r c ≠ .simObject) (stems : Stems) :
    ∃ u, ∀ t, lowerClass r stems t c = (t, .ok u) := by
  unfold lowerClass
  split
  · exact ⟨_, fun _ => rfl⟩
  · exact ⟨_, fun _ => rfl⟩
  · exact ⟨_, fun _ => if_neg h⟩
  · exact ⟨_, fun _ => if_neg h⟩

theorem tableAfter_run (r : Registry) (stems : Stems) (t : IdTable) (cs : List Classifier) :
    ∃ ops, tableAfter r stems t cs = t.run ops := by
  induction cs generalizing t with
  | nil => exact ⟨[], rfl⟩
  | cons c cs ih =>
    obtain ⟨ops, hops⟩ := lowerClass_run r stems t c
    obtain ⟨ops', hops'⟩ := ih (lowerClass r stems t c).1
    refine ⟨ops ++ ops', ?_⟩
    rw [IdTable.run_append, ← hops, ← hops']
    rfl

/-- A call adds ids of the keys that its class claims. -/
theorem IdTable.Within.lowerClass {K : Set String} (h : t.Within K)
    (hclaims : ∀ p ∈ classClaims r stems c, p.1 ∈ K) :
    (lowerClass r stems t c).1.Within K := by
  by_cases hf : family r c = .simObject
  · rw [lowerClass_table hf, claimsRun]
    exact (h.withScope c.id).claimAll hclaims
  · obtain ⟨u, hu⟩ := lowerClass_other hf stems
    rw [hu]
    exact h

theorem IdTable.Within.tableAfter {K : Set String} (h : t.Within K)
    (hclaims : ∀ c ∈ cs, ∀ p ∈ classClaims r stems c, p.1 ∈ K) :
    (tableAfter r stems t cs).Within K := by
  induction cs generalizing t with
  | nil => exact h
  | cons c cs ih =>
    exact ih (h.lowerClass (hclaims c List.mem_cons_self)) fun d hd =>
      hclaims d (List.mem_cons_of_mem _ hd)

/-! ## Calls without a clash of ids -/

/-- The keys that the simulation objects of a list claim. -/
def claimedKeys (r : Registry) (stems : Stems) (cs : List Classifier) : Set String :=
  {key | ∃ c ∈ cs, family r c = .simObject ∧ key ∈ (classClaims r stems c).map (·.1)}

/-- The scope of `c` is as it was at the start, or as a first call for `c` leaves it. -/
def Unspoilt (r : Registry) (stems : Stems) (t : IdTable) (c : Classifier) : Prop :=
  t.Agree { hash := t.hash } c.id ∨ (claimsRun r stems { hash := t.hash } c).1.Agree t c.id

variable {K : Set String} (hK : Set.InjOn t.hash K)
  (hclaims : ∀ p ∈ classClaims r stems c, p.1 ∈ K) (ht : t.Within K)
include hK hclaims ht

/-- A call that finds its scope unspoilt runs its claims as a first call does. -/
theorem claimsRun_fresh (hscope : Unspoilt r stems t c) :
    (claimsRun r stems t c).2 = (claimsRun r stems { hash := t.hash } c).2 ∧
      (claimsRun r stems t c).1.Agree (claimsRun r stems { hash := t.hash } c).1 c.id := by
  have hfresh : (IdTable.withScope { hash := t.hash } c.id).Within K :=
    (IdTable.within_empty t.hash K).withScope c.id
  have ht' := ht.withScope c.id
  have hK' : Set.InjOn (t.withScope c.id).hash K := by rw [IdTable.withScope_hash]; exact hK
  unfold Unspoilt at hscope
  unfold claimsRun at hscope ⊢
  rcases hscope with h | h
  · have hagree : (t.withScope c.id).Agree (IdTable.withScope { hash := t.hash } c.id) c.id :=
      ⟨by simp, by simp [h.scope]⟩
    exact ht'.claimAll_agree hK' hfresh hagree hclaims
  · have hagree : IdTable.Agree _ (t.withScope c.id) c.id :=
      ⟨h.hash.trans (t.withScope_hash c.id).symm,
        h.scope.trans (t.scopeAt_withScope c.id c.id).symm⟩
    obtain ⟨hanswer, hsame⟩ :=
      hfresh.claimAll_again (by rw [IdTable.withScope_hash]; exact hK) ht' hagree hclaims
    refine ⟨hanswer, ?_, ?_⟩
    · rw [IdTable.claimAll_hash, hagree.hash]
    · rw [hsame, hagree.scope]

/-- A call leaves scopes unspoilt: its own is as after a first call, the others are untouched. -/
theorem unspoilt_lowerClass (hf : family r c = .simObject) (hscope : Unspoilt r stems t c)
    (hd : Unspoilt r stems t d) (hid : d.id = c.id → d = c) :
    Unspoilt r stems (lowerClass r stems t c).1 d := by
  obtain ⟨-, hagree⟩ := claimsRun_fresh hK hclaims ht hscope
  rw [lowerClass_table hf]
  have hhash := claimsRun_hash r stems t c
  unfold Unspoilt at hd ⊢
  rw [hhash]
  by_cases hdc : d.id = c.id
  · rw [hid hdc]
    exact Or.inr ⟨hagree.hash.symm, hagree.scope.symm⟩
  · have hkept := claimsRun_elsewhere r stems t hdc
    rcases hd with h | h
    · exact Or.inl ⟨hhash.trans h.hash, hkept.trans h.scope⟩
    · exact Or.inr ⟨h.hash.trans hhash.symm, h.scope.trans hkept.symm⟩

end

/-- What calls for classes of `cs` leave of an empty table: ids of their keys, and scopes that none
    of them spoils for another. -/
structure Tidy (r : Registry) (stems : Stems) (hash : String → UInt64) (cs : List Classifier)
    (t : IdTable) : Prop where
  hash : t.hash = hash
  within : t.Within (claimedKeys r stems cs)
  scopes : ∀ c ∈ cs, family r c = .simObject → Unspoilt r stems t c

section
variable {r : Registry} {stems : Stems} {hash : String → UInt64} {cs : List Classifier}
  {t : IdTable} (hid : ∀ c ∈ cs, ∀ d ∈ cs, d.id = c.id → d = c)
  (hK : Set.InjOn hash (claimedKeys r stems cs))
include hid hK

/-- A call is answered as a first call, and leaves the table tidy. -/
theorem Tidy.lowerClass (h : Tidy r stems hash cs t) {c : Classifier} (hc : c ∈ cs) :
    (lowerClass r stems t c).2 = (lowerClass r stems { hash } c).2 ∧
      Tidy r stems hash cs (lowerClass r stems t c).1 := by
  by_cases hf : family r c = .simObject
  · obtain ⟨rfl, ht, hscopes⟩ := h
    have hclaims : ∀ p ∈ classClaims r stems c, p.1 ∈ claimedKeys r stems cs :=
      fun p hp => ⟨c, hc, hf, List.mem_map_of_mem hp⟩
    obtain ⟨hrun, hagree⟩ := claimsRun_fresh hK hclaims ht (hscopes c hc hf)
    refine ⟨lowerClass_answer hf hrun ?_, ?_, ?_, fun d hd hfd => ?_⟩
    · rw [IdTable.entries_eq, IdTable.entries_eq, hagree.scope]
    · rw [lowerClass_table hf, claimsRun_hash]
    · exact ht.lowerClass hclaims
    · exact unspoilt_lowerClass hK hclaims ht hf (hscopes c hc hf) (hscopes d hd hfd)
        (hid c hc d hd)
  · obtain ⟨u, hu⟩ := lowerClass_other hf stems
    rw [hu, hu]
    exact ⟨rfl, h⟩

theorem Tidy.lowerEach (h : Tidy r stems hash cs t) {ds : List Classifier}
    (hds : ∀ d ∈ ds, d ∈ cs) :
    lowerEach r stems t ds = ds.map fun d => (Lowering.lowerClass r stems { hash } d).2 := by
  induction ds generalizing t with
  | nil => rfl
  | cons d ds ih =>
    obtain ⟨hanswer, htidy⟩ := h.lowerClass hid hK (hds d List.mem_cons_self)
    rw [Lowering.lowerEach, List.map_cons, hanswer,
      ih htidy fun x hx => hds x (List.mem_cons_of_mem _ hx)]

end

/-- **No hidden history.**  Where no two keys share an id, calls in any order, repeated or failing,
    are all answered as a first call with an empty table is. -/
theorem lowerEach_eq_fresh {r : Registry} {stems : Stems} {hash : String → UInt64}
    {cs : List Classifier} (hr : r.Built) (hcs : ∀ c ∈ cs, c ∈ r.classifiers)
    (hK : Set.InjOn hash (claimedKeys r stems cs)) :
    lowerEach r stems { hash } cs = cs.map fun c => (lowerClass r stems { hash } c).2 := by
  have helement : ∀ c ∈ cs, .classifier c ∈ r.elements := by
    intro c hc
    obtain ⟨e, he, hec⟩ := List.mem_filterMap.1 (hcs c hc)
    cases e <;> simp_all
  have hid : ∀ c ∈ cs, ∀ d ∈ cs, d.id = c.id → d = c := fun c hc d hd h =>
    Element.classifier.inj (Registry.eq_of_id hr.ids_nodup (helement d hd) (helement c hc) h)
  have htidy : Tidy r stems hash cs { hash } :=
    ⟨rfl, IdTable.within_empty hash _, fun _ _ _ => Or.inl ⟨rfl, rfl⟩⟩
  exact htidy.lowerEach hid hK fun _ hc => hc

/-! A bakery with an oven whose attributes differ in case only, and a baker.  The oven cannot be
    lowered. -/

def oven : Classifier := { id := "oven", name := "Oven", stereotype := "SimObject" }

def baker : Classifier := { id := "baker", name := "Baker", stereotype := "SimObject" }

def bakery : Registry := Registry.prepare { elements := [
  .classifier oven,
  .attribute { id := "h1", name := "heat", parent := "oven", typed := { typeName := "int" } },
  .attribute { id := "h2", name := "Heat", parent := "oven", typed := { typeName := "int" } },
  .classifier baker,
  .attribute { id := "n", name := "name", parent := "baker", typed := { typeName := "string" } }] }

theorem bakery_claims :
    classClaims bakery (.ofTexts "" "") oven =
      [("ATTR_HEAT", "Oven.heat"), ("ATTR_HEAT", "Oven.Heat")] ∧
    classClaims bakery (.ofTexts "" "") baker = [("ATTR_NAME", "Baker.name")] := by
  decide +kernel

theorem oven_fails (hash : String → UInt64) :
    ∃ t e, lowerClass bakery (.ofTexts "" "") { hash } oven = (t, .error e) := by
  have hf : family bakery oven = .simObject := by decide +kernel
  rcases lowerClass_cases hf (.ofTexts "" "") { hash } with ⟨t, n, hc, -⟩ | ⟨t, n, _, _, -, hl⟩
  · rw [bakery_claims.1] at hc
    cases hc
  · exact ⟨t, _, hl⟩

theorem bakery_calls_fresh :
    bakery.Built ∧ (∀ c ∈ [oven, baker, oven, baker], c ∈ bakery.classifiers) ∧
    Set.InjOn Digest.XxHash.hash
      (claimedKeys bakery (.ofTexts "" "") [oven, baker, oven, baker]) ∧
    lowerEach bakery (.ofTexts "" "") { hash := Digest.XxHash.hash } [oven, baker, oven, baker] =
      [oven, baker, oven, baker].map fun c =>
        (lowerClass bakery (.ofTexts "" "") { hash := Digest.XxHash.hash } c).2 := by
  have hbuilt : bakery.Built := .prepare (.loaded (by decide +kernel))
  have hclasses : ∀ c ∈ [oven, baker, oven, baker], c ∈ bakery.classifiers := by decide +kernel
  have hkeys : ∀ k ∈ claimedKeys bakery (.ofTexts "" "") [oven, baker, oven, baker],
      k ∈ ["ATTR_HEAT", "ATTR_NAME"] := by
    rintro k ⟨c, hc, -, hk⟩
    simp only [List.mem_cons, List.not_mem_nil, or_false] at hc
    rcases hc with rfl | rfl | rfl | rfl <;> simp_all [bakery_claims]
  have hhash : ∀ k ∈ ["ATTR_HEAT", "ATTR_NAME"], ∀ k' ∈ ["ATTR_HEAT", "ATTR_NAME"],
      Digest.XxHash.hash k = Digest.XxHash.hash k' → k = k' := by decide +kernel
  have hinj : Set.InjOn Digest.XxHash.hash
      (claimedKeys bakery (.ofTexts "" "") [oven, baker, oven, baker]) :=
    fun k hk k' hk' => hhash k (hkeys k hk) k' (hkeys k' hk')
  exact ⟨hbuilt, hclasses, hinj, lowerEach_eq_fresh hbuilt hclasses hinj⟩

/-! ## What a failure leaves behind -/

namespace IdTable

variable {t t' u u' : IdTable} {x name key owner : String} {left : List IdEntry}
  {claims : List (String × String)}

/-- The table `u` is `t` with entries `left` in the scope of `x`, which `t` lacks. -/
structure Beside (x : String) (left : List IdEntry) (t u : IdTable) : Prop where
  valid : t.Valid
  valid' : u.Valid
  hash : t.hash = u.hash
  scope : ∀ n, n ≠ x → t.scopeAt n = u.scopeAt n
  index : ∀ id k, u.index.lookup id = some k ↔
    t.index.lookup id = some k ∨ (⟨k, id⟩ : IdEntry) ∈ left

theorem Beside.agree (h : Beside x left t u) (hn : name ≠ x) : t.Agree u name :=
  ⟨h.hash, h.scope name hn⟩

theorem Beside.withScope (h : Beside x left t u) (name : String) :
    Beside x left (t.withScope name) (u.withScope name) where
  valid := h.valid.withScope name
  valid' := h.valid'.withScope name
  hash := by rw [withScope_hash, withScope_hash, h.hash]
  scope n hn := by rw [scopeAt_withScope, scopeAt_withScope, h.scope n hn]
  index id k := by rw [withScope_index, withScope_index, h.index]

/-- Granted on both sides, a claim leaves the difference as it is. -/
theorem Beside.granted (h : Beside x left t u) {e e' : IdEntry}
    (hct : t.claim name key owner = .ok (t', e)) (hcu : u.claim name key owner = .ok (u', e'))
    (hagree : t'.Agree u' name) : Beside x left t' u' where
  valid := h.valid.claim hct
  valid' := h.valid'.claim hcu
  hash := hagree.hash
  scope n hn := by
    by_cases hname : n = name
    · rw [hname, hagree.scope]
    · rw [claim_elsewhere hct hname, claim_elsewhere hcu hname, h.scope n hn]
  index id k := by
    rw [claim_index h.valid hct, claim_index h.valid' hcu, ← h.hash]
    split_ifs with hid
    · refine ⟨Or.inl, fun hk => hk.elim (fun hk => hk) fun hleft => ?_⟩
      have hk := (h.index id k).2 (Or.inr hleft)
      rw [hid, h.hash] at hk
      rw [claim_index_free h.valid' hcu hk]
    · exact h.index id k

/-- **A claim beside leftovers** is answered as without them, or is granted without them and refused
    with them, as a leftover has its id for another key. -/
theorem Beside.claim_cases (h : Beside x left t u) (hn : name ≠ x) (key owner : String) :
    (∃ c, t.claim name key owner = .error c ∧ u.claim name key owner = .error c) ∨
    (∃ t' u' e, t.claim name key owner = .ok (t', e) ∧ u.claim name key owner = .ok (u', e) ∧
      Beside x left t' u') ∨
    ∃ t' e k, t.claim name key owner = .ok (t', e) ∧ (⟨k, t.hash key⟩ : IdEntry) ∈ left ∧ k ≠ key ∧
      u.claim name key owner = .error { scope := name, id := t.hash key, key, existing := k } := by
  -- the answers part only for a new key whose id is free in `t` and taken in `u`
  have hcase : ((t.scopeAt name).find key = none → t.blocker? key = u.blocker? key) ∨
      ((t.scopeAt name).find key = none ∧ t.index.lookup (t.hash key) = none ∧
        ∃ k, u.index.lookup (t.hash key) = some k ∧ k ≠ key) := by
    simp only [blocker?, ← h.hash]
    cases hi : t.index.lookup (t.hash key) with
    | some k =>
      left
      intro _
      rw [(h.index _ k).2 (Or.inl hi)]
    | none =>
      cases hi' : u.index.lookup (t.hash key) with
      | none => exact Or.inl fun _ => rfl
      | some k =>
        by_cases hk : k = key
        · exact Or.inl fun _ => by simp [hk, Option.filter]
        · by_cases hf : (t.scopeAt name).find key = none
          · exact Or.inr ⟨hf, rfl, k, rfl, hk⟩
          · exact Or.inl fun hf' => absurd hf' hf
  rcases hcase with hb | ⟨hf, hi, k, hi', hk⟩
  · rcases claim_agree owner (h.agree hn) hb with hc | ⟨t', u', e, hct, hcu, hagree⟩
    · exact Or.inl hc
    · exact Or.inr (Or.inl ⟨t', u', e, hct, hcu, h.granted hct hcu hagree⟩)
  · refine Or.inr (Or.inr ?_)
    have hfree : t.refusal? name key owner = none := by simp [refusal?, hf, blocker?, hi]
    have hblocked : u.refusal? name key owner =
        some { scope := name, id := t.hash key, key, existing := k } := by
      rw [h.scope name hn] at hf
      rw [h.hash] at hi'
      simp [refusal?, hf, blocker?, hi', hk, Option.filter, h.hash]
    obtain ⟨t', e, hct⟩ := claim_of_refusal?_eq_none hfree
    have hleft : (⟨k, t.hash key⟩ : IdEntry) ∈ left :=
      ((h.index _ k).1 hi').resolve_left (by rw [hi]; simp)
    exact ⟨t', e, k, hct, hleft, hk, claim_eq_error.2 hblocked⟩

/-- Claims beside leftovers are answered as without them, or end differently, the id of a leftover
    having gone to another key without them. -/
theorem Beside.claimAll_cases (h : Beside x left t u) (hn : name ≠ x)
    (claims : List (String × String)) :
    ((t.claimAll name claims).2 = (u.claimAll name claims).2 ∧
      Beside x left (t.claimAll name claims).1 (u.claimAll name claims).1) ∨
    ((t.claimAll name claims).2.2 ≠ (u.claimAll name claims).2.2 ∧
      ∃ y ∈ left, ∃ k, (t.claimAll name claims).1.index.lookup y.id = some k ∧ k ≠ y.key) := by
  induction claims generalizing t u with
  | nil => exact Or.inl ⟨rfl, h⟩
  | cons p claims ih =>
    obtain ⟨key, owner⟩ := p
    rcases h.claim_cases hn key owner with
      ⟨c, hct, hcu⟩ | ⟨t', u', e, hct, hcu, h'⟩ | ⟨t', e, k, hct, hleft, hk, hcu⟩
    · rw [claimAll_error hct, claimAll_error hcu]
      exact Or.inl ⟨rfl, h⟩
    · rw [claimAll_ok hct, claimAll_ok hcu]
      rcases ih h' with ⟨hanswer, hbeside⟩ | hdiffer
      · exact Or.inl ⟨by rw [hanswer], hbeside⟩
      · exact Or.inr hdiffer
    · -- the key is listed without leftovers, so no refusal there is the one that they cause
      rw [claimAll_ok hct, claimAll_error hcu]
      have hlisted := claim_mem h.valid hct
      refine Or.inr ⟨fun heq => ?_, _, hleft, key, ?_, hk.symm⟩
      · exact holder_of_claimAll (h.valid.claim hct) (List.mem_map.2 ⟨_, hlisted, rfl⟩) heq rfl rfl
      · exact (claimAll_index (h.valid.claim hct)).2
          (Or.inr (claimAll_listed t' claims hlisted))

end IdTable

section
variable {r : Registry} {stems : Stems} {t u : IdTable} {x : String} {left : List IdEntry}

/-- The collision that an answer reports is that of the claims. -/
theorem collision_eq (c : Classifier) (h : family r c = .simObject) (stems : Stems) (t : IdTable) :
    (claimsRun r stems t c).2.2 = match (lowerClass r stems t c).2 with
      | .ok _ => none
      | .error e => some e.collision := by
  rcases lowerClass_cases h stems t with ⟨t', n, hc, hl⟩ | ⟨t', n, claimant, collision, hc, hl⟩ <;>
    rw [hl, claimsRun, hc]

/-- A call beside leftovers is answered as without them, or differently, the id of a leftover having
    gone to another key without them. -/
theorem IdTable.Beside.lowerClass_cases (h : IdTable.Beside x left t u) (r : Registry)
    (stems : Stems) {d : Classifier} (hd : d.id ≠ x) :
    ((lowerClass r stems u d).2 = (lowerClass r stems t d).2 ∧
      IdTable.Beside x left (lowerClass r stems t d).1 (lowerClass r stems u d).1) ∨
    ((lowerClass r stems u d).2 ≠ (lowerClass r stems t d).2 ∧
      ∃ y ∈ left, ∃ k, (lowerClass r stems t d).1.index.lookup y.id = some k ∧ k ≠ y.key) := by
  by_cases hf : family r d = .simObject
  · rw [lowerClass_table hf, lowerClass_table hf]
    have hcases := (h.withScope d.id).claimAll_cases hd (classClaims r stems d)
    rw [← claimsRun, ← claimsRun] at hcases
    rcases hcases with ⟨hrun, hbeside⟩ | ⟨hdiffer, hleft⟩
    · refine Or.inl ⟨lowerClass_answer hf hrun.symm ?_, hbeside⟩
      rw [IdTable.entries_eq, IdTable.entries_eq]
      exact congrArg _ (hbeside.scope d.id hd).symm
    · refine Or.inr ⟨fun hanswer => hdiffer ?_, hleft⟩
      have hcollision := collision_eq d hf stems t
      rwa [← hanswer, ← collision_eq d hf stems u] at hcollision
  · obtain ⟨v, hv⟩ := lowerClass_other hf stems
    rw [hv, hv]
    exact Or.inl ⟨rfl, h⟩

/-- **Calls beside leftovers** are answered as without them iff, without them, the ids of leftovers
    go to no other key. -/
theorem IdTable.Beside.lowerEach_iff (h : IdTable.Beside x left t u) {ds : List Classifier}
    (hds : ∀ d ∈ ds, d.id ≠ x) :
    lowerEach r stems u ds = lowerEach r stems t ds ↔
      ∀ y ∈ left, ∀ k, (tableAfter r stems t ds).index.lookup y.id = some k → k = y.key := by
  induction ds generalizing t u with
  | nil =>
    refine iff_of_true rfl fun y hy k hk => ?_
    have hk := (h.index y.id k).2 (Or.inl hk)
    rw [(h.index y.id y.key).2 (Or.inr hy)] at hk
    exact (Option.some.inj hk).symm
  | cons d ds ih =>
    rw [lowerEach, lowerEach, List.cons.injEq]
    rcases h.lowerClass_cases r stems (hds d List.mem_cons_self) with
      ⟨hanswer, hbeside⟩ | ⟨hdiffer, y, hy, k, hk, hne⟩
    · rw [and_iff_right hanswer, ih hbeside fun x hx => hds x (List.mem_cons_of_mem _ hx)]
      rfl
    · -- an id that went to another key stays with it in all later calls
      refine iff_of_false (fun heq => hdiffer heq.1) fun hfree => hne (hfree y hy k ?_)
      obtain ⟨ops, hops⟩ := lowerClass_run r stems t d
      obtain ⟨ops', hops'⟩ := tableAfter_run r stems (lowerClass r stems t d).1 ds
      have hvalid : (lowerClass r stems t d).1.Valid := by rw [hops]; exact h.valid.run ops
      have hkept := IdTable.run_index_kept hvalid ops' hk
      rw [← hops'] at hkept
      exact hkept

/-- A call puts its table beside the one before it. -/
theorem beside_lowerClass (ht : t.Valid) {c : Classifier} (hf : family r c = .simObject)
    (stems : Stems) : IdTable.Beside c.id ((lowerClass r stems t c).1.entries c.id) t
      (lowerClass r stems t c).1 := by
  have hvalid := ht.withScope c.id
  rw [lowerClass_table hf]
  refine ⟨ht, ?_, (claimsRun_hash r stems t c).symm,
    fun n hn => (claimsRun_elsewhere r stems t hn).symm, fun id k => ?_⟩
  · rw [claimsRun]
    exact hvalid.claimAll _ _
  · rw [IdTable.entries_eq, claimsRun, IdTable.claimAll_index hvalid, IdTable.withScope_index]

end

/-- **What a failure leaves behind.**  A call that fails leaves in the table, in the scope of its
    class only, the keys of the claims before the one that was refused.  The snapshot is unchanged
    iff that scope had them already.  Later calls for other classes are answered as if the call had
    not been made iff, had it not been made, they would give the ids of those keys to no other
    key. -/
theorem lowerClass_error_leftovers {r : Registry} {stems : Stems} {hash : String → UInt64}
    {cs ds : List Classifier} {c : Classifier} {t t' : IdTable} {e : LowerError}
    (ht : t = tableAfter r stems { hash } cs) (he : lowerClass r stems t c = (t', .error e))
    (hds : ∀ d ∈ ds, d.id ≠ c.id) :
    (∀ name, name ≠ c.id → t'.entries name = t.entries name) ∧
    (∃ n, ((classClaims r stems c)[n]?).map (·.1) = some e.collision.key ∧
      ∀ key, key ∈ (t'.entries c.id).map (·.key) ↔ key ∈ (t.entries c.id).map (·.key) ∨
        key ∈ ((classClaims r stems c).take n).map (·.1)) ∧
    (t'.snapshot = t.snapshot ↔ t.scope? c.id ≠ none ∧ t'.entries c.id = t.entries c.id) ∧
    (lowerEach r stems t' ds = lowerEach r stems t ds ↔
      ∀ y ∈ t'.entries c.id, ∀ key,
        (tableAfter r stems t ds).index.lookup y.id = some key → key = y.key) := by
  have hf : family r c = .simObject := by
    by_contra hf
    obtain ⟨u, hu⟩ := lowerClass_other hf stems
    rw [hu] at he
    cases (Prod.mk.inj he).2
  have hvalid : t.Valid := by
    obtain ⟨ops, hops⟩ := tableAfter_run r stems { hash } cs
    rw [ht, hops]
    exact (IdTable.valid_empty hash).run ops
  have htable : t' = ((t.withScope c.id).claimAll c.id (classClaims r stems c)).1 := by
    have h := lowerClass_table hf stems t
    rwa [he] at h
  have hbeside := beside_lowerClass hvalid hf stems
  rw [he] at hbeside
  refine ⟨fun name hn => ?_, ⟨(claimsRun r stems t c).2.1, ?_, fun key => ?_⟩, ?_,
    hbeside.lowerEach_iff hds⟩
  · rw [IdTable.entries_eq, IdTable.entries_eq, hbeside.scope name hn]
  · have hcollision := collision_eq c hf stems t
    simp only [he, claimsRun] at hcollision
    rw [claimsRun]
    exact IdTable.claimAll_refused hcollision
  · rw [htable, IdTable.entries_eq, IdTable.entries_eq,
      IdTable.mem_claimAll_keys (hvalid.withScope c.id), IdTable.scopeAt_withScope, claimsRun]
  · rw [htable]
    exact IdTable.snapshot_claimAll_iff hvalid

theorem oven_fails_unnoticed :
    ∃ t e, lowerClass bakery (.ofTexts "" "") { hash := Digest.XxHash.hash } oven =
      (t, .error e) ∧ baker.id ≠ oven.id ∧
      lowerEach bakery (.ofTexts "" "") t [baker] =
        lowerEach bakery (.ofTexts "" "") { hash := Digest.XxHash.hash } [baker] := by
  obtain ⟨t, e, he⟩ := oven_fails Digest.XxHash.hash
  have hid : ∀ d ∈ [baker], d.id ≠ oven.id := by decide
  have hleft : t = (claimsRun bakery (.ofTexts "" "") { hash := Digest.XxHash.hash } oven).1 := by
    rw [← lowerClass_table (by decide +kernel), he]
  have hfree : ∀ y ∈ (claimsRun bakery (.ofTexts "" "") { hash := Digest.XxHash.hash }
      oven).1.entries oven.id, ∀ k ∈ (tableAfter bakery (.ofTexts "" "")
        { hash := Digest.XxHash.hash } [baker]).index.lookup y.id, k = y.key := by decide +kernel
  refine ⟨t, e, he, hid baker List.mem_cons_self, ?_⟩
  have hempty : ({ hash := Digest.XxHash.hash } : IdTable) =
      tableAfter bakery (.ofTexts "" "") { hash := Digest.XxHash.hash } [] := rfl
  have hiff := (lowerClass_error_leftovers hempty he hid).2.2.2
  refine hiff.2 fun y hy k hk => ?_
  rw [hleft] at hy
  exact hfree y hy k hk

/-- The number of bytes of a key, which keys of one length share. -/
def byteLength (key : String) : UInt64 := key.utf8ByteSize.toUInt64

/-- With ids that are lengths, the oven fails and leaves `ATTR_HEAT` behind, which the baker with
    his `ATTR_NAME` then fails for; without the call for the oven he is lowered. -/
theorem oven_failure_spoils_baker :
    ∃ t e, lowerClass bakery (.ofTexts "" "") { hash := byteLength } oven = (t, .error e) ∧
      t.snapshot ≠ IdTable.snapshot { hash := byteLength } ∧
      (∃ t' e', lowerClass bakery (.ofTexts "" "") t baker = (t', .error e')) ∧
      ∃ t' u, lowerClass bakery (.ofTexts "" "") { hash := byteLength } baker = (t', .ok u) := by
  obtain ⟨t, e, he⟩ := oven_fails byteLength
  have hf : family bakery baker = .simObject := by decide +kernel
  have hleft : t = (claimsRun bakery (.ofTexts "" "") { hash := byteLength } oven).1 := by
    rw [← lowerClass_table (by decide +kernel), he]
  have hspoilt : (claimsRun bakery (.ofTexts "" "") t baker).2.2 ≠ none := by
    rw [hleft]
    decide +kernel
  refine ⟨t, e, he, ?_, ?_, lowerClass_of_granted hf (by decide +kernel)⟩
  · rw [hleft]
    decide +kernel
  · rcases lowerClass_cases hf (.ofTexts "" "") t with ⟨t', n, hc, -⟩ | ⟨t', n, _, _, -, hl⟩
    · rw [claimsRun, hc] at hspoilt
      exact absurd rfl hspoilt
    · exact ⟨t', _, hl⟩

end ObjectLowering.Lowering
