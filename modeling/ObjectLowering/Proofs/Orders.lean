/-
  Claims in any order.

  Whether all operations on a fresh table are granted depends on what they
  claim, and not on the order in which they come.

  * `Compatible`: no two keys share an id, and no key of a class is claimed
    for two owners.
  * `Records`: a table that knows the claims made so far, and no others.  It
    refuses the next claim iff that is not compatible with them
    (`Records.refusal?_eq_none_iff`).
  * `succeeds_iff`: operations are all granted iff what they claim is
    compatible; so are calls for classes (`lowerEach_succeeds_iff`).
  * `claims_succeed_iff`: so no order counts, of claims, features or classes.
-/
import ObjectLowering.Proofs.Batches

namespace ObjectLowering.Lowering

open Model

/-- A claim of a key in the scope of a class, for an owner or for nobody. -/
structure KeyClaim where
  name : String
  key : String
  owner : String := ""
deriving DecidableEq

/-- What an operation claims. -/
def IdOperation.keyClaim? : IdOperation → Option KeyClaim
  | .scope _ => none
  | .allocate name stem part => some { name, key := keyOf stem part }
  | .allocateKey name key => some { name, key }
  | .claim name key owner => some { name, key, owner }

/-- The operation that makes a claim. -/
def KeyClaim.operation (c : KeyClaim) : IdOperation := .claim c.name c.key c.owner

/-- Claims that can be granted together. -/
structure Compatible (hash : String → UInt64) (claims : List KeyClaim) : Prop where
  /-- Distinct keys have distinct ids. -/
  ids : ∀ c ∈ claims, ∀ d ∈ claims, c.key ≠ d.key → hash c.key ≠ hash d.key
  /-- A key of a class has one owner at most. -/
  owners : ∀ c ∈ claims, ∀ d ∈ claims, c.name = d.name → c.key = d.key →
    c.owner ≠ "" → d.owner ≠ "" → c.owner = d.owner

/-- A claim that can be granted beside others. -/
structure Fits (hash : String → UInt64) (claims : List KeyClaim) (c : KeyClaim) : Prop where
  id : ∀ d ∈ claims, hash d.key = hash c.key → d.key = c.key
  owner : ∀ d ∈ claims, d.name = c.name → d.key = c.key →
    d.owner ≠ "" → c.owner ≠ "" → d.owner = c.owner

section
variable {hash : String → UInt64} {claims claims' : List KeyClaim} {c : KeyClaim}

/-- Only which claims there are counts. -/
theorem Compatible.congr (h : Compatible hash claims) (hsub : claims' ⊆ claims) :
    Compatible hash claims' where
  ids c hc d hd := h.ids c (hsub hc) d (hsub hd)
  owners c hc d hd := h.owners c (hsub hc) d (hsub hd)

theorem compatible_perm (h : claims.Perm claims') :
    Compatible hash claims ↔ Compatible hash claims' :=
  ⟨fun hc => hc.congr h.symm.subset, fun hc => hc.congr h.subset⟩

theorem compatible_concat :
    Compatible hash (claims ++ [c]) ↔ Compatible hash claims ∧ Fits hash claims c := by
  have hc : c ∈ claims ++ [c] := by simp
  have hd : ∀ d ∈ claims, d ∈ claims ++ [c] := fun d hd => List.mem_append_left _ hd
  constructor
  · intro h
    refine ⟨h.congr hd, fun d hm he => ?_, fun d hm => h.owners d (hd d hm) c hc⟩
    exact not_not.1 fun hne => h.ids d (hd d hm) c hc hne he
  · rintro ⟨h, hid, howner⟩
    refine ⟨fun x hx y hy hne he => ?_, fun x hx y hy hname hkey hox hoy => ?_⟩ <;>
      simp only [List.mem_append, List.mem_singleton] at hx hy <;>
      rcases hx with hx | rfl <;> rcases hy with hy | rfl
    · exact h.ids x hx y hy hne he
    · exact hne (hid x hx he)
    · exact hne (hid y hy he.symm).symm
    · exact hne rfl
    · exact h.owners x hx y hy hname hkey hox hoy
    · exact howner x hx hname hkey hox hoy
    · exact (howner y hy hname.symm hkey.symm hoy hox).symm
    · rfl

end

namespace IdTable

variable {t : IdTable} {claims : List KeyClaim} {c : KeyClaim} {ops ops' : List IdOperation}
  {op : IdOperation}

/-! ## Runs without a refusal -/

/-- The answers to operations, one after the other. -/
def answers (t : IdTable) : List IdOperation → List (Except Collision (Option IdEntry))
  | [] => []
  | op :: ops => (t.step op).2 :: (t.step op).1.answers ops

/-- No operation is refused. -/
def Succeeds (t : IdTable) (ops : List IdOperation) : Prop := ∀ a ∈ t.answers ops, a.isOk = true

theorem answers_append (t : IdTable) (ops ops' : List IdOperation) :
    t.answers (ops ++ ops') = t.answers ops ++ (t.run ops).answers ops' := by
  induction ops generalizing t with
  | nil => rfl
  | cons op ops ih => exact congrArg ((t.step op).2 :: ·) (ih (t.step op).1)

theorem succeeds_append :
    t.Succeeds (ops ++ ops') ↔ t.Succeeds ops ∧ (t.run ops).Succeeds ops' := by
  simp only [Succeeds, answers_append, List.forall_mem_append]

theorem succeeds_cons :
    t.Succeeds (op :: ops) ↔ (t.step op).2.isOk = true ∧ (t.step op).1.Succeeds ops :=
  List.forall_mem_cons

/-! ## What a table knows of the claims -/

/-- The table knows the claims made so far: their keys and owners, and no others. -/
structure Records (t : IdTable) (claims : List KeyClaim) : Prop where
  valid : t.Valid
  known : ∀ id key, t.index.lookup id = some key → t.hash key = id ∧ ∃ c ∈ claims, c.key = key
  listed : ∀ c ∈ claims, c.key ∈ (t.scopeAt c.name).entries.map (·.key)
  owned : ∀ c ∈ claims, c.owner ≠ "" → t.holder c.name c.key = c.owner
  held : ∀ name key, t.holder name key ≠ "" →
    ∃ c ∈ claims, c.name = name ∧ c.key = key ∧ c.owner = t.holder name key

theorem records_empty (hash : String → UInt64) : Records { hash } [] where
  valid := valid_empty hash
  known _ _ h := by cases h
  listed _ h := by cases h
  owned _ h := by cases h
  held _ _ h := absurd rfl h

/-- The id of a listed key is that of no other. -/
theorem Valid.lookup_hash (h : t.Valid) {name key : String}
    (hk : key ∈ (t.scopeAt name).entries.map (·.key)) : t.index.lookup (t.hash key) = some key := by
  obtain ⟨e, he, rfl⟩ := List.mem_map.1 hk
  rw [← h.ids name e he]
  exact h.index name e he

/-- **When a claim is granted**: if it can be beside the claims before it. -/
theorem Records.refusal?_eq_none_iff (h : t.Records claims) :
    t.refusal? c.name c.key c.owner = none ↔ Fits t.hash claims c := by
  have hlookup : ∀ d ∈ claims, t.index.lookup (t.hash d.key) = some d.key :=
    fun d hd => h.valid.lookup_hash (h.listed d hd)
  unfold refusal?
  cases hf : (t.scopeAt c.name).find c.key with
  | some e =>
    -- the key is listed already, so only its owner counts
    have hown : t.index.lookup (t.hash c.key) = some c.key :=
      h.valid.lookup_hash (List.mem_map.2 ⟨e, IdScope.find_eq_some hf⟩)
    simp only [ite_eq_right_iff, reduceCtorEq, imp_false]
    constructor
    · intro hfree
      refine ⟨fun d hd he => ?_, fun d hd hname hkey hdo hco => ?_⟩
      · have hsame := hlookup d hd
        rw [he, hown] at hsame
        exact (Option.some.inj hsame).symm
      · have hholder := h.owned d hd hdo
        rw [hname, hkey] at hholder
        exact not_not.1 fun hne => hfree ⟨hco, hholder ▸ hdo, hholder ▸ hne⟩
    · rintro ⟨-, howner⟩ ⟨hco, hheld, hne⟩
      obtain ⟨d, hd, hname, hkey, hdo⟩ := h.held _ _ hheld
      exact hne (hdo ▸ howner d hd hname hkey (hdo ▸ hheld) hco)
  | none =>
    -- the key is new to the class, so only its id counts
    have hnew := IdScope.find_eq_none.1 hf
    rw [Option.map_eq_none_iff, blocker?]
    constructor
    · intro hfree
      refine ⟨fun d hd he => ?_, fun d hd hname hkey => ?_⟩
      · rw [← he, hlookup d hd] at hfree
        simpa [Option.filter] using hfree
      · exact absurd (hname ▸ hkey ▸ h.listed d hd) hnew
    · rintro ⟨hid, -⟩
      cases hl : t.index.lookup (t.hash c.key) with
      | none => rfl
      | some other =>
        obtain ⟨hhash, d, hd, rfl⟩ := h.known _ _ hl
        simp [Option.filter, hid d hd hhash]

/-- A table knows a claim that it has granted. -/
theorem Records.claim (h : t.Records claims) {t' : IdTable} {e : IdEntry}
    (hc : t.claim c.name c.key c.owner = .ok (t', e)) : t'.Records (claims ++ [c]) where
  valid := h.valid.claim hc
  known id key hl := by
    rw [claim_index h.valid hc] at hl
    rw [claim_hash hc]
    split_ifs at hl with hid
    · obtain rfl := Option.some.inj hl
      exact ⟨hid.symm, c, by simp, rfl⟩
    · obtain ⟨hhash, d, hd, hk⟩ := h.known id key hl
      exact ⟨hhash, d, List.mem_append_left _ hd, hk⟩
  listed d hd := by
    rcases List.mem_append.1 hd with hd | hd
    · rw [claim_entries hc, List.map_append]
      exact List.mem_append_left _ (h.listed d hd)
    · obtain rfl := List.mem_singleton.1 hd
      exact List.mem_map.2 ⟨_, claim_mem h.valid hc, rfl⟩
  owned d hd ho := by
    rcases List.mem_append.1 hd with hd | hd
    · have hholder := h.owned d hd ho
      rw [claim_holder hc, if_neg, hholder]
      rintro ⟨hname, hkey, hnone⟩
      rw [← hname, ← hkey, hholder] at hnone
      exact ho hnone
    · obtain rfl := List.mem_singleton.1 hd
      exact claim_owner hc ho h.valid
  held name key hk := by
    rw [claim_holder hc] at hk ⊢
    split_ifs at hk ⊢ with hn
    · exact ⟨c, by simp, hn.1.symm, hn.2.1.symm, rfl⟩
    · obtain ⟨d, hd, hd'⟩ := h.held name key hk
      exact ⟨d, List.mem_append_left _ hd, hd'⟩

theorem Records.withScope (h : t.Records claims) (name : String) :
    (t.withScope name).Records claims where
  valid := h.valid.withScope name
  known := by simpa using h.known
  listed := by simpa using h.listed
  owned := by simpa [holder] using h.owned
  held := by simpa [holder] using h.held

/-- An operation is an attempt to make the claim it has, or makes a scope. -/
theorem step_eq (t : IdTable) (op : IdOperation) : t.step op = match op.keyClaim? with
    | none => (t.withScope op.scopeName, .ok none)
    | some c => t.attempt (t.claim c.name c.key c.owner) := by
  cases op <;> rfl

/-- One operation: it is granted iff what it claims fits, and then the table knows its claim. -/
theorem Records.step (h : t.Records claims) (op : IdOperation) :
    ((t.step op).2.isOk = true ↔ ∀ c ∈ op.keyClaim?, Fits t.hash claims c) ∧
    ((t.step op).2.isOk = true → (t.step op).1.Records (claims ++ op.keyClaim?.toList)) := by
  rw [step_eq]
  cases hop : op.keyClaim? with
  | none => exact ⟨by simp [Except.isOk, Except.toBool], fun _ => by simpa using h.withScope _⟩
  | some c =>
    simp only [Option.mem_some_iff, forall_eq', Option.toList_some,
      ← h.refusal?_eq_none_iff]
    cases hc : t.claim c.name c.key c.owner with
    | ok p =>
      have hr : t.refusal? c.name c.key c.owner = none := by
        cases hr : t.refusal? c.name c.key c.owner with
        | none => rfl
        | some collision => rw [claim_eq_error.2 hr] at hc; cases hc
      exact ⟨by simp [attempt, hr, Except.isOk, Except.toBool], fun _ => h.claim hc⟩
    | error collision => simp [attempt, claim_eq_error.1 hc, Except.isOk, Except.toBool]

/-! ## Any order -/

theorem filterMap_operation (claims : List KeyClaim) :
    (claims.map KeyClaim.operation).filterMap IdOperation.keyClaim? = claims := by
  rw [List.filterMap_map]
  exact List.filterMap_some

/-- **Operations on a fresh table** are all granted iff what they claim is compatible; the table
    then knows what they claim. -/
theorem succeeds_iff (hash : String → UInt64) (ops : List IdOperation) :
    (Succeeds { hash } ops ↔ Compatible hash (ops.filterMap IdOperation.keyClaim?)) ∧
    (Succeeds { hash } ops →
      (run { hash } ops).Records (ops.filterMap IdOperation.keyClaim?)) := by
  induction ops using List.reverseRecOn with
  | nil =>
    refine ⟨iff_of_true ?_ ⟨?_, ?_⟩, fun _ => records_empty hash⟩ <;> simp [Succeeds, answers]
  | append_singleton ops op ih =>
    obtain ⟨hiff, hrecords⟩ := ih
    have hclaims : (ops ++ [op]).filterMap IdOperation.keyClaim? =
        ops.filterMap IdOperation.keyClaim? ++ op.keyClaim?.toList := by
      cases hop : op.keyClaim? <;> simp [hop]
    have hsucceeds : Succeeds { hash } (ops ++ [op]) ↔
        Succeeds { hash } ops ∧ ((run { hash } ops).step op).2.isOk = true := by
      rw [succeeds_append, succeeds_cons]
      simp [Succeeds, answers]
    have hcompatible :
        Compatible hash (ops.filterMap IdOperation.keyClaim? ++ op.keyClaim?.toList) ↔
        Compatible hash (ops.filterMap IdOperation.keyClaim?) ∧
          ∀ c ∈ op.keyClaim?, Fits hash (ops.filterMap IdOperation.keyClaim?) c := by
      cases op.keyClaim? with
      | none => simp
      | some c => simpa using compatible_concat
    rw [hclaims, hsucceeds, hcompatible, ← hiff, run_concat]
    refine ⟨and_congr_right fun h => ?_, fun h => ((hrecords h.1).step op).2 h.2⟩
    rw [((hrecords h).step op).1, run_hash]

/-- A run of claims gets through iff none of them is refused, and then leaves what they leave one
    after the other. -/
theorem claimAll_succeeds (t : IdTable) (name : String) (claims : List (String × String)) :
    ((t.claimAll name claims).2.2 = none ↔
      t.Succeeds (claims.map fun p => .claim name p.1 p.2)) ∧
    ((t.claimAll name claims).2.2 = none →
      (t.claimAll name claims).1 = t.run (claims.map fun p => .claim name p.1 p.2)) := by
  induction claims generalizing t with
  | nil => exact ⟨iff_of_true rfl (List.forall_mem_nil _), fun _ => rfl⟩
  | cons p claims ih =>
    obtain ⟨key, owner⟩ := p
    rw [List.map_cons, succeeds_cons]
    cases hc : t.claim name key owner with
    | error c =>
      rw [claimAll_error hc]
      simp [step, hc, attempt, Except.isOk, Except.toBool]
    | ok q =>
      have hstep : t.step (.claim name key owner) = (q.1, .ok (some q.2)) := by rw [step, hc]; rfl
      rw [claimAll_ok hc, run, List.foldl_cons, hstep]
      exact ⟨(ih q.1).1.trans (iff_and_self.2 fun _ => rfl), (ih q.1).2⟩

end IdTable

/-! ## Batches in any order -/

/-- The claims of a class; all but simulation objects have none. -/
def keyClaims (r : Registry) (stems : Stems) (c : Classifier) : List KeyClaim :=
  if family r c = .simObject then
    (classClaims r stems c).map fun p => { name := c.id, key := p.1, owner := p.2 }
  else []

/-- What a call for a class asks of the table. -/
def callOperations (r : Registry) (stems : Stems) (c : Classifier) : List IdOperation :=
  if family r c = .simObject then .scope c.id :: (keyClaims r stems c).map KeyClaim.operation
  else []

theorem callOperations_simObject {r : Registry} {c : Classifier} (h : family r c = .simObject)
    (stems : Stems) :
    callOperations r stems c =
      .scope c.id :: (classClaims r stems c).map fun p => .claim c.id p.1 p.2 := by
  rw [callOperations, keyClaims, if_pos h, if_pos h, List.map_map]
  rfl

theorem filterMap_callOperations (r : Registry) (stems : Stems) (c : Classifier) :
    (callOperations r stems c).filterMap IdOperation.keyClaim? = keyClaims r stems c := by
  unfold callOperations
  split_ifs with h
  · rw [List.filterMap_cons, IdOperation.keyClaim?, IdTable.filterMap_operation]
  · rw [keyClaims, if_neg h]
    rfl

/-- A call succeeds iff the table grants what it asks. -/
theorem lowerClass_granted (r : Registry) (stems : Stems) (t : IdTable) (c : Classifier) :
    ((lowerClass r stems t c).2.isOk = true ↔ t.Succeeds (callOperations r stems c)) ∧
    ((lowerClass r stems t c).2.isOk = true →
      (lowerClass r stems t c).1 = t.run (callOperations r stems c)) := by
  by_cases hf : family r c = .simObject
  · obtain ⟨hiff, hrun⟩ := (t.withScope c.id).claimAll_succeeds c.id (classClaims r stems c)
    have hscope : t.step (.scope c.id) = (t.withScope c.id, .ok none) := rfl
    rw [callOperations_simObject hf, IdTable.succeeds_cons, hscope, ← hiff, IdTable.run,
      List.foldl_cons, hscope]
    rcases lowerClass_cases hf stems t with ⟨t', n, hc, hl⟩ | ⟨t', n, claimant, x, hc, hl⟩
    · rw [hc] at hrun ⊢
      rw [hl]
      exact ⟨iff_of_true rfl ⟨rfl, rfl⟩, fun _ => hrun rfl⟩
    · rw [hc, hl]
      simp [Except.isOk, Except.toBool]
  · obtain ⟨u, hu⟩ := lowerClass_other hf stems
    rw [hu, callOperations, if_neg hf]
    exact ⟨iff_of_true rfl (List.forall_mem_nil _), fun _ => rfl⟩

/-- Calls one after the other succeed iff the table grants all they ask. -/
theorem lowerEach_granted (r : Registry) (stems : Stems) (t : IdTable) (cs : List Classifier) :
    failuresOf (lowerEach r stems t cs) = [] ↔
      t.Succeeds (cs.flatMap (callOperations r stems)) := by
  induction cs generalizing t with
  | nil => exact iff_of_true rfl (List.forall_mem_nil _)
  | cons c cs ih =>
    obtain ⟨hiff, hrun⟩ := lowerClass_granted r stems t c
    rw [List.flatMap_cons, IdTable.succeeds_append, ← hiff, lowerEach, failuresOf,
      List.filterMap_cons]
    cases hl : lowerClass r stems t c with
    | mk t' answer =>
      rw [hl] at hrun
      cases answer with
      | error e => simp [Except.isOk, Except.toBool]
      | ok u =>
        rw [← hrun rfl]
        exact (ih t').trans (by simp [Except.isOk, Except.toBool])

/-- **Calls on a fresh table** all succeed iff the claims of their classes are compatible. -/
theorem lowerEach_succeeds_iff (r : Registry) (stems : Stems) (hash : String → UInt64)
    (cs : List Classifier) :
    failuresOf (lowerEach r stems { hash } cs) = [] ↔
      Compatible hash (cs.flatMap (keyClaims r stems)) := by
  have hclaims : (cs.flatMap (callOperations r stems)).filterMap IdOperation.keyClaim? =
      cs.flatMap (keyClaims r stems) := by
    rw [List.filterMap_flatMap]
    exact List.flatMap_congr fun c _ => filterMap_callOperations r stems c
  rw [lowerEach_granted, (IdTable.succeeds_iff hash _).1, hclaims]

/-- A batch that is not cancelled fails where a call for one of its classes does. -/
theorem lowerAll_failures (r : Registry) (stems : Stems) (ids : IdTable) :
    (lowerAll r stems ids .never).failures =
      failuresOf (lowerEach r stems ids (r.classifiers.filter isEligible)) := by
  obtain ⟨n, hstops, hcalls, -⟩ := Batch.run_stops r stems .never { ids } r.classifiers
  have hall : r.classifiers.length ≤ n := Nat.le_of_not_lt fun hn => by cases hstops.cancelled hn
  rw [lowerAll, hcalls.failures, List.take_of_length_le hall, List.nil_append]

namespace IdTable

/-- **Claims in any order** on a fresh table: all are granted in the given order iff they are in
    every order, namely iff distinct keys have distinct ids and no key of a class is claimed for two
    owners.  So it depends on no order whether a batch has a failure: it has none iff calls for its
    classes have none in any order, and iff the claims of its classes are granted in any order. -/
theorem claims_succeed_iff (hash : String → UInt64) (claims : List KeyClaim) :
    (Succeeds { hash } (claims.map KeyClaim.operation) ↔
      ∀ claims' : List KeyClaim, claims'.Perm claims →
        Succeeds { hash } (claims'.map KeyClaim.operation)) ∧
    (Succeeds { hash } (claims.map KeyClaim.operation) ↔ Compatible hash claims) ∧
    ∀ (r : Registry) (stems : Stems),
      (∀ cs : List Classifier, cs.Perm (r.classifiers.filter isEligible) →
        ((lowerAll r stems { hash } .never).failures = [] ↔
          failuresOf (lowerEach r stems { hash } cs) = [])) ∧
      (claims.Perm ((r.classifiers.filter isEligible).flatMap (keyClaims r stems)) →
        ((lowerAll r stems { hash } .never).failures = [] ↔
          Succeeds { hash } (claims.map KeyClaim.operation))) := by
  have hiff : ∀ claims, Succeeds { hash } (claims.map KeyClaim.operation) ↔
      Compatible hash claims := by
    intro claims
    rw [(succeeds_iff hash _).1, filterMap_operation]
  refine ⟨⟨fun h claims' hperm => ?_, fun h => h claims (.refl _)⟩, hiff claims,
    fun r stems => ⟨fun cs hperm => ?_, fun hperm => ?_⟩⟩
  · rw [hiff, compatible_perm hperm, ← hiff]
    exact h
  · rw [lowerAll_failures, lowerEach_succeeds_iff, lowerEach_succeeds_iff,
      compatible_perm (hperm.flatMap_right (keyClaims r stems))]
  · rw [lowerAll_failures, lowerEach_succeeds_iff, hiff, compatible_perm hperm]

end IdTable

end ObjectLowering.Lowering
