/-
  Claims, seen from the scope that they are made in.

  * `claim_agree`: what a claim reads is its own scope and, for a new key,
    another key that has its id (`blocker?`).
  * `claimAll_index`, `mem_claimAll_keys`, `snapshot_claimAll_iff`: what a run
    of claims leaves in the index, in its scope and in the snapshot.
  * `Within.claimAll_again`: where no two keys share an id, claims that are
    run again are answered as before and change nothing.
-/
import Mathlib.Data.Set.Operations
import ObjectLowering.Proofs.Lowering

namespace ObjectLowering.Lowering

namespace IdTable

variable {t t' u u' : IdTable} {e : IdEntry} {name key owner : String} {c : Collision}
  {claims : List (String × String)}

/-! ## What a claim reads -/

/-- Another key that has the id of `key`. -/
def blocker? (t : IdTable) (key : String) : Option String :=
  (t.index.lookup (t.hash key)).filter (· ≠ key)

/-- Why a claim is refused, if it is. -/
def refusal? (t : IdTable) (name key owner : String) : Option Collision :=
  match (t.scopeAt name).find key with
  | some e =>
    let holder := t.holder name key
    if owner ≠ "" ∧ holder ≠ "" ∧ holder ≠ owner then
      some { scope := name, id := e.id, key, existing := key, holder, claimant := owner }
    else none
  | none => (t.blocker? key).map fun existing =>
    { scope := name, id := t.hash key, key, existing }

theorem claim_eq_error :
    t.claim name key owner = .error c ↔ t.refusal? name key owner = some c := by
  have hs : (t.scope? name).getD { name } = t.scopeAt name := rfl
  simp only [claim, refusal?, blocker?, holder, hs]
  cases (t.scopeAt name).find key with
  | some e => by_cases hc : owner ≠ "" ∧ (t.scopeAt name).owner key ≠ "" ∧
      (t.scopeAt name).owner key ≠ owner <;> simp [hc]
  | none =>
    cases t.index.lookup (t.hash key) with
    | none => simp
    | some other => by_cases ho : other = key <;> simp [Option.filter, ho]

/-- A refusal is about the key that was claimed; a listed one is refused to another owner only. -/
theorem refusal?_eq_some (h : t.refusal? name key owner = some c) :
    c.key = key ∧ (key ∈ (t.scopeAt name).entries.map (·.key) → c.holder ≠ "") := by
  unfold refusal? at h
  cases hf : (t.scopeAt name).find key with
  | some e =>
    simp only [hf] at h
    split_ifs at h with ho
    rw [← Option.some.inj h]
    exact ⟨rfl, fun _ => ho.2.1⟩
  | none =>
    simp only [hf, Option.map_eq_some_iff] at h
    obtain ⟨existing, -, rfl⟩ := h
    exact ⟨rfl, fun hk => absurd hk (IdScope.find_eq_none.1 hf)⟩

theorem claim_of_refusal?_eq_none (h : t.refusal? name key owner = none) :
    ∃ t' e, t.claim name key owner = .ok (t', e) := by
  cases hc : t.claim name key owner with
  | ok p => exact ⟨p.1, p.2, rfl⟩
  | error c => rw [claim_eq_error.1 hc] at h; cases h

/-- A claim changes no other scope. -/
theorem claim_elsewhere (hc : t.claim name key owner = .ok (t', e)) {n : String} (hn : n ≠ name) :
    t'.scopeAt n = t.scopeAt n := by
  rcases claim_cases hc with ⟨-, -, -, hs⟩ | ⟨-, -, -, -, hs⟩
  · rw [hs.scopeAt, if_neg hn]
  · rw [hs.scopeAt, if_neg hn]

/-- Tables with one hash and the same scope of `name`. -/
structure Agree (t u : IdTable) (name : String) : Prop where
  hash : t.hash = u.hash
  scope : t.scopeAt name = u.scopeAt name

/-- **What a claim reads**: its scope and, for a new key, what blocks it. -/
theorem claim_agree (owner : String) (h : t.Agree u name)
    (hb : (t.scopeAt name).find key = none → t.blocker? key = u.blocker? key) :
    (∃ c, t.claim name key owner = .error c ∧ u.claim name key owner = .error c) ∨
    ∃ t' u' e, t.claim name key owner = .ok (t', e) ∧ u.claim name key owner = .ok (u', e) ∧
      t'.Agree u' name := by
  have hrefusal : t.refusal? name key owner = u.refusal? name key owner := by
    simp only [refusal?, holder, ← h.scope, ← h.hash]
    cases hf : (t.scopeAt name).find key with
    | some e => rfl
    | none => rw [hb hf]
  cases hr : t.refusal? name key owner with
  | some c => exact Or.inl ⟨c, claim_eq_error.2 hr, claim_eq_error.2 (hrefusal ▸ hr)⟩
  | none =>
    obtain ⟨t', e, ht⟩ := claim_of_refusal?_eq_none hr
    obtain ⟨u', e', hu⟩ := claim_of_refusal?_eq_none (hrefusal ▸ hr)
    have hash : t'.hash = u'.hash := by rw [claim_hash ht, claim_hash hu, h.hash]
    refine Or.inr ⟨t', u', e, ht, ?_⟩
    rcases claim_cases ht with ⟨hf, -, -, hs⟩ | ⟨hf, he, -, -, hs⟩ <;>
      rcases claim_cases hu with ⟨hf', -, -, hs'⟩ | ⟨hf', he', -, -, hs'⟩ <;>
      rw [← h.scope, hf] at hf'
    · obtain rfl := Option.some.inj hf'
      exact ⟨hu, hash, by rw [hs.scopeAt, hs'.scopeAt, h.scope]⟩
    · cases hf'
    · cases hf'
    · have hee : e = e' := by rw [he, he', h.hash]
      subst hee
      exact ⟨hu, hash, by rw [hs.scopeAt, hs'.scopeAt, h.scope]⟩

/-! ## Lists of claims -/

theorem claimAll_error (hc : t.claim name key owner = .error c) :
    t.claimAll name ((key, owner) :: claims) = (t, 0, some c) := by
  rw [claimAll, hc]

theorem claimAll_ok (hc : t.claim name key owner = .ok (t', e)) :
    t.claimAll name ((key, owner) :: claims) =
      ((t'.claimAll name claims).1, (t'.claimAll name claims).2.1 + 1,
        (t'.claimAll name claims).2.2) := by
  rw [claimAll, hc]

theorem claimAll_hash (t : IdTable) (name : String) (claims : List (String × String)) :
    (t.claimAll name claims).1.hash = t.hash := by
  obtain ⟨ops, hops⟩ := t.run_claimAll name claims
  rw [hops, run_hash]

theorem Valid.claimAll (h : t.Valid) (name : String) (claims : List (String × String)) :
    (t.claimAll name claims).1.Valid := by
  obtain ⟨ops, hops⟩ := t.run_claimAll name claims
  rw [hops]
  exact h.run ops

/-- What holds at the start and passes from a table to the next when a claim of the list is granted
    holds at the end. -/
theorem claimAll_induction {P : IdTable → Prop} (h : P t)
    (hstep : ∀ p ∈ claims, ∀ u u' e, P u → u.claim name p.1 p.2 = .ok (u', e) → P u') :
    P (t.claimAll name claims).1 := by
  induction claims generalizing t with
  | nil => exact h
  | cons p claims ih =>
    obtain ⟨key, owner⟩ := p
    cases hc : t.claim name key owner with
    | error c => rw [claimAll_error hc]; exact h
    | ok q =>
      obtain ⟨t₁, e⟩ := q
      rw [claimAll_ok hc]
      exact ih (hstep _ List.mem_cons_self t t₁ e h hc)
        fun p hp => hstep p (List.mem_cons_of_mem _ hp)

theorem claimAll_elsewhere (t : IdTable) (claims : List (String × String)) {n : String}
    (hn : n ≠ name) : (t.claimAll name claims).1.scopeAt n = t.scopeAt n :=
  claimAll_induction (P := fun u => u.scopeAt n = t.scopeAt n) rfl
    fun _ _ _ _ _ hu hc => (claim_elsewhere hc hn).trans hu

/-- Entries are added at the end. -/
theorem claimAll_entries (t : IdTable) (name : String) (claims : List (String × String)) :
    ∃ new, ((t.claimAll name claims).1.scopeAt name).entries = (t.scopeAt name).entries ++ new := by
  refine claimAll_induction
    (P := fun u => ∃ new, (u.scopeAt name).entries = (t.scopeAt name).entries ++ new)
    ⟨[], by simp⟩ ?_
  rintro p - u u' e ⟨new, hu⟩ hc
  rw [claim_entries hc, hu, List.append_assoc]
  exact ⟨_, rfl⟩

theorem claimAll_listed (t : IdTable) (claims : List (String × String)) {x : IdEntry}
    (hx : x ∈ (t.scopeAt name).entries) :
    x ∈ ((t.claimAll name claims).1.scopeAt name).entries := by
  obtain ⟨new, hnew⟩ := t.claimAll_entries name claims
  rw [hnew]
  exact List.mem_append_left _ hx

theorem claimAll_holder (t : IdTable) (claims : List (String × String)) {n k : String}
    (hk : t.holder n k ≠ "") : (t.claimAll name claims).1.holder n k = t.holder n k := by
  obtain ⟨ops, hops⟩ := t.run_claimAll name claims
  rw [hops, run_holder t ops hk]

theorem claimAll_names (claims : List (String × String)) (hn : name ∈ t.scopes.map (·.name)) :
    (t.claimAll name claims).1.scopes.map (·.name) = t.scopes.map (·.name) := by
  refine claimAll_induction (P := fun u => u.scopes.map (·.name) = t.scopes.map (·.name)) rfl ?_
  intro p _ u u' e hu hc
  rw [claim_names hc, names_withScope, if_pos (hu ▸ hn), hu]

/-- An id in the index keeps its key. -/
theorem claim_index_kept (h : t.Valid) (hc : t.claim name key owner = .ok (t', e)) {id : UInt64}
    {k : String} (hk : t.index.lookup id = some k) : t'.index.lookup id = some k := by
  rw [claim_index h hc]
  split_ifs with hid
  · rw [hid] at hk
    rw [claim_index_free h hc hk]
  · exact hk

theorem run_index_kept (h : t.Valid) (ops : List IdOperation) {id : UInt64} {k : String}
    (hk : t.index.lookup id = some k) : (t.run ops).index.lookup id = some k := by
  induction ops using List.reverseRecOn with
  | nil => exact hk
  | append_singleton ops op ih =>
    rw [run_concat]
    rcases (t.run ops).step_cases op with hs | ⟨c, hs⟩ | ⟨key, owner, t', e, hc, hs⟩ <;> rw [hs]
    · rw [withScope_index]; exact ih
    · exact ih
    · exact claim_index_kept (h.run ops) hc ih

/-- The index has what it had, and the entries of the scope. -/
theorem claimAll_index (h : t.Valid) {id : UInt64} {k : String} :
    (t.claimAll name claims).1.index.lookup id = some k ↔
      t.index.lookup id = some k ∨
        (⟨k, id⟩ : IdEntry) ∈ ((t.claimAll name claims).1.scopeAt name).entries := by
  have hvalid := h.claimAll name claims
  refine ⟨?_, fun hk => ?_⟩
  · induction claims generalizing t with
    | nil => exact Or.inl
    | cons p claims ih =>
      obtain ⟨key, owner⟩ := p
      cases hc : t.claim name key owner with
      | error c => rw [claimAll_error hc]; exact Or.inl
      | ok q =>
        obtain ⟨t₁, e⟩ := q
        rw [claimAll_ok hc] at hvalid ⊢
        intro hk
        rcases ih (h.claim hc) hvalid hk with hk | hk
        · rw [claim_index h hc] at hk
          split_ifs at hk with hid
          · right
            rw [← Option.some.inj hk, hid]
            exact claimAll_listed t₁ claims (claim_mem h hc)
          · exact Or.inl hk
        · exact Or.inr hk
  · rcases hk with hk | hk
    · obtain ⟨ops, hops⟩ := t.run_claimAll name claims
      rw [hops]
      exact run_index_kept h ops hk
    · exact hvalid.index name _ hk

/-- The keys of a scope after a run of claims: those before, and those of the claims that were
    granted. -/
theorem mem_claimAll_keys (h : t.Valid) {k : String} :
    k ∈ ((t.claimAll name claims).1.scopeAt name).entries.map (·.key) ↔
      k ∈ (t.scopeAt name).entries.map (·.key) ∨
        k ∈ (claims.take (t.claimAll name claims).2.1).map (·.1) := by
  induction claims generalizing t with
  | nil => simp [claimAll]
  | cons p claims ih =>
    obtain ⟨key, owner⟩ := p
    cases hc : t.claim name key owner with
    | error c => simp [claimAll_error hc]
    | ok q =>
      obtain ⟨t₁, e⟩ := q
      have hkeys : k ∈ (t₁.scopeAt name).entries.map (·.key) ↔
          k ∈ (t.scopeAt name).entries.map (·.key) ∨ k = key := by
        rw [claim_entries hc, List.map_append, List.mem_append]
        refine or_congr_right' fun hk => ?_
        rw [claim_entry h hc]
        by_cases hkey : k = key
        · simp [hkey, hkey ▸ hk]
        · split_ifs <;> simp [hkey]
      rw [claimAll_ok hc, ih (h.claim hc), hkeys, List.take_succ_cons, List.map_cons, List.mem_cons,
        or_assoc]

/-- The claim that was refused comes after those that were granted. -/
theorem claimAll_refused {c : Collision} (hc : (t.claimAll name claims).2.2 = some c) :
    (claims[(t.claimAll name claims).2.1]?).map (·.1) = some c.key := by
  induction claims generalizing t with
  | nil => cases hc
  | cons p claims ih =>
    obtain ⟨key, owner⟩ := p
    cases hp : t.claim name key owner with
    | error c' =>
      rw [claimAll_error hp] at hc ⊢
      obtain rfl := Option.some.inj hc
      rw [(refusal?_eq_some (claim_eq_error.1 hp)).1]
      rfl
    | ok q =>
      rw [claimAll_ok hp] at hc ⊢
      exact ih hc

/-- A listed key is refused to another owner only. -/
theorem holder_of_claimAll {c : Collision} (h : t.Valid)
    (hk : key ∈ (t.scopeAt name).entries.map (·.key))
    (hc : (t.claimAll name claims).2.2 = some c) (hck : c.key = key) : c.holder ≠ "" := by
  induction claims generalizing t with
  | nil => cases hc
  | cons p claims ih =>
    obtain ⟨key', owner⟩ := p
    cases hp : t.claim name key' owner with
    | error c' =>
      rw [claimAll_error hp] at hc
      obtain rfl := Option.some.inj hc
      obtain ⟨rfl, hholder⟩ := refusal?_eq_some (claim_eq_error.1 hp)
      exact hholder (hck ▸ hk)
    | ok q =>
      obtain ⟨t₁, e⟩ := q
      rw [claimAll_ok hp] at hc
      refine ih (h.claim hp) ?_ hc
      rw [claim_entries hp, List.map_append]
      exact List.mem_append_left _ hk

/-! ## Snapshots -/

/-- Snapshots by the names of the scopes. -/
theorem Valid.snapshot_eq (h : t.Valid) :
    t.snapshot = Data.entriesOf ((t.scopes.map (·.name)).map fun n =>
      (n, Data.entriesOf ((t.entries n).map fun e => (e.key, e.id)))) := by
  rw [snapshot, List.map_map]
  refine congrArg _ (List.map_congr_left fun s hs => ?_)
  rw [Function.comp_apply, entries_eq, h.scopeAt_of_mem hs]

/-- A snapshot has the names of all scopes. -/
theorem Valid.snapshot_lookup (h : t.Valid) :
    t.snapshot.lookup name ≠ none ↔ name ∈ t.scopes.map (·.name) := by
  rw [h.snapshot_eq, Option.ne_none_iff_exists']
  have hnodup : (((t.scopes.map (·.name)).map fun n =>
      (n, Data.entriesOf ((t.entries n).map fun e => (e.key, e.id)))).map (·.1)).Nodup := by
    rw [List.map_map]
    exact (List.map_id _).symm ▸ h.names
  simp only [Data.lookup_entriesOf_iff hnodup, List.mem_map (f := fun n => (n, _)), Prod.mk.injEq]
  constructor
  · rintro ⟨ids, n, hn, rfl, -⟩
    exact hn
  · exact fun hn => ⟨_, name, hn, rfl, rfl⟩

/-- A run of claims does not show in the snapshot iff their scope was there and got no entry. -/
theorem snapshot_claimAll_iff (h : t.Valid) :
    ((t.withScope name).claimAll name claims).1.snapshot = t.snapshot ↔
      t.scope? name ≠ none ∧
        ((t.withScope name).claimAll name claims).1.entries name = t.entries name := by
  have hvalid := (h.withScope name).claimAll name claims
  have hthere : name ∈ (t.withScope name).scopes.map (·.name) :=
    not_not.1 (scope?_eq_none.not.1 (t.scope?_withScope_ne_none name))
  have hnames := claimAll_names claims hthere
  obtain ⟨new, hnew⟩ := (t.withScope name).claimAll_entries name claims
  rw [scopeAt_withScope] at hnew
  constructor
  · intro hsnapshot
    refine ⟨fun hnone => ?_, ?_⟩
    · rw [← hnames, ← hvalid.snapshot_lookup, hsnapshot, h.snapshot_lookup] at hthere
      exact scope?_eq_none.1 hnone hthere
    · -- an entry that is new would have to be in the old snapshot
      have hold : ∀ e ∈ new, e ∈ (t.scopeAt name).entries := by
        intro e he
        have hshown := (hvalid.lookup_snapshot name e.key e.id).2
          (by rw [hnew]; exact List.mem_append_right _ he)
        rw [hsnapshot] at hshown
        exact (h.lookup_snapshot name e.key e.id).1 hshown
      have hkeys := hvalid.keys name
      rw [hnew, List.map_append] at hkeys
      have hnil : new = [] := List.eq_nil_iff_forall_not_mem.2 fun e he =>
        (List.nodup_append'.1 hkeys).2.2 (List.mem_map_of_mem (hold e he)) (List.mem_map_of_mem he)
      rw [entries_eq, entries_eq, hnew, hnil, List.append_nil]
  · rintro ⟨hscope, hentries⟩
    have hold : name ∈ t.scopes.map (·.name) := not_not.1 (scope?_eq_none.not.1 hscope)
    rw [hvalid.snapshot_eq, h.snapshot_eq, hnames, names_withScope, if_pos hold]
    refine congrArg _ (List.map_congr_left fun n _ => ?_)
    by_cases hn : n = name
    · rw [hn, hentries]
    · have helse := (t.withScope name).claimAll_elsewhere claims hn
      rw [scopeAt_withScope] at helse
      rw [entries_eq, entries_eq, helse]

/-! ## Claims without a clash of ids -/

/-- The ids in use are those of keys from `K`. -/
structure Within (t : IdTable) (K : Set String) : Prop where
  valid : t.Valid
  index : ∀ id key, t.index.lookup id = some key → key ∈ K ∧ id = t.hash key

section
variable {K : Set String} (hK : Set.InjOn t.hash K)

theorem within_empty (hash : String → UInt64) (K : Set String) : Within { hash } K :=
  ⟨valid_empty hash, fun _ _ h => by cases h⟩

/-- No other key is listed. -/
theorem Within.mem_of_entry (h : t.Within K) {e : IdEntry} (he : e ∈ t.entries name) :
    e.key ∈ K := by
  rw [entries_eq] at he
  exact (h.index e.id e.key (h.valid.index name e he)).1

theorem Within.withScope (h : t.Within K) (name : String) : (t.withScope name).Within K where
  valid := h.valid.withScope name
  index id key hk := by
    rw [withScope_index] at hk
    rw [withScope_hash]
    exact h.index id key hk

theorem Within.claim (h : t.Within K) (hk : key ∈ K) (hc : t.claim name key owner = .ok (t', e)) :
    t'.Within K where
  valid := h.valid.claim hc
  index id k hi := by
    rw [claim_index h.valid hc] at hi
    rw [claim_hash hc]
    split_ifs at hi with hid
    · rw [← Option.some.inj hi]; exact ⟨hk, hid⟩
    · exact h.index id k hi

theorem Within.claimAll (h : t.Within K) (hclaims : ∀ p ∈ claims, p.1 ∈ K) :
    (t.claimAll name claims).1.Within K :=
  claimAll_induction (P := fun u => u.Within K) h fun p hp _ _ _ hu hc => hu.claim (hclaims p hp) hc

include hK

theorem Within.blocker? (h : t.Within K) (hk : key ∈ K) : t.blocker? key = none := by
  rw [IdTable.blocker?, Option.filter_eq_none_iff]
  intro other ho
  obtain ⟨hother, hid⟩ := h.index _ _ ho
  simp [hK hk hother hid]

/-- Claims on tables that agree on their scope are answered alike. -/
theorem Within.claimAll_agree (ht : t.Within K) (hu : u.Within K) (h : t.Agree u name)
    (hclaims : ∀ p ∈ claims, p.1 ∈ K) :
    (t.claimAll name claims).2 = (u.claimAll name claims).2 ∧
      (t.claimAll name claims).1.Agree (u.claimAll name claims).1 name := by
  induction claims generalizing t u with
  | nil => exact ⟨rfl, h⟩
  | cons p claims ih =>
    obtain ⟨key, owner⟩ := p
    have hk : key ∈ K := hclaims _ List.mem_cons_self
    have hb : t.blocker? key = u.blocker? key := by
      rw [ht.blocker? hK hk, hu.blocker? (h.hash ▸ hK) hk]
    rcases claim_agree owner h fun _ => hb with
      ⟨c, hct, hcu⟩ | ⟨t', u', e, hct, hcu, h'⟩
    · rw [claimAll_error hct, claimAll_error hcu]
      exact ⟨rfl, h⟩
    · rw [claimAll_ok hct, claimAll_ok hcu]
      obtain ⟨hanswer, hagree⟩ := ih (t := t') (u := u') (claim_hash hct ▸ hK) (ht.claim hk hct)
        (hu.claim hk hcu) h' fun p hp => hclaims p (List.mem_cons_of_mem _ hp)
      exact ⟨by rw [hanswer], hagree⟩

end

/-- A claim that was granted is granted again, and nothing changes. -/
theorem claim_again (hk : key ∈ (t.scopeAt name).entries.map (·.key))
    (ho : owner ≠ "" → t.holder name key = owner) :
    ∃ t' e, t.claim name key owner = .ok (t', e) ∧ ∀ n, t'.scopeAt n = t.scopeAt n := by
  obtain ⟨e, hf⟩ := Option.ne_none_iff_exists'.1 (mt IdScope.find_eq_none.1 (not_not.2 hk))
  have hrefusal : t.refusal? name key owner = none := by
    simp only [refusal?, hf]
    exact if_neg fun h => h.2.2 (ho h.1)
  obtain ⟨t', e', hc⟩ := claim_of_refusal?_eq_none hrefusal
  refine ⟨t', e', hc, fun n => ?_⟩
  rcases claim_cases hc with ⟨-, -, -, hs⟩ | ⟨hf', -⟩
  · rw [hs.scopeAt]
    split_ifs with hn
    · rw [hn, IdScope.own, if_neg]
      rintro ⟨hne, hnone⟩
      exact hne ((ho hne).symm.trans hnone)
    · rfl
  · rw [hf] at hf'; cases hf'

/-- **Claims run again** in the scope that they left are answered as before, and nothing changes. -/
theorem Within.claimAll_again {K : Set String} (hK : Set.InjOn t.hash K) (ht : t.Within K)
    (hu : u.Within K) (h : (t.claimAll name claims).1.Agree u name)
    (hclaims : ∀ p ∈ claims, p.1 ∈ K) :
    (u.claimAll name claims).2 = (t.claimAll name claims).2 ∧
      ∀ n, (u.claimAll name claims).1.scopeAt n = u.scopeAt n := by
  induction claims generalizing t u with
  | nil => exact ⟨rfl, fun _ => rfl⟩
  | cons p claims ih =>
    obtain ⟨key, owner⟩ := p
    have hkey : key ∈ K := hclaims _ List.mem_cons_self
    cases hct : t.claim name key owner with
    | error c =>
      rw [claimAll_error hct] at h ⊢
      have hb : t.blocker? key = u.blocker? key := by
        rw [ht.blocker? hK hkey, hu.blocker? (h.hash ▸ hK) hkey]
      rcases claim_agree owner h fun _ => hb with ⟨c', hct', hcu⟩ | ⟨t', -, e, hct', -⟩
      · rw [hct] at hct'
        rw [claimAll_error hcu, Except.error.inj hct']
        exact ⟨rfl, fun _ => rfl⟩
      · rw [hct] at hct'; cases hct'
    | ok q =>
      -- `u` has the key, and its holder, from the run on `t`
      obtain ⟨t₁, e⟩ := q
      rw [claimAll_ok hct] at h ⊢
      have hlisted : key ∈ (u.scopeAt name).entries.map (·.key) := by
        rw [← h.scope]
        exact List.mem_map.2 ⟨_, claimAll_listed t₁ claims (claim_mem ht.valid hct), rfl⟩
      have howner : owner ≠ "" → u.holder name key = owner := by
        intro hne
        have hheld := claim_owner hct hne ht.valid
        rw [holder, ← h.scope]
        exact (claimAll_holder t₁ claims (hheld ▸ hne)).trans hheld
      obtain ⟨u₁, e', hcu, hsame⟩ := claim_again hlisted howner
      have hagree : (t₁.claimAll name claims).1.Agree u₁ name :=
        ⟨by rw [h.hash, claim_hash hcu], by rw [h.scope, hsame]⟩
      obtain ⟨hanswer, hscopes⟩ := ih (claim_hash hct ▸ hK) (ht.claim hkey hct)
        (hu.claim hkey hcu) hagree fun p hp => hclaims p (List.mem_cons_of_mem _ hp)
      rw [claimAll_ok hcu]
      exact ⟨by rw [hanswer], fun n => (hscopes n).trans (hsame n)⟩

end IdTable
end ObjectLowering.Lowering
