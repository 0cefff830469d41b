/-
  Runs of the id table.

  A table is looked at through `scope?`, its index and its hash; `claim_cases`
  says all that a granted claim can do to these.

  * `Valid` is what every run keeps: ids are hashes, the index knows the key
    of every id, no scope lists a key twice, owners belong to listed keys.
  * `run_report`: the table after any history of operations.
-/
import Mathlib.Data.List.Induction
import Mathlib.Data.List.Nodup
import ObjectLowering.Lowering.IdTable
import ObjectLowering.Proofs.Entries

namespace ObjectLowering

namespace Lowering

/-! ## Scopes -/

namespace IdScope

@[simp] theorem own_name (s : IdScope) (key owner : String) : (s.own key owner).name = s.name := by
  unfold own; split <;> rfl

@[simp] theorem own_entries (s : IdScope) (key owner : String) :
    (s.own key owner).entries = s.entries := by
  unfold own; split <;> rfl

/-- Only a key without an owner gets one. -/
theorem owner_own (s : IdScope) (key owner k : String) :
    (s.own key owner).owner k = if k = key ∧ s.owner key = "" then owner else s.owner k := by
  unfold own
  by_cases ho : owner ≠ "" ∧ s.owner key = ""
  · rw [if_pos ho, IdScope.owner, lookup_cons_ite]
    by_cases hk : k = key
    · rw [if_pos hk, if_pos ⟨hk, ho.2⟩]; rfl
    · rw [if_neg hk, if_neg fun h => hk h.1]; rfl
  · rw [if_neg ho]
    by_cases hk : k = key ∧ s.owner key = ""
    · have : owner = "" := not_not.1 fun h => ho ⟨h, hk.2⟩
      rw [if_pos hk, this, hk.1, hk.2]
    · rw [if_neg hk]

theorem find_eq_some {s : IdScope} {key : String} {e : IdEntry} (h : s.find key = some e) :
    e ∈ s.entries ∧ e.key = key :=
  ⟨List.mem_of_find?_eq_some h, by simpa using List.find?_some h⟩

theorem find_eq_none {s : IdScope} {key : String} :
    s.find key = none ↔ key ∉ s.entries.map (·.key) := by
  simp [find]

end IdScope

namespace IdTable

variable {t t' : IdTable} {s : IdScope} {e : IdEntry} {name key owner : String}

/-! ## The view of a table -/

/-- The scope of a class, an empty one if it has none. -/
def scopeAt (t : IdTable) (name : String) : IdScope := (t.scope? name).getD { name }

/-- The owner of a key in the scope of a class, empty if none is known. -/
def holder (t : IdTable) (name key : String) : String := (t.scopeAt name).owner key

theorem scope?_name (h : t.scope? name = some s) : s.name = name := by
  simpa using List.find?_some h

@[simp] theorem scopeAt_name (t : IdTable) (name : String) : (t.scopeAt name).name = name := by
  unfold scopeAt
  cases h : t.scope? name with
  | none => rfl
  | some s => exact scope?_name h

theorem entries_eq (t : IdTable) (name : String) : t.entries name = (t.scopeAt name).entries := by
  unfold entries scopeAt
  cases t.scope? name <;> rfl

theorem scope?_eq_none : t.scope? name = none ↔ name ∉ t.scopes.map (·.name) := by
  simp [scope?]

@[simp] theorem scopeAt_withScope (t : IdTable) (name n : String) :
    (t.withScope name).scopeAt n = t.scopeAt n := by
  unfold withScope
  cases h : t.scope? name with
  | some s => rfl
  | none =>
    simp only [scopeAt, scope?, List.find?_append]
    cases h' : t.scopes.find? (fun x => x.name == n) with
    | some s => rfl
    | none => by_cases hn : name = n <;> simp [hn]

theorem names_withScope (t : IdTable) (name : String) :
    (t.withScope name).scopes.map (·.name) =
      if name ∈ t.scopes.map (·.name) then t.scopes.map (·.name)
      else t.scopes.map (·.name) ++ [name] := by
  unfold withScope
  cases h : t.scope? name with
  | none => rw [if_neg (scope?_eq_none.1 h), List.map_append]; rfl
  | some s =>
    have hm : name ∈ t.scopes.map (·.name) := not_not.1 fun hn => by
      rw [scope?_eq_none.2 hn] at h; simp at h
    rw [if_pos hm]

theorem names_setScope (t : IdTable) (s : IdScope) :
    (t.setScope s).scopes.map (·.name) = (t.withScope s.name).scopes.map (·.name) := by
  simp only [setScope, List.map_map]
  refine List.map_congr_left fun x _ => ?_
  by_cases h : x.name = s.name <;> simp [h]

theorem scope?_withScope_ne_none (t : IdTable) (name : String) :
    (t.withScope name).scope? name ≠ none := by
  rw [Ne, scope?_eq_none, names_withScope, not_not]
  split_ifs with h
  · exact h
  · simp

theorem scopeAt_setScope (t : IdTable) (s : IdScope) (n : String) :
    (t.setScope s).scopeAt n = if n = s.name then s else t.scopeAt n := by
  have hfind : (t.setScope s).scope? n =
      ((t.withScope s.name).scope? n).map fun x => if x.name = s.name then s else x := by
    simp only [setScope, scope?, List.find?_map]
    congr 2
    funext x
    by_cases h : x.name = s.name <;> simp [h]
  rw [scopeAt, hfind]
  by_cases h : n = s.name
  · subst h
    obtain ⟨x, hx⟩ := Option.ne_none_iff_exists'.1 (t.scope?_withScope_ne_none s.name)
    simp [hx, scope?_name hx]
  · rw [if_neg h, ← t.scopeAt_withScope s.name n, scopeAt]
    cases hx : (t.withScope s.name).scope? n with
    | none => rfl
    | some x => simp [scope?_name hx, h]

/-! ## Claims -/

@[simp] theorem withScope_hash (t : IdTable) (name : String) :
    (t.withScope name).hash = t.hash := by
  unfold withScope; split <;> rfl

@[simp] theorem withScope_index (t : IdTable) (name : String) :
    (t.withScope name).index = t.index := by
  unfold withScope; split <;> rfl

@[simp] theorem setScope_hash (t : IdTable) (s : IdScope) : (t.setScope s).hash = t.hash :=
  t.withScope_hash s.name

@[simp] theorem setScope_index (t : IdTable) (s : IdScope) : (t.setScope s).index = t.index :=
  t.withScope_index s.name

/-- The scope of `name` becomes `s` and all else stays. -/
structure Enters (t t' : IdTable) (name : String) (s : IdScope) : Prop where
  hash : t'.hash = t.hash
  names : t'.scopes.map (·.name) = (t.withScope name).scopes.map (·.name)
  scopeAt : ∀ n, t'.scopeAt n = if n = name then s else t.scopeAt n

theorem enters_setScope (t : IdTable) {s : IdScope} (hs : s.name = name)
    (index : List (UInt64 × String)) : t.Enters { t.setScope s with index } name s where
  hash := t.setScope_hash s
  names := hs ▸ t.names_setScope s
  scopeAt n := hs ▸ t.scopeAt_setScope s n

theorem Enters.holder (hs : t.Enters t' name (s.own key owner))
    (ho : ∀ k, s.owner k = (t.scopeAt name).owner k) (n k : String) :
    t'.holder n k = if n = name ∧ k = key ∧ t.holder name key = "" then owner
      else t.holder n k := by
  rw [IdTable.holder, hs.scopeAt]
  by_cases hn : n = name
  · rw [if_pos hn, IdScope.owner_own, ho, ho, hn]
    simp only [IdTable.holder, true_and]
  · rw [if_neg hn, if_neg fun hn' => hn hn'.1, IdTable.holder]

/-- All that a granted claim can do: the key is listed and at most gets an owner, or it is new and
    its id is free or its own. -/
theorem claim_cases (h : t.claim name key owner = .ok (t', e)) :
    ((t.scopeAt name).find key = some e ∧
      (owner = "" ∨ t.holder name key = "" ∨ t.holder name key = owner) ∧
      t'.index = t.index ∧ t.Enters t' name ((t.scopeAt name).own key owner)) ∨
    ((t.scopeAt name).find key = none ∧ e = ⟨key, t.hash key⟩ ∧
      (∀ other, t.index.lookup e.id = some other → other = key) ∧
      (∀ id, t'.index.lookup id = if id = e.id then some key else t.index.lookup id) ∧
      t.Enters t' name
        ({ t.scopeAt name with entries := (t.scopeAt name).entries ++ [e] }.own key owner)) := by
  have hs : (t.scope? name).getD { name } = t.scopeAt name := rfl
  simp only [claim, hs] at h
  cases hf : (t.scopeAt name).find key with
  | some e' =>
    simp only [hf] at h
    split_ifs at h with hc
    simp only [Except.ok.injEq, Prod.mk.injEq] at h
    obtain ⟨rfl, rfl⟩ := h
    refine Or.inl ⟨rfl, ?_, t.setScope_index _, t.enters_setScope (by simp) _⟩
    rw [holder]
    tauto
  | none =>
    simp only [hf] at h
    refine Or.inr ⟨rfl, ?_⟩
    cases hl : t.index.lookup (t.hash key) with
    | some other =>
      simp only [hl] at h
      split_ifs at h with hc
      simp only [Except.ok.injEq, Prod.mk.injEq] at h
      obtain ⟨rfl, rfl⟩ := h
      rw [ne_eq, not_not] at hc
      refine ⟨rfl, fun o ho => ?_, fun id => ?_, t.enters_setScope (by simp) _⟩
      · rw [hl] at ho; rw [← hc]; exact (Option.some.inj ho).symm
      · rw [setScope_index]
        by_cases hid : id = t.hash key
        · rw [if_pos hid, hid, hl, hc]
        · rw [if_neg hid]
    | none =>
      simp only [hl, Except.ok.injEq, Prod.mk.injEq] at h
      obtain ⟨rfl, rfl⟩ := h
      refine ⟨rfl, fun o ho => ?_, fun id => lookup_cons_ite _ _ _ _, t.enters_setScope (by simp) _⟩
      rw [hl] at ho; simp at ho

/-! ## What every run keeps -/

/-- The table is consistent: ids are hashes, the index has the key of every id, no scope lists a key
    twice, and only listed keys have owners. -/
structure Valid (t : IdTable) : Prop where
  names : (t.scopes.map (·.name)).Nodup
  ids : ∀ name, ∀ e ∈ (t.scopeAt name).entries, e.id = t.hash e.key
  index : ∀ name, ∀ e ∈ (t.scopeAt name).entries, t.index.lookup e.id = some e.key
  keys : ∀ name, ((t.scopeAt name).entries.map (·.key)).Nodup
  owners : ∀ name key, t.holder name key ≠ "" → key ∈ (t.scopeAt name).entries.map (·.key)

theorem valid_empty (hash : String → UInt64) : Valid { hash } where
  names := List.nodup_nil
  ids _ _ h := by cases h
  index _ _ h := by cases h
  keys _ := List.nodup_nil
  owners _ _ h := absurd rfl h

theorem names_withScope_nodup (h : (t.scopes.map (·.name)).Nodup) (name : String) :
    ((t.withScope name).scopes.map (·.name)).Nodup := by
  rw [names_withScope]
  split_ifs with hn
  · exact h
  · rw [List.nodup_append_comm]; exact List.nodup_cons.2 ⟨hn, h⟩

theorem Valid.withScope (h : t.Valid) (name : String) : (t.withScope name).Valid where
  names := names_withScope_nodup h.names name
  ids n e he := by simp only [scopeAt_withScope] at he; rw [withScope_hash]; exact h.ids n e he
  index n e he := by simp only [scopeAt_withScope] at he; rw [withScope_index]; exact h.index n e he
  keys n := by rw [scopeAt_withScope]; exact h.keys n
  owners n k hk := by
    simp only [holder, scopeAt_withScope] at hk ⊢
    exact h.owners n k hk

section
variable (h : t.Valid) (hc : t.claim name key owner = .ok (t', e))
include hc

theorem claim_hash : t'.hash = t.hash := by
  rcases claim_cases hc with ⟨-, -, -, hs⟩ | ⟨-, -, -, -, hs⟩ <;> exact hs.hash

theorem claim_names : t'.scopes.map (·.name) = (t.withScope name).scopes.map (·.name) := by
  rcases claim_cases hc with ⟨-, -, -, hs⟩ | ⟨-, -, -, -, hs⟩ <;> exact hs.names

/-- The key is entered at the end of its scope if it is new there. -/
theorem claim_entries (n : String) :
    (t'.scopeAt n).entries = (t.scopeAt n).entries ++
      if n = name ∧ key ∉ (t.scopeAt name).entries.map (·.key) then [e] else [] := by
  rcases claim_cases hc with ⟨hf, -, -, hs⟩ | ⟨hf, -, -, -, hs⟩
  · have hk : key ∈ (t.scopeAt name).entries.map (·.key) :=
      List.mem_map.2 ⟨e, IdScope.find_eq_some hf⟩
    rw [if_neg fun hn => hn.2 hk, List.append_nil, hs.scopeAt]
    split_ifs with hn
    · rw [IdScope.own_entries, hn]
    · rfl
  · rw [hs.scopeAt]
    have hk := IdScope.find_eq_none.1 hf
    by_cases hn : n = name
    · rw [if_pos hn, if_pos ⟨hn, hk⟩, IdScope.own_entries, hn]
    · rw [if_neg hn, if_neg fun hn' => hn hn'.1, List.append_nil]

/-- The owner is recorded if the key had none. -/
theorem claim_holder (n k : String) :
    t'.holder n k = if n = name ∧ k = key ∧ t.holder name key = "" then owner
      else t.holder n k := by
  rcases claim_cases hc with ⟨-, -, -, hs⟩ | ⟨-, -, -, -, hs⟩
  · exact hs.holder (fun _ => rfl) n k
  · exact hs.holder (fun _ => rfl) n k

/-- A claim is granted to the owner on record only. -/
theorem claim_owner (ho : owner ≠ "") (h : t.Valid) : t'.holder name key = owner := by
  rw [claim_holder hc]
  by_cases hn : t.holder name key = ""
  · rw [if_pos ⟨rfl, rfl, hn⟩]
  · rw [if_neg fun hn' => hn hn'.2.2]
    rcases claim_cases hc with ⟨-, hh, -⟩ | ⟨hf, -⟩
    · tauto
    · exact absurd (h.owners name key hn) (IdScope.find_eq_none.1 hf)

include h

theorem claim_entry : e = ⟨key, t.hash key⟩ := by
  rcases claim_cases hc with ⟨hf, -⟩ | ⟨-, he, -⟩
  · obtain ⟨hm, hk⟩ := IdScope.find_eq_some hf
    rw [← hk, ← h.ids name e hm]
  · exact he

/-- The index leads from the id to the key, and stays as it is elsewhere. -/
theorem claim_index (id : UInt64) :
    t'.index.lookup id = if id = t.hash key then some key else t.index.lookup id := by
  rcases claim_cases hc with ⟨hf, -, hi, -⟩ | ⟨-, he, -, hi, -⟩
  · obtain ⟨hm, hk⟩ := IdScope.find_eq_some hf
    rw [hi]
    split_ifs with hid
    · rw [hid, ← hk, ← h.ids name e hm]; exact h.index name e hm
    · rfl
  · rw [hi, he]

/-- No other key had the id. -/
theorem claim_index_free {other : String} (ho : t.index.lookup (t.hash key) = some other) :
    other = key := by
  rcases claim_cases hc with ⟨hf, -, -, -⟩ | ⟨-, he, hi, -⟩
  · obtain ⟨hm, hk⟩ := IdScope.find_eq_some hf
    have := h.index name e hm
    rw [h.ids name e hm, hk, ho] at this
    exact Option.some.inj this
  · rw [he] at hi; exact hi other ho

theorem mem_claim_entries {n : String} {x : IdEntry} (hx : x ∈ (t'.scopeAt n).entries) :
    x ∈ (t.scopeAt n).entries ∨ (n = name ∧ x = ⟨key, t.hash key⟩) := by
  rw [claim_entries hc, List.mem_append] at hx
  rcases hx with hx | hx
  · exact Or.inl hx
  · split_ifs at hx with hn
    · exact Or.inr ⟨hn.1, (List.mem_singleton.1 hx).trans (claim_entry h hc)⟩
    · cases hx

/-- The claimed key is listed. -/
theorem claim_mem : (⟨key, t.hash key⟩ : IdEntry) ∈ (t'.scopeAt name).entries := by
  rw [← claim_entry h hc, claim_entries hc]
  by_cases hk : key ∈ (t.scopeAt name).entries.map (·.key)
  · obtain ⟨x, hx, rfl⟩ := List.mem_map.1 hk
    rw [claim_entry h hc, ← h.ids name x hx]
    exact List.mem_append_left _ hx
  · rw [if_pos ⟨rfl, hk⟩]; simp

theorem Valid.claim : t'.Valid where
  names := claim_names hc ▸ names_withScope_nodup h.names name
  ids n x hx := by
    rw [claim_hash hc]
    rcases mem_claim_entries h hc hx with hx | ⟨-, rfl⟩
    · exact h.ids n x hx
    · rfl
  index n x hx := by
    rw [claim_index h hc]
    rcases mem_claim_entries h hc hx with hx | ⟨-, rfl⟩
    · split_ifs with hid
      -- the id of a listed key is in the index, so it was not free for another key
      · have hi := h.index n x hx
        rw [hid] at hi
        rw [claim_index_free h hc hi]
      · exact h.index n x hx
    · exact if_pos rfl
  keys n := by
    rw [claim_entries hc]
    split_ifs with hn
    · rw [List.map_append, List.nodup_append_comm, hn.1, claim_entry h hc]
      exact List.nodup_cons.2 ⟨hn.2, h.keys name⟩
    · rw [List.append_nil]; exact h.keys n
  owners n k hk := by
    rw [claim_holder hc] at hk
    split_ifs at hk with hn
    · rw [hn.1, hn.2.1]
      exact List.mem_map.2 ⟨_, claim_mem h hc, rfl⟩
    · rw [claim_entries hc, List.map_append]
      exact List.mem_append_left _ (h.owners n k hk)

end

/-! ## Lists of claims -/

/-- What holds once all claims of a list are granted. -/
structure Granted (t t' : IdTable) (name : String) (claims : List (String × String)) : Prop where
  valid : t'.Valid
  hash : t'.hash = t.hash
  entries : (t.scopeAt name).entries ⊆ (t'.scopeAt name).entries
  holders : ∀ key, t.holder name key ≠ "" → t'.holder name key = t.holder name key
  listed : ∀ p ∈ claims, (⟨p.1, t.hash p.1⟩ : IdEntry) ∈ (t'.scopeAt name).entries
  owned : ∀ p ∈ claims, p.2 ≠ "" → t'.holder name p.1 = p.2

theorem claimAll_granted {claims : List (String × String)} {n : Nat} (h : t.Valid)
    (hc : t.claimAll name claims = (t', n, none)) : t.Granted t' name claims := by
  induction claims generalizing t n with
  | nil =>
    obtain ⟨rfl, -⟩ := Prod.mk.inj hc
    exact ⟨h, rfl, fun _ he => he, fun _ _ => rfl, by simp, by simp⟩
  | cons p claims ih =>
    obtain ⟨key, owner⟩ := p
    rw [claimAll] at hc
    cases hp : t.claim name key owner with
    | error c => simp [hp] at hc
    | ok q =>
      obtain ⟨t₁, e⟩ := q
      simp only [hp, Prod.mk.injEq] at hc
      have h₁ := h.claim hp
      have ih := ih h₁ (n := (t₁.claimAll name claims).2.1) (Prod.ext hc.1 (Prod.ext rfl hc.2.2))
      have hash₁ := claim_hash hp
      have holders₁ : ∀ k, t.holder name k ≠ "" → t₁.holder name k = t.holder name k := by
        intro k hk
        rw [claim_holder hp, if_neg]
        rintro ⟨-, rfl, hn⟩
        exact hk hn
      refine ⟨ih.valid, ih.hash.trans hash₁, fun x hx => ih.entries ?_, fun k hk => ?_, ?_, ?_⟩
      · rw [claim_entries hp]; exact List.mem_append_left _ hx
      · rw [ih.holders k (holders₁ k hk ▸ hk), holders₁ k hk]
      · intro q hq
        rcases List.mem_cons.1 hq with rfl | hq
        · exact ih.entries (claim_mem h hp)
        · rw [← hash₁]; exact ih.listed q hq
      · intro q hq ho
        rcases List.mem_cons.1 hq with rfl | hq
        · have hown := claim_owner hp ho h
          rw [ih.holders key (hown ▸ ho), hown]
        · exact ih.owned q hq ho

/-- Granted claims of one key have one owner. -/
theorem Granted.owner_eq {claims : List (String × String)} (h : t.Granted t' name claims)
    {o o' : String} (ho : (key, o) ∈ claims) (ho' : (key, o') ∈ claims) (hne : o ≠ "")
    (hne' : o' ≠ "") : o = o' :=
  (h.owned _ ho hne).symm.trans (h.owned _ ho' hne')

/-! ## Operations and runs -/

end IdTable

/-- The operations on a table; all but the first are about a key in the scope of a class. -/
inductive IdOperation where
  | scope (name : String)
  | allocate (name stem part : String)
  | allocateKey (name key : String)
  | claim (name key owner : String)
deriving DecidableEq, Repr

/-- The class whose scope an operation is about. -/
def IdOperation.scopeName : IdOperation → String
  | .scope name | .allocate name _ _ | .allocateKey name _ | .claim name _ _ => name

namespace IdTable

variable {t t' : IdTable} {e : IdEntry} {name key : String}

/-- The table after an attempt to claim, with the entry or the refusal. -/
def attempt (t : IdTable) :
    Except Collision (IdTable × IdEntry) → IdTable × Except Collision (Option IdEntry)
  | .ok (t', e) => (t', .ok (some e))
  | .error c => (t, .error c)

/-- One operation: the table after it and the answer. -/
def step (t : IdTable) : IdOperation → IdTable × Except Collision (Option IdEntry)
  | .scope name => (t.withScope name, .ok none)
  | .allocate name stem part => t.attempt (t.allocate name stem part)
  | .allocateKey name key => t.attempt (t.allocateKey name key)
  | .claim name key owner => t.attempt (t.claim name key owner)

/-- The table after operations, whether they succeed or not. -/
def run (t : IdTable) (ops : List IdOperation) : IdTable := ops.foldl (fun t op => (t.step op).1) t

/-- The key that an operation was granted in the scope of `name`. -/
def granted (t : IdTable) (name : String) (op : IdOperation) : List String :=
  match (t.step op).2 with
  | .ok (some e) => if op.scopeName = name then [e.key] else []
  | _ => []

/-- The keys that operations were granted in the scope of `name`, in order. -/
def grants (t : IdTable) (name : String) : List IdOperation → List String
  | [] => []
  | op :: ops => t.granted name op ++ (t.step op).1.grants name ops

theorem run_append (t : IdTable) (ops ops' : List IdOperation) :
    t.run (ops ++ ops') = (t.run ops).run ops' := List.foldl_append

theorem run_concat (t : IdTable) (ops : List IdOperation) (op : IdOperation) :
    t.run (ops ++ [op]) = ((t.run ops).step op).1 := t.run_append ops [op]

theorem grants_concat (t : IdTable) (name : String) (ops : List IdOperation) (op : IdOperation) :
    t.grants name (ops ++ [op]) = t.grants name ops ++ (t.run ops).granted name op := by
  induction ops generalizing t with
  | nil => simp [grants, run]
  | cons o ops ih =>
    rw [List.cons_append, grants, ih, grants, List.append_assoc]
    rfl

/-- All that an operation can do: make a scope, have a claim refused, or have one granted. -/
theorem step_cases (t : IdTable) (op : IdOperation) :
    t.step op = (t.withScope op.scopeName, .ok none) ∨
    (∃ c, t.step op = (t, .error c)) ∨
    ∃ key owner t' e, t.claim op.scopeName key owner = .ok (t', e) ∧
      t.step op = (t', .ok (some e)) := by
  have attempt_cases : ∀ name key owner, (∃ c, t.attempt (t.claim name key owner) = (t, .error c)) ∨
      ∃ key' owner' t' e, t.claim name key' owner' = .ok (t', e) ∧
        t.attempt (t.claim name key owner) = (t', .ok (some e)) := by
    intro name key owner
    cases h : t.claim name key owner with
    | error c => exact Or.inl ⟨c, rfl⟩
    | ok p => exact Or.inr ⟨key, owner, p.1, p.2, h, rfl⟩
  cases op with
  | scope name => exact Or.inl rfl
  | allocate name stem part => exact Or.inr (attempt_cases name (keyOf stem part) "")
  | allocateKey name key => exact Or.inr (attempt_cases name key "")
  | claim name key owner => exact Or.inr (attempt_cases name key owner)

theorem step_hash (t : IdTable) (op : IdOperation) : (t.step op).1.hash = t.hash := by
  rcases t.step_cases op with h | ⟨c, h⟩ | ⟨key, owner, t', e, hc, h⟩ <;> rw [h]
  · exact t.withScope_hash _
  · exact claim_hash hc

theorem Valid.step (h : t.Valid) (op : IdOperation) : (t.step op).1.Valid := by
  rcases t.step_cases op with hs | ⟨c, hs⟩ | ⟨key, owner, t', e, hc, hs⟩ <;> rw [hs]
  · exact h.withScope _
  · exact h
  · exact h.claim hc

/-- An owner on record stays. -/
theorem step_holder (t : IdTable) (op : IdOperation) (hk : t.holder name key ≠ "") :
    (t.step op).1.holder name key = t.holder name key := by
  rcases t.step_cases op with h | ⟨c, h⟩ | ⟨key', owner, t', e, hc, h⟩ <;> rw [h]
  · simp only [holder, scopeAt_withScope]
  · simp only [claim_holder hc]
    rw [if_neg]
    rintro ⟨rfl, rfl, hn⟩
    exact hk hn

theorem granted_cases (t : IdTable) (name : String) (op : IdOperation) :
    t.granted name op = [] ∨ ∃ key, t.granted name op = [key] := by
  unfold granted
  split
  · split_ifs
    · exact Or.inr ⟨_, rfl⟩
    · exact Or.inl rfl
  · exact Or.inl rfl

/-- A scope lists a granted key at its end, unless it did before. -/
theorem step_keys (h : t.Valid) (op : IdOperation) (name : String) :
    (((t.step op).1.scopeAt name).entries.map (·.key)) =
      (t.scopeAt name).entries.map (·.key) ++
        (t.granted name op).filter (· ∉ (t.scopeAt name).entries.map (·.key)) := by
  rcases t.step_cases op with hs | ⟨c, hs⟩ | ⟨key, owner, t', e, hc, hs⟩ <;>
    simp only [granted, hs]
  · simp
  · simp
  · have he : e.key = key := by rw [claim_entry h hc]
    rw [claim_entries hc, List.map_append, List.append_cancel_left_eq, he]
    by_cases hn : op.scopeName = name
    · rw [if_pos hn, ← hn, List.filter_singleton]
      by_cases hk : key ∈ (t.scopeAt op.scopeName).entries.map (·.key)
      · rw [if_neg fun hk' => hk'.2 hk]; simp [hk]
      · rw [if_pos ⟨rfl, hk⟩]; simp [hk, he]
    · rw [if_neg hn, if_neg fun hk => hn hk.1.symm]; rfl

theorem run_hash (t : IdTable) (ops : List IdOperation) : (t.run ops).hash = t.hash := by
  induction ops using List.reverseRecOn with
  | nil => rfl
  | append_singleton ops op ih => rw [run_concat, step_hash, ih]

theorem Valid.run (h : t.Valid) (ops : List IdOperation) : (t.run ops).Valid := by
  induction ops using List.reverseRecOn with
  | nil => exact h
  | append_singleton ops op ih => rw [run_concat]; exact ih.step op

theorem run_holder (t : IdTable) (ops : List IdOperation) (hk : t.holder name key ≠ "") :
    (t.run ops).holder name key = t.holder name key := by
  induction ops using List.reverseRecOn with
  | nil => rfl
  | append_singleton ops op ih => rw [run_concat, step_holder _ _ (ih ▸ hk), ih]

/-- Keys are listed in the order of their first grants. -/
theorem run_keys (hash : String → UInt64) (ops : List IdOperation) (name : String) :
    ((run { hash } ops).scopeAt name).entries.map (·.key) =
      (grants { hash } name ops).eraseDups := by
  induction ops using List.reverseRecOn with
  | nil => rfl
  | append_singleton ops op ih =>
    rw [run_concat, step_keys ((valid_empty hash).run ops), ih, grants_concat,
      List.eraseDups_append, List.append_cancel_left_eq]
    rcases (run { hash } ops).granted_cases name op with hg | ⟨key, hg⟩ <;> rw [hg]
    · rfl
    · by_cases hk : key ∈ grants { hash } name ops <;>
        simp [List.removeAll, List.eraseDups_cons, List.mem_eraseDups, hk]

theorem Valid.scopeAt_of_mem (h : t.Valid) {s : IdScope} (hs : s ∈ t.scopes) :
    t.scopeAt s.name = s := by
  have hne : t.scope? s.name ≠ none := fun hn => scope?_eq_none.1 hn (List.mem_map_of_mem hs)
  obtain ⟨x, hx⟩ := Option.ne_none_iff_exists'.1 hne
  have hxs : x = s :=
    List.inj_on_of_nodup_map h.names (List.mem_of_find?_eq_some hx) hs (scope?_name hx)
  rw [scopeAt, hx, hxs]
  rfl

/-- A snapshot has exactly the entries of the scopes. -/
theorem Valid.lookup_snapshot (h : t.Valid) (name key : String) (id : UInt64) :
    (t.snapshot.lookup name).bind (·.lookup key) = some id ↔
      (⟨key, id⟩ : IdEntry) ∈ (t.scopeAt name).entries := by
  have hnames : ((t.scopes.map fun s =>
      (s.name, Data.entriesOf (s.entries.map fun e => (e.key, e.id)))).map (·.1)).Nodup := by
    rw [List.map_map]; exact h.names
  have hkeys : ∀ name, (((t.scopeAt name).entries.map fun e => (e.key, e.id)).map (·.1)).Nodup :=
    fun name => by rw [List.map_map]; exact h.keys name
  rw [Option.bind_eq_some_iff]
  constructor
  · rintro ⟨ids, hids, hid⟩
    obtain ⟨s, hs, he⟩ := List.mem_map.1 ((Data.lookup_entriesOf_iff hnames).1 hids)
    obtain ⟨rfl, rfl⟩ := Prod.mk.inj he
    rw [← h.scopeAt_of_mem hs, Data.lookup_entriesOf_iff (hkeys _)] at hid
    obtain ⟨e, hm, hee⟩ := List.mem_map.1 hid
    obtain ⟨rfl, rfl⟩ := Prod.mk.inj hee
    exact hm
  · intro hm
    cases hs : t.scope? name with
    | none => rw [scopeAt, hs] at hm; cases hm
    | some s =>
      have hmem : s ∈ t.scopes := List.mem_of_find?_eq_some hs
      have hsn : s.name = name := scope?_name hs
      refine ⟨_, (Data.lookup_entriesOf_iff hnames).2 (List.mem_map.2 ⟨s, hmem, by rw [hsn]⟩), ?_⟩
      rw [← h.scopeAt_of_mem hmem, hsn, Data.lookup_entriesOf_iff (hkeys _)]
      exact List.mem_map.2 ⟨_, hm, rfl⟩

/-- **Histories of a table.** After any operations every id is the hash of its key and no two keys
    have one id; a scope lists what it granted, in the order of the first grants, and the snapshot
    shows just that; owners on record stay; and an operation that is refused changes nothing. -/
theorem run_consistent (hash : String → UInt64) (ops : List IdOperation) :
    (∀ name, ∀ e ∈ (run { hash } ops).entries name, e.id = hash e.key) ∧
    (∀ name name', ∀ e ∈ (run { hash } ops).entries name, ∀ e' ∈ (run { hash } ops).entries name',
      e.id = e'.id → e.key = e'.key) ∧
    (∀ name, (((run { hash } ops).entries name).map (·.key)).Nodup ∧
      ((run { hash } ops).entries name).map (·.key) = (grants { hash } name ops).eraseDups) ∧
    (∀ name key id, ((run { hash } ops).snapshot.lookup name).bind (·.lookup key) = some id ↔
      (⟨key, id⟩ : IdEntry) ∈ (run { hash } ops).entries name) ∧
    (∀ name key ops', (run { hash } ops).holder name key ≠ "" →
      (run { hash } (ops ++ ops')).holder name key = (run { hash } ops).holder name key) ∧
    (∀ op c, ((run { hash } ops).step op).2 = .error c →
      ((run { hash } ops).step op).1 = run { hash } ops) := by
  have h : (run { hash } ops).Valid := (valid_empty hash).run ops
  simp only [entries_eq]
  refine ⟨fun name e he => ?_, fun name name' e he e' he' hid => ?_, fun name => ⟨h.keys name, ?_⟩,
    h.lookup_snapshot, fun name key ops' hk => ?_, fun op c hc => ?_⟩
  · rw [h.ids name e he, run_hash]
  · have hi := h.index name e he
    rw [hid, h.index name' e' he'] at hi
    exact (Option.some.inj hi).symm
  · exact run_keys hash ops name
  · rw [run_append]; exact run_holder _ ops' hk
  · rcases (run { hash } ops).step_cases op with hs | ⟨c', hs⟩ | ⟨key, owner, t', e, -, hs⟩
    · rw [hs] at hc; cases hc
    · rw [hs]
    · rw [hs] at hc; cases hc

end IdTable
end Lowering
end ObjectLowering
