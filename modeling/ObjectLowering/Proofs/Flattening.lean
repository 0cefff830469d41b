/-
  Flattened features.

  * `kept_iff`: a declaration is kept iff it is the first of its slot, the
    slot being its name among data or among operations.
  * Members have the keys of their names under the stem, and no two members
    of a classifier have one name.
-/
import Mathlib.Data.List.Nodup
import ObjectLowering.Lowering.Features

namespace ObjectLowering.Lowering

open Model Code

/-! ## First declarations -/

/-- The name of a declaration, and whether it stands among data or among operations. -/
def Declaration.slot (d : Declaration) : Bool × String :=
  (d.declared.isData, d.declared.identity.name)

theorem firstWins_cons (seen : List (Bool × String)) (d : Declaration) (ds : List Declaration) :
    firstWins seen (d :: ds) =
      if d.slot ∈ seen then (d, false) :: firstWins seen ds
      else (d, true) :: firstWins (d.slot :: seen) ds := by
  rw [firstWins]
  by_cases h : d.slot ∈ seen
  · rw [if_pos h]; exact if_pos (List.contains_iff_mem.2 h)
  · rw [if_neg h]; exact if_neg fun hc => h (List.contains_iff_mem.1 hc)

theorem map_fst_firstWins (seen : List (Bool × String)) (ds : List Declaration) :
    (firstWins seen ds).map (·.1) = ds := by
  induction ds generalizing seen with
  | nil => rfl
  | cons d ds ih => rw [firstWins_cons]; split_ifs <;> simp [ih]

/-- A declaration is kept iff its slot is free and it is the first one in it. -/
theorem kept_iff {seen : List (Bool × String)} {ds : List Declaration} {d : Declaration} :
    (d, true) ∈ firstWins seen ds ↔
      d.slot ∉ seen ∧ ds.find? (fun x => x.slot == d.slot) = some d := by
  induction ds generalizing seen with
  | nil => simp [firstWins]
  | cons x ds ih =>
    rw [firstWins_cons, List.find?_cons]
    by_cases hx : x.slot ∈ seen
    · rw [if_pos hx]
      simp only [List.mem_cons, Prod.mk.injEq, Bool.true_eq_false, and_false, false_or, ih]
      refine and_congr_right fun hd => ?_
      have hne : (x.slot == d.slot) = false := beq_false_of_ne fun he => hd (he ▸ hx)
      rw [hne]
    · rw [if_neg hx]
      simp only [List.mem_cons, Prod.mk.injEq, and_true, ih, not_or]
      by_cases he : x.slot = d.slot
      · have hb : (x.slot == d.slot) = true := beq_iff_eq.2 he
        rw [hb]
        simp only [Option.some.injEq]
        constructor
        · rintro (rfl | ⟨⟨hd, -⟩, -⟩)
          · exact ⟨hx, rfl⟩
          · exact absurd he.symm hd
        · rintro ⟨-, rfl⟩; exact Or.inl rfl
      · have hb : (x.slot == d.slot) = false := beq_false_of_ne he
        rw [hb]
        constructor
        · rintro (rfl | ⟨⟨-, hd⟩, hf⟩)
          · exact absurd rfl he
          · exact ⟨hd, hf⟩
        · rintro ⟨hd, hf⟩; exact Or.inr ⟨⟨fun h => he h.symm, hd⟩, hf⟩

/-- No two kept declarations have one slot. -/
theorem kept_pairwise (seen : List (Bool × String)) (ds : List Declaration) :
    (firstWins seen ds).Pairwise fun a b => a.2 = true → b.2 = true → a.1.slot ≠ b.1.slot := by
  induction ds generalizing seen with
  | nil => exact List.Pairwise.nil
  | cons d ds ih =>
    rw [firstWins_cons]
    split_ifs with hd
    · exact List.pairwise_cons.2 ⟨fun b _ h => by simp at h, ih seen⟩
    · refine List.pairwise_cons.2 ⟨fun b hb _ hk he => ?_, ih _⟩
      obtain ⟨b, k⟩ := b
      obtain rfl : k = true := hk
      exact (kept_iff.1 hb).1 (by simp [← he])

/-! ## Members -/

/-- What flattening makes of a declaration that is kept or not. -/
def flattened (r : Registry) (stem : String) (p : Declaration × Bool) : Flattened :=
  if p.2 then
    match p.1.declared with
    | .data f => .member (memberOf r stem p.1.owner f)
    | .operation o => .operation o
  else .hidden p.1.hiddenNote

theorem flatten_eq (r : Registry) (c : Classifier) (stem : String) :
    flatten r c stem = (firstWins [] (declarations r c)).map (flattened r stem) := rfl

theorem flattened_eq_member {r : Registry} {stem : String} {p : Declaration × Bool} {m : Member} :
    flattened r stem p = .member m ↔
      p.2 = true ∧ ∃ f, p.1.declared = .data f ∧ m = memberOf r stem p.1.owner f := by
  unfold flattened
  split_ifs with h
  · cases hd : p.1.declared with
    | data f => simp [h, eq_comm]
    | operation o => simp
  · simp [h]

theorem flattened_eq_operation {r : Registry} {stem : String} {p : Declaration × Bool}
    {o : Operation} :
    flattened r stem p = .operation o ↔ p.2 = true ∧ p.1.declared = .operation o := by
  unfold flattened
  split_ifs with h
  · cases hd : p.1.declared with
    | data f => simp
    | operation o => simp [h]
  · simp [h]

theorem eq_member {x : Flattened} {m : Member}
    (h : (match x with | .member m => some m | _ => none) = some m) : x = .member m := by
  cases x <;> simp_all

theorem eq_operation {x : Flattened} {o : Operation}
    (h : (match x with | .operation o => some o | _ => none) = some o) : x = .operation o := by
  cases x <;> simp_all

theorem mem_membersOf {fs : List Flattened} {m : Member} : m ∈ membersOf fs ↔ .member m ∈ fs := by
  simp only [membersOf, List.mem_filterMap]
  constructor
  · rintro ⟨f, hf, hm⟩
    exact eq_member hm ▸ hf
  · intro h
    exact ⟨_, h, rfl⟩

section
variable {r : Registry} {c : Classifier} {stem : String} {m : Member}

/-- The members are the kept data declarations. -/
theorem mem_membersOf_flatten :
    m ∈ membersOf (flatten r c stem) ↔
      ∃ d f, (d, true) ∈ firstWins [] (declarations r c) ∧ d.declared = .data f ∧
        m = memberOf r stem d.owner f := by
  rw [mem_membersOf, flatten_eq, List.mem_map]
  constructor
  · rintro ⟨⟨d, k⟩, hd, he⟩
    obtain ⟨rfl, f, hf, rfl⟩ := flattened_eq_member.1 he
    exact ⟨d, f, hd, hf, rfl⟩
  · rintro ⟨d, f, hd, hf, rfl⟩
    exact ⟨(d, true), hd, flattened_eq_member.2 ⟨rfl, f, hf, rfl⟩⟩

theorem key_of_mem_flatten (h : m ∈ membersOf (flatten r c stem)) : m.key = keyOf stem m.name := by
  obtain ⟨d, f, -, -, rfl⟩ := mem_membersOf_flatten.1 h
  rfl

theorem mem_operations_flatten {o : Operation} :
    o ∈ (Features.ofFlattened (flatten r c stem)).operations ↔
      ∃ d, (d, true) ∈ firstWins [] (declarations r c) ∧ d.declared = .operation o := by
  simp only [Features.ofFlattened, List.mem_filterMap, flatten_eq, List.mem_map]
  constructor
  · rintro ⟨x, ⟨⟨d, k⟩, hd, rfl⟩, ho⟩
    obtain ⟨rfl, ho⟩ := flattened_eq_operation.1 (eq_operation ho)
    exact ⟨d, hd, ho⟩
  · rintro ⟨d, hd, ho⟩
    exact ⟨.operation o, ⟨(d, true), hd, flattened_eq_operation.2 ⟨rfl, ho⟩⟩, rfl⟩

/-- What the kept declarations are read as has slots of its own. -/
theorem slots_nodup {α : Type} {read : Flattened → Option α} {slot : α → Bool × String}
    (h : ∀ p x, read (flattened r stem p) = some x → p.2 = true ∧ p.1.slot = slot x) :
    (((flatten r c stem).filterMap read).map slot).Nodup := by
  rw [List.Nodup, List.pairwise_map, List.pairwise_filterMap, flatten_eq, List.pairwise_map]
  refine (kept_pairwise [] (declarations r c)).imp fun {p q} hpq x hx y hy he => ?_
  obtain ⟨hp, hslot⟩ := h p x hx
  obtain ⟨hq, hslot'⟩ := h q y hy
  exact hpq hp hq (hslot.trans (he.trans hslot'.symm))

/-- No two members of a classifier have one name. -/
theorem membersOf_names_nodup (r : Registry) (c : Classifier) (stem : String) :
    ((membersOf (flatten r c stem)).map (·.name)).Nodup := by
  refine List.Nodup.of_map (Prod.mk true) ?_
  rw [List.map_map]
  refine slots_nodup fun p m hm => ?_
  obtain ⟨hp, f, hf, rfl⟩ := flattened_eq_member.1 (eq_member hm)
  rw [Declaration.slot, hf]
  exact ⟨hp, rfl⟩

/-- No two operations of a classifier have one name. -/
theorem operations_names_nodup (r : Registry) (c : Classifier) (stem : String) :
    ((Features.ofFlattened (flatten r c stem)).operations.map fun o => o.name).Nodup := by
  refine List.Nodup.of_map (Prod.mk false) ?_
  rw [List.map_map]
  refine slots_nodup fun p o ho => ?_
  obtain ⟨hp, hd⟩ := flattened_eq_operation.1 (eq_operation ho)
  rw [Declaration.slot, hd]
  exact ⟨hp, rfl⟩

/-- The data of a classifier, attributes first, are its members. -/
theorem data_perm (fs : List Flattened) : (Features.ofFlattened fs).data.Perm (membersOf fs) := by
  rw [Features.data, Features.ofFlattened]
  refine List.perm_append_comm.trans ?_
  exact List.filter_append_perm _ _

end

end ObjectLowering.Lowering
