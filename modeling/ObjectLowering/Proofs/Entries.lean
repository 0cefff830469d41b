/-
  Entries by name.

  Entries are in ascending order of their names, and a name is found with the
  value that was entered for it last.

  * `lookup_entriesOf`: of two pairs with one name the later counts.
  * `length_entriesOf_iff`: none of the pairs is lost iff no name occurs twice.
-/
import Mathlib.Data.List.Dedup
import Mathlib.Data.List.Induction
import Mathlib.Data.List.Nodup
import ObjectLowering.Data.Entries

namespace ObjectLowering

/-! ## Look-ups in lists of pairs -/

theorem lookup_cons_ite {α β : Type} [DecidableEq α] (k n : α) (v : β) (es : List (α × β)) :
    ((n, v) :: es).lookup k = if k = n then some v else es.lookup k := by
  by_cases h : k = n
  · simp [h]
  · have hb : (k == n) = false := beq_false_of_ne h
    simp [List.lookup_cons, hb, h]

/-- Where every key occurs once, a look-up finds exactly the pairs. -/
theorem lookup_eq_some_iff_mem {α β : Type} [BEq α] [LawfulBEq α] {es : List (α × β)}
    (h : (es.map (·.1)).Nodup) {k : α} {v : β} : es.lookup k = some v ↔ (k, v) ∈ es := by
  rw [List.lookup_eq_some_iff]
  constructor
  · rintro ⟨before, after, rfl, -⟩
    exact List.mem_append_right _ List.mem_cons_self
  · intro hm
    obtain ⟨before, after, rfl⟩ := List.append_of_mem hm
    refine ⟨before, after, rfl, fun p hp => bne_iff_ne.2 fun he => ?_⟩
    rw [List.map_append, List.map_cons, List.nodup_append] at h
    exact h.2.2 p.1 (List.mem_map_of_mem hp) k List.mem_cons_self he.symm

/-- Pairs that are removed do not matter for another key. -/
theorem lookup_filter_ne {α β : Type} [BEq α] [LawfulBEq α] {k n : α} (h : k ≠ n)
    (es : List (α × β)) : (es.filter fun e => e.1 != n).lookup k = es.lookup k := by
  induction es with
  | nil => rfl
  | cons e es ih =>
    obtain ⟨m, v⟩ := e
    by_cases hm : m = n
    · rw [List.filter_cons_of_neg (by simp [hm]), ih, List.lookup_cons, hm, beq_false_of_ne h]
    · rw [List.filter_cons_of_pos (by simp [hm]), List.lookup_cons, List.lookup_cons, ih]

namespace Data

variable {α : Type}

/-! ## Values of names -/

theorem lookup_putEntry (k n : String) (v : α) (es : List (String × α)) :
    (putEntry n v es).lookup k = if k = n then some v else es.lookup k := by
  induction es with
  | nil => rw [putEntry, lookup_cons_ite]
  | cons e es ih =>
    obtain ⟨m, w⟩ := e
    unfold putEntry
    by_cases h₁ : n = m
    · rw [if_pos h₁, lookup_cons_ite, lookup_cons_ite, ← h₁]
      by_cases h : k = n <;> simp [h]
    · by_cases h₂ : n < m
      · rw [if_neg h₁, if_pos h₂, lookup_cons_ite]
      · rw [if_neg h₁, if_neg h₂, lookup_cons_ite, lookup_cons_ite, ih]
        by_cases h : k = n
        · simp [h, h₁]
        · simp [h]

/-- Of two pairs with one name the later counts. -/
theorem lookup_foldl_putEntry (k : String) (ps es : List (String × α)) :
    (ps.foldl (fun es (n, v) => putEntry n v es) es).lookup k =
      (ps.reverse.lookup k).or (es.lookup k) := by
  induction ps generalizing es with
  | nil => rfl
  | cons p ps ih =>
    obtain ⟨n, v⟩ := p
    rw [List.foldl_cons, ih, lookup_putEntry, List.reverse_cons, List.lookup_append,
      lookup_cons_ite, Option.or_assoc]
    by_cases h : k = n <;> simp [h]

theorem lookup_entriesOf (k : String) (ps : List (String × α)) :
    (entriesOf ps).lookup k = ps.reverse.lookup k := by
  rw [entriesOf, lookup_foldl_putEntry, List.lookup_nil, Option.or_none]

/-- Where every name occurs once, entries hold exactly the pairs. -/
theorem lookup_entriesOf_iff {ps : List (String × α)} (h : (ps.map (·.1)).Nodup) {k : String}
    {v : α} : (entriesOf ps).lookup k = some v ↔ (k, v) ∈ ps := by
  have hreverse : (ps.reverse.map (·.1)).Nodup := by
    rw [List.map_reverse]; exact List.nodup_reverse.2 h
  rw [lookup_entriesOf, lookup_eq_some_iff_mem hreverse, List.mem_reverse]

/-! ## Names -/

theorem mem_names_putEntry {n k : String} {v : α} {es : List (String × α)}
    (h : k ∈ (putEntry n v es).map (·.1)) : k = n ∨ k ∈ es.map (·.1) := by
  induction es with
  | nil => simpa [putEntry] using h
  | cons e es ih =>
    obtain ⟨m, w⟩ := e
    unfold putEntry at h
    split_ifs at h with h₁ h₂
    · rcases List.mem_cons.1 h with rfl | h
      · exact Or.inl rfl
      · exact Or.inr (List.mem_cons_of_mem _ h)
    · exact (List.mem_cons.1 h)
    · rcases List.mem_cons.1 h with rfl | h
      · exact Or.inr List.mem_cons_self
      · exact (ih h).imp_right (List.mem_cons_of_mem _)

theorem putEntry_sorted {es : List (String × α)} (h : (es.map (·.1)).Pairwise (· < ·)) (n : String)
    (v : α) : ((putEntry n v es).map (·.1)).Pairwise (· < ·) := by
  induction es with
  | nil => simp [putEntry]
  | cons e es ih =>
    obtain ⟨m, w⟩ := e
    obtain ⟨hm, hes⟩ := List.pairwise_cons.1 h
    unfold putEntry
    split_ifs with h₁ h₂
    · subst h₁
      exact h
    · refine List.pairwise_cons.2 ⟨fun k hk => ?_, h⟩
      rcases List.mem_cons.1 hk with rfl | hk
      · exact h₂
      · exact Std.lt_trans h₂ (hm k hk)
    · refine List.pairwise_cons.2 ⟨fun k hk => ?_, ih hes⟩
      rcases mem_names_putEntry hk with rfl | hk
      · exact Std.lt_of_le_of_ne (Std.not_lt.1 h₂) (Ne.symm h₁)
      · exact hm k hk

/-- Entries are in strictly ascending order of their names. -/
theorem entriesOf_sorted (ps : List (String × α)) :
    ((entriesOf ps).map (·.1)).Pairwise (· < ·) := by
  unfold entriesOf
  induction ps using List.reverseRecOn with
  | nil => exact List.Pairwise.nil
  | append_singleton ps p ih =>
    rw [List.foldl_append]
    exact putEntry_sorted ih p.1 p.2

/-- Entries are what is found under their names. -/
theorem mem_entriesOf {ps : List (String × α)} {k : String} {v : α} :
    (k, v) ∈ entriesOf ps ↔ (entriesOf ps).lookup k = some v := by
  have hnodup : ((entriesOf ps).map (·.1)).Nodup := (entriesOf_sorted ps).imp Std.ne_of_lt
  rw [lookup_eq_some_iff_mem hnodup]

theorem lookup_map {β : Type} (name : β → String) (value : β → α) (xs : List β) (k : String) :
    (xs.map fun x => (name x, value x)).lookup k =
      (xs.find? fun x => name x == k).map value := by
  induction xs with
  | nil => rfl
  | cons x xs ih =>
    rw [List.map_cons, lookup_cons_ite, ih, List.find?_cons]
    by_cases h : name x = k
    · simp [h]
    · rw [if_neg (Ne.symm h), beq_false_of_ne h]

theorem mem_names_iff {es : List (String × α)} {k : String} :
    k ∈ es.map (·.1) ↔ es.lookup k ≠ none := by
  rw [ne_eq, List.lookup_eq_none_iff, List.mem_map]
  push Not
  exact exists_congr fun p => and_congr_right fun _ => by
    rw [ne_eq, bne_iff_ne, not_not, eq_comm]

theorem mem_names_entriesOf {ps : List (String × α)} {k : String} :
    k ∈ (entriesOf ps).map (·.1) ↔ k ∈ ps.map (·.1) := by
  rw [mem_names_iff, lookup_entriesOf, ← mem_names_iff, List.map_reverse, List.mem_reverse]

/-- There are as many entries as pairs iff no name occurs twice. -/
theorem length_entriesOf_iff (ps : List (String × α)) :
    (entriesOf ps).length = ps.length ↔ (ps.map (·.1)).Nodup := by
  have hnodup : ((entriesOf ps).map (·.1)).Nodup := (entriesOf_sorted ps).imp Std.ne_of_lt
  have hperm : ((entriesOf ps).map (·.1)).Perm (ps.map (·.1)).dedup :=
    (List.perm_ext_iff_of_nodup hnodup (List.nodup_dedup _)).2 fun k => by
      rw [mem_names_entriesOf, List.mem_dedup]
  have hlength := hperm.length_eq
  rw [List.length_map] at hlength
  have hpairs : (ps.map (·.1)).length = ps.length := List.length_map _
  rw [hlength, ← hpairs]
  constructor
  · intro h
    exact List.dedup_eq_self.1 ((List.dedup_sublist _).eq_of_length h)
  · intro h
    rw [List.dedup_eq_self.2 h]

end Data

end ObjectLowering
