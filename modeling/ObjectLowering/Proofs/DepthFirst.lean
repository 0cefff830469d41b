/-
  Depth-first search with one shared set of keys.

  `DepthFirst key next seen todo out`: from the items `todo`, when the keys
  `seen` were met before, the search visits `out`.  An item is visited with
  all that it leads to before the items behind it, unless its key was met.

  * No key is visited twice (`DepthFirst.keys`).
  * What is visited is reached from `todo` (`DepthFirst.forall_mem`,
    `DepthFirst.parent`), and the keys of all that is reached are met
    (`DepthFirst.met`).
  * `preorder` makes such a search with a worklist, as long as its fuel is
    no less than the number of keys that are left (`preorder_depthFirst`).
-/
import Mathlib.Data.List.Nodup
import Mathlib.Data.List.Perm.Subperm
import ObjectLowering.Lowering.Family

namespace ObjectLowering.Lowering

/-- The search over `next` from a list of items: keys met before, items, visited items. -/
inductive DepthFirst {α : Type} (key : α → String) (next : α → List α) :
    List String → List α → List α → Prop where
  | nil {seen : List String} : DepthFirst key next seen [] []
  | skip {seen : List String} {x : α} {xs out : List α} (h : key x ∈ seen)
    (hxs : DepthFirst key next seen xs out) : DepthFirst key next seen (x :: xs) out
  | visit {seen : List String} {x : α} {xs out₁ out₂ : List α} (h : key x ∉ seen)
    (hin : DepthFirst key next (key x :: seen) (next x) out₁)
    (hxs : DepthFirst key next (out₁.map key ++ key x :: seen) xs out₂) :
    DepthFirst key next seen (x :: xs) (x :: (out₁ ++ out₂))

namespace DepthFirst

variable {α : Type} {key : α → String} {next : α → List α} {seen seen' : List String}
  {xs ys out : List α} {a : α}

theorem visit_leaf {x : α} (h : key x ∉ seen) (hx : next x = [])
    (hxs : DepthFirst key next (key x :: seen) xs out) :
    DepthFirst key next seen (x :: xs) (x :: out) := by
  have hin : DepthFirst key next (key x :: seen) (next x) [] := by rw [hx]; exact .nil
  exact .visit h hin hxs

/-- Only which keys were met counts. -/
theorem congr_seen (h : DepthFirst key next seen xs out) (hs : ∀ k, k ∈ seen ↔ k ∈ seen') :
    DepthFirst key next seen' xs out := by
  induction h generalizing seen' with
  | nil => exact .nil
  | skip h _ ih => exact .skip ((hs _).1 h) (ih hs)
  | visit h _ _ ih₁ ih₂ =>
    exact .visit (fun hk => h ((hs _).2 hk)) (ih₁ fun k => by simp [hs])
      (ih₂ fun k => by simp [hs])

/-- The search visits one list only. -/
theorem unique {out' : List α} (h : DepthFirst key next seen xs out)
    (h' : DepthFirst key next seen xs out') : out = out' := by
  induction h generalizing out' with
  | nil => cases h'; rfl
  | skip hk _ ih =>
    cases h' with
    | skip _ hxs => exact ih hxs
    | visit hn => exact absurd hk hn
  | visit hn _ _ ih₁ ih₂ =>
    cases h' with
    | skip hk => exact absurd hk hn
    | visit _ hin hxs =>
      obtain rfl := ih₁ hin
      rw [ih₂ hxs]

/-- No key is met twice, and none that was met before. -/
theorem keys (h : DepthFirst key next seen xs out) :
    (out.map key).Nodup ∧ ∀ k ∈ out.map key, k ∉ seen := by
  induction h with
  | nil => simp
  | skip _ _ ih => exact ih
  | @visit seen x xs out₁ out₂ hk _ _ ih₁ ih₂ =>
    obtain ⟨hn₁, hs₁⟩ := ih₁
    obtain ⟨hn₂, hs₂⟩ := ih₂
    rw [List.map_cons, List.map_append]
    refine ⟨List.nodup_cons.2 ⟨fun hm => ?_, List.nodup_append'.2 ⟨hn₁, hn₂, fun k h₁ h₂ => ?_⟩⟩,
      fun k hm => ?_⟩
    · rcases List.mem_append.1 hm with hm | hm
      · exact hs₁ _ hm (by simp)
      · exact hs₂ _ hm (by simp)
    · exact hs₂ k h₂ (List.mem_append_left _ h₁)
    · rcases List.mem_cons.1 hm with rfl | hm
      · exact hk
      · rcases List.mem_append.1 hm with hm | hm
        · exact fun h => hs₁ k hm (by simp [h])
        · exact fun h => hs₂ k hm (by simp [h])

/-- What holds of the first items and passes on to the next ones holds of all visited items. -/
theorem forall_mem {P : α → Prop} (h : DepthFirst key next seen xs out) (hxs : ∀ x ∈ xs, P x)
    (hnext : ∀ x, P x → ∀ y ∈ next x, P y) : ∀ x ∈ out, P x := by
  induction h with
  | nil => simp
  | skip _ _ ih => exact ih fun y hy => hxs y (List.mem_cons_of_mem _ hy)
  | @visit seen x xs out₁ out₂ _ _ _ ih₁ ih₂ =>
    have hx := hxs x List.mem_cons_self
    intro y hy
    rcases List.mem_cons.1 hy with rfl | hy
    · exact hx
    · rcases List.mem_append.1 hy with hy | hy
      · exact ih₁ (hnext x hx) y hy
      · exact ih₂ (fun z hz => hxs z (List.mem_cons_of_mem _ hz)) y hy

/-- A visited item is one of the first, or a visited item leads to it. -/
theorem parent (h : DepthFirst key next seen xs out) (ha : a ∈ out) :
    a ∈ xs ∨ ∃ p ∈ out, a ∈ next p := by
  induction h with
  | nil => simp at ha
  | skip _ _ ih => exact (ih ha).imp_left (List.mem_cons_of_mem _)
  | @visit seen x xs out₁ out₂ _ _ _ ih₁ ih₂ =>
    rcases List.mem_cons.1 ha with rfl | ha
    · exact Or.inl List.mem_cons_self
    · rcases List.mem_append.1 ha with ha | ha
      · rcases ih₁ ha with hm | ⟨p, hp, hm⟩
        · exact Or.inr ⟨x, List.mem_cons_self, hm⟩
        · exact Or.inr ⟨p, List.mem_cons_of_mem _ (List.mem_append_left _ hp), hm⟩
      · rcases ih₂ ha with hm | ⟨p, hp, hm⟩
        · exact Or.inl (List.mem_cons_of_mem _ hm)
        · exact Or.inr ⟨p, List.mem_cons_of_mem _ (List.mem_append_right _ hp), hm⟩

/-- The keys of the first items are met, and those of all items that a visited item leads to. -/
theorem met (h : DepthFirst key next seen xs out) :
    (∀ x ∈ xs, key x ∈ out.map key ++ seen) ∧
      ∀ x ∈ out, ∀ y ∈ next x, key y ∈ out.map key ++ seen := by
  induction h with
  | nil => simp
  | skip h _ ih =>
    refine ⟨fun y hy => ?_, ih.2⟩
    rcases List.mem_cons.1 hy with rfl | hy
    · exact List.mem_append_right _ h
    · exact ih.1 y hy
  | @visit seen x xs out₁ out₂ _ _ _ ih₁ ih₂ =>
    have hsub₁ : out₁.map key ++ key x :: seen ⊆ (x :: (out₁ ++ out₂)).map key ++ seen := by
      intro k
      simp only [List.map_cons, List.map_append, List.mem_append, List.mem_cons]
      grind
    have hsub₂ : out₂.map key ++ (out₁.map key ++ key x :: seen) ⊆
        (x :: (out₁ ++ out₂)).map key ++ seen := by
      intro k
      simp only [List.map_cons, List.map_append, List.mem_append, List.mem_cons]
      grind
    refine ⟨fun y hy => ?_, fun y hy z hz => ?_⟩
    · rcases List.mem_cons.1 hy with rfl | hy
      · exact List.mem_cons_self
      · exact hsub₂ (ih₂.1 y hy)
    · rcases List.mem_cons.1 hy with rfl | hy
      · exact hsub₁ (ih₁.1 z hz)
      · rcases List.mem_append.1 hy with hy | hy
        · exact hsub₁ (ih₁.2 y hy z hz)
        · exact hsub₂ (ih₂.2 y hy z hz)

/-- A search from two lists is a search from the first, and one from the second that knows the keys
    which the first has met. -/
theorem of_append (h : DepthFirst key next seen (xs ++ ys) out) :
    ∃ out₁ out₂, out = out₁ ++ out₂ ∧ DepthFirst key next seen xs out₁ ∧
      DepthFirst key next (out₁.map key ++ seen) ys out₂ := by
  generalize hzs : xs ++ ys = zs at h
  induction h generalizing xs with
  | nil =>
    obtain ⟨rfl, rfl⟩ := List.append_eq_nil_iff.1 hzs
    exact ⟨[], [], rfl, .nil, .nil⟩
  | @skip seen x zs out hk hxs ih =>
    cases xs with
    | nil =>
      rw [List.nil_append] at hzs
      subst hzs
      exact ⟨[], out, rfl, .nil, .skip hk hxs⟩
    | cons y xs =>
      obtain ⟨rfl, hzs'⟩ := List.cons.inj hzs
      obtain ⟨out₁, out₂, rfl, h₁, h₂⟩ := ih hzs'
      exact ⟨out₁, out₂, rfl, .skip hk h₁, h₂⟩
  | @visit seen x zs in₁ in₂ hk hin hxs _ ih =>
    cases xs with
    | nil =>
      rw [List.nil_append] at hzs
      subst hzs
      exact ⟨[], _, rfl, .nil, .visit hk hin hxs⟩
    | cons y xs =>
      obtain ⟨rfl, hzs'⟩ := List.cons.inj hzs
      obtain ⟨out₁, out₂, rfl, h₁, h₂⟩ := ih hzs'
      refine ⟨y :: (in₁ ++ out₁), out₂, by simp, .visit hk hin h₁, h₂.congr_seen fun k => ?_⟩
      simp only [List.map_cons, List.map_append, List.mem_append, List.mem_cons]
      grind

theorem of_forall_seen (h : ∀ x ∈ xs, key x ∈ seen) : DepthFirst key next seen xs [] := by
  induction xs with
  | nil => exact .nil
  | cons x xs ih =>
    exact .skip (h x List.mem_cons_self) (ih fun y hy => h y (List.mem_cons_of_mem _ hy))

/-- Items whose keys were met make no difference in front. -/
theorem of_dropWhile
    (h : DepthFirst key next seen (xs.dropWhile fun x => seen.contains (key x)) out) :
    DepthFirst key next seen xs out := by
  induction xs with
  | nil => exact h
  | cons x xs ih =>
    by_cases hx : key x ∈ seen
    · rw [List.dropWhile_cons_of_pos (by simpa using hx)] at h
      exact .skip hx (ih h)
    · rwa [List.dropWhile_cons_of_neg (by simpa using hx)] at h

end DepthFirst

section
variable {α : Type} {key : α → String} {next : α → List α}

/-- **A worklist makes a depth-first search**, given a list of all keys that can come up and no less
    fuel than there are keys not yet met. -/
theorem preorder_depthFirst (keys : List String) (fuel : Nat) (seen : List String) (todo : List α)
    (hseen : seen.Nodup) (hsub : seen ⊆ keys) (hfuel : keys.length ≤ fuel + seen.length)
    (htodo : ∀ x ∈ todo, key x ∈ keys) (hnext : ∀ x, ∀ y ∈ next x, key y ∈ keys) :
    DepthFirst key next seen todo (preorder key next fuel seen todo) := by
  induction fuel generalizing seen todo with
  | zero =>
    -- all keys were met
    have hperm := (List.subperm_of_subset hseen hsub).perm_of_length_le (by omega)
    exact .of_forall_seen fun x hx => hperm.mem_iff.2 (htodo x hx)
  | succ fuel ih =>
    rw [preorder]
    apply DepthFirst.of_dropWhile
    cases hd : todo.dropWhile (fun x => seen.contains (key x)) with
    | nil => exact .nil
    | cons x rest =>
      have hmem : ∀ y ∈ x :: rest, y ∈ todo := by
        intro y hy
        rw [← hd] at hy
        exact (List.dropWhile_suffix _).subset hy
      have hx : key x ∉ seen := by
        have hhead := List.head?_dropWhile_not (fun x => seen.contains (key x)) todo
        rw [hd] at hhead
        simpa using hhead
      have hsearch := ih (key x :: seen) (next x ++ rest) (List.nodup_cons.2 ⟨hx, hseen⟩)
        (List.cons_subset.2 ⟨htodo x (hmem x List.mem_cons_self), hsub⟩)
        (by rw [List.length_cons]; omega) fun y hy => ?_
      · obtain ⟨out₁, out₂, hout, h₁, h₂⟩ := hsearch.of_append
        simp only [hout]
        exact .visit hx h₁ h₂
      · rcases List.mem_append.1 hy with hy | hy
        · exact hnext x y hy
        · exact htodo y (hmem y (List.mem_cons_of_mem _ hy))

end

end ObjectLowering.Lowering
