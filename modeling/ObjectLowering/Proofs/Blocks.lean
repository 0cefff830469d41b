/-
  Code that returns to the level it starts from.

  * `IsBalanced` says of code that it makes no step back at level zero, ends
    at level zero, and that the braces of its lines pair up.  Braces are read
    off the ends of the lines that give code its structure: those that open
    and close a level, and those that are written a step back.
  * `IsBlock` is what holds of the parts of such code, in whatever code they
    stand, and `IsRest` of what follows an opening line.  The constructs of
    the generated code are put together from parts like these.
  * `IsBlock.isBalanced`: a part that stands alone is balanced.
-/
import Mathlib.Combinatorics.Enumerative.DyckWord
import ObjectLowering.Code.Stream

namespace ObjectLowering.Code

open DyckStep

/-! ## Balance -/

/-- The indentation level behind code. -/
def depthAfter (edits : List Edit) : Nat := (edits.foldl Stream.apply {}).depth

/-- The edit steps one level back. -/
def Edit.stepsBack : Edit → Bool
  | .closing _ | .dedent => true
  | .line _ | .opening _ | .indent => false

/-- The braces at the ends of a line: a closing one in front, an opening one at the end. -/
def endBraces (text : String) : List DyckStep :=
  (if text.toList.head? = some '\x7d' then [D] else []) ++
  (if text.toList.getLast? = some '\x7b' then [U] else [])

/-- The braces of the lines that open and close a level, and of the lines directly behind a
    `dedent`, which the flag tells of. All other lines may hold any text. -/
def bracesFrom (outdented : Bool) : List Edit → List DyckStep
  | [] => []
  | .line text :: rest => (if outdented then endBraces text else []) ++ bracesFrom false rest
  | .opening head :: rest => endBraces (openingText head) ++ bracesFrom false rest
  | .closing tail :: rest => endBraces ("\x7d" ++ tail) ++ bracesFrom false rest
  | .indent :: rest => bracesFrom false rest
  | .dedent :: rest => bracesFrom true rest

/-- Code ends with a `dedent`, or is empty and one came before. -/
def endsBack (before : Bool) (edits : List Edit) : Bool :=
  edits.foldl (fun _ e => decide (e = .dedent)) before

/-- Braces that pair up. -/
def IsPaired (steps : List DyckStep) : Prop := ∃ w : DyckWord, w.toList = steps

/-- Code with balanced indentation and braces. -/
structure IsBalanced (edits : List Edit) : Prop where
  /-- No step back is made at level zero. -/
  back : ∀ pre e post, edits = pre ++ e :: post → e.stepsBack = true → 0 < depthAfter pre
  depth_eq : depthAfter edits = 0
  paired : IsPaired (bracesFrom false edits)

/-! ## Braces -/

namespace IsPaired

variable {v w : List DyckStep}

theorem nil : IsPaired [] := ⟨0, rfl⟩

theorem append : IsPaired v → IsPaired w → IsPaired (v ++ w)
  | ⟨x, hx⟩, ⟨y, hy⟩ => ⟨x + y, hx ▸ hy ▸ rfl⟩

/-- A pair of braces around `v`, and what comes behind it. -/
theorem enclose : IsPaired v → IsPaired w → IsPaired (U :: (v ++ D :: w))
  | ⟨x, hx⟩, ⟨y, hy⟩ => ⟨x.nest + y, by
      change U :: (x.toList ++ [D]) ++ y.toList = _
      rw [hx, hy, List.cons_append, List.append_assoc, List.singleton_append]⟩

end IsPaired

/-- The ends of a line are those of what stands around its middle. -/
theorem endBraces_around {front back : String} (middle : String) (hfront : front ≠ "")
    (hback : back ≠ "") :
    endBraces (front ++ middle ++ back) =
      (if front.toList.head? = some '\x7d' then [D] else []) ++
      (if back.toList.getLast? = some '\x7b' then [U] else []) := by
  have hfront' : front.toList ≠ [] := mt String.toList_eq_nil_iff.1 hfront
  have hback' : back.toList ≠ [] := mt String.toList_eq_nil_iff.1 hback
  rw [endBraces, String.toList_append, List.getLast?_append_of_ne_nil _ hback',
    String.toList_append, List.append_assoc, List.head?_append_of_ne_nil _ hfront']

theorem endBraces_openingText {head : String} (h : head.toList.head? ≠ some '\x7d') :
    endBraces (openingText head) = [U] := by
  rw [openingText]
  split_ifs with hempty
  · decide
  · obtain ⟨c, cs, hcs⟩ := List.exists_cons_of_ne_nil (mt String.toList_eq_nil_iff.1 hempty)
    have hc : c ≠ '\x7d' := by simpa [hcs] using h
    have hlast : (head ++ " \x7b").toList.getLast? = some '\x7b' := by
      rw [String.toList_append, List.getLast?_append]
      rfl
    rw [endBraces, if_pos hlast, if_neg]
    · rfl
    · simpa [String.toList_append, hcs] using hc

theorem endBraces_closing {tail : String} (h : tail.toList.getLast? ≠ some '\x7b') :
    endBraces ("\x7d" ++ tail) = [D] := by
  have hlast : ("\x7d" ++ tail).toList.getLast? ≠ some '\x7b' := by
    rw [String.toList_append, List.getLast?_append]
    cases hc : tail.toList.getLast? with
    | none => decide
    | some c => simpa [hc] using h
  rw [endBraces, if_neg hlast]
  simp [String.toList_append]

theorem endsBack_append (b : Bool) (xs ys : List Edit) :
    endsBack b (xs ++ ys) = endsBack (endsBack b xs) ys := List.foldl_append

theorem bracesFrom_append (b : Bool) (xs ys : List Edit) :
    bracesFrom b (xs ++ ys) = bracesFrom b xs ++ bracesFrom (endsBack b xs) ys := by
  induction xs generalizing b with
  | nil => rfl
  | cons e xs ih =>
    cases e <;> simp only [List.cons_append, bracesFrom, ih, List.append_assoc] <;> rfl

/-! ## Levels -/

/-- The level behind an edit, unless it steps back at level zero. -/
def Edit.levelAfter? (n : Nat) : Edit → Option Nat
  | .line _ => some n
  | .opening _ | .indent => some (n + 1)
  | .closing _ | .dedent => if n = 0 then none else some (n - 1)

/-- The level behind code that starts at level `n`, unless it steps back at level zero. -/
def levelAfter? (n : Nat) (edits : List Edit) : Option Nat := edits.foldlM Edit.levelAfter? n

theorem levelAfter?_append (n : Nat) (xs ys : List Edit) :
    levelAfter? n (xs ++ ys) = (levelAfter? n xs).bind (levelAfter? · ys) :=
  List.foldlM_append

theorem levelAfter?_cons (n : Nat) (e : Edit) (edits : List Edit) :
    levelAfter? n (e :: edits) = (e.levelAfter? n).bind (levelAfter? · edits) := rfl

/-- This is the level of the stream. -/
theorem depth_of_levelAfter? {n m : Nat} {edits : List Edit} {s : Stream} (hs : s.depth = n)
    (h : levelAfter? n edits = some m) : (edits.foldl Stream.apply s).depth = m := by
  induction edits generalizing n s with
  | nil => exact hs.trans (Option.some.inj h)
  | cons e edits ih =>
    rw [levelAfter?_cons, Option.bind_eq_some_iff] at h
    obtain ⟨k, hk, h⟩ := h
    refine ih ?_ h
    subst hs
    cases e with
    | line | opening | indent => exact Option.some.inj hk
    | closing | dedent =>
      rw [Edit.levelAfter?, Option.ite_none_left_eq_some] at hk
      exact Option.some.inj hk.2

/-- The level behind code depends on the level in front of it only. -/
theorem depth_foldl {s s' : Stream} (h : s.depth = s'.depth) (edits : List Edit) :
    (edits.foldl Stream.apply s).depth = (edits.foldl Stream.apply s').depth := by
  induction edits generalizing s s' with
  | nil => exact h
  | cons e edits ih =>
    refine ih ?_
    cases e with
    | line => exact h
    | opening | indent => exact congrArg (· + 1) h
    | closing | dedent => exact congrArg (· - 1) h

theorem levelAfter?_add {n m : Nat} {edits : List Edit} (h : levelAfter? n edits = some m)
    (k : Nat) : levelAfter? (n + k) edits = some (m + k) := by
  induction edits generalizing n with
  | nil => exact congrArg some (by rw [Option.some.inj h])
  | cons e edits ih =>
    rw [levelAfter?_cons, Option.bind_eq_some_iff] at h ⊢
    obtain ⟨n', hn', h⟩ := h
    refine ⟨n' + k, ?_, ih h⟩
    cases e with
    | line => exact congrArg some (by rw [Option.some.inj hn'])
    | opening | indent => exact congrArg some (by rw [← Option.some.inj hn']; omega)
    | closing | dedent =>
      rw [Edit.levelAfter?, Option.ite_none_left_eq_some] at hn' ⊢
      exact ⟨by omega, congrArg some (by rw [← Option.some.inj hn'.2]; omega)⟩

/-! ## Blocks -/

/-- A part of code that returns to its level and goes no further back, with braces that pair up.
    The flags tell whether a `dedent` comes directly before, and whether one ends the part. -/
structure IsBlock (before : Bool) (edits : List Edit) (after : Bool) : Prop where
  level : ∀ n, levelAfter? n edits = some n
  paired : IsPaired (bracesFrom before edits)
  ends : endsBack before edits = after

/-- What follows an opening line, up to the line that closes it. -/
structure IsRest (edits : List Edit) : Prop where
  level : ∀ n, levelAfter? (n + 1) edits = some n
  /-- One closing brace is left over. -/
  paired : ∃ v w, IsPaired v ∧ IsPaired w ∧ bracesFrom false edits = v ++ D :: w
  ends : endsBack false edits = false

/-- A part that may stand directly behind a `dedent`, as the cases of a switch do. -/
def IsCase (edits : List Edit) : Prop := ∀ before, ∃ after, IsBlock before edits after

section
variable {b b' b'' : Bool} {xs ys body rest : List Edit} {text head tail : String} {α : Type}

namespace IsBlock

theorem nil (b : Bool) : IsBlock b [] b := ⟨fun _ => rfl, .nil, rfl⟩

theorem append (hx : IsBlock b xs b') (hy : IsBlock b' ys b'') : IsBlock b (xs ++ ys) b'' where
  level n := by rw [levelAfter?_append, hx.level, Option.bind_some, hy.level]
  paired := by
    rw [bracesFrom_append, hx.ends]
    exact hx.paired.append hy.paired
  ends := by rw [endsBack_append, hx.ends, hy.ends]

theorem flatMap {zs : List α} {f : α → List Edit} (h : ∀ z ∈ zs, IsBlock b (f z) b) :
    IsBlock b (zs.flatMap f) b := by
  induction zs with
  | nil => exact nil b
  | cons z zs ih =>
    rw [List.flatMap_cons]
    exact (h z (by simp)).append (ih fun y hy => h y (by simp [hy]))

/-- Any text may stand in a line that is not directly behind a `dedent`. -/
theorem line (text : String) : IsBlock false [.line text] false := ⟨fun _ => rfl, .nil, rfl⟩

theorem lines (f : α → String) (zs : List α) :
    IsBlock false (zs.map fun z => .line (f z)) false := by
  rw [List.map_eq_flatMap]
  exact flatMap fun z _ => line (f z)

theorem cons_line (text : String) (h : IsBlock false xs b) : IsBlock false (.line text :: xs) b :=
  (line text).append h

theorem braced (hhead : head.toList.head? ≠ some '\x7d') (h : IsRest rest) :
    IsBlock b (.opening head :: rest) false where
  level n := (levelAfter?_cons ..).trans (h.level n)
  paired := by
    obtain ⟨v, w, hv, hw, hbraces⟩ := h.paired
    rw [bracesFrom, endBraces_openingText hhead, hbraces]
    exact hv.enclose hw
  ends := h.ends

end IsBlock

namespace IsRest

theorem close (h : IsBlock false body b) (htail : tail.toList.getLast? ≠ some '\x7b') :
    IsRest (body ++ [.closing tail]) where
  level n := by
    rw [levelAfter?_append, h.level]
    rfl
  paired := by
    refine ⟨_, [], h.paired, .nil, ?_⟩
    rw [bracesFrom_append, bracesFrom, endBraces_closing htail]
    rfl
  ends := endsBack_append ..

/-- A line a step back: it holds no braces at its ends, or closes one and opens the next. -/
theorem behind (h : IsBlock false body b) (htext : endBraces text = [] ∨ endBraces text = [D, U])
    (hrest : IsRest rest) : IsRest (body ++ ([.dedent, .line text, .indent] ++ rest)) where
  level n := by
    rw [levelAfter?_append, h.level, Option.bind_some, levelAfter?_append]
    exact hrest.level n
  paired := by
    obtain ⟨v, w, hv, hw, hbraces⟩ := hrest.paired
    have hsteps : bracesFrom false (body ++ ([.dedent, .line text, .indent] ++ rest)) =
        bracesFrom false body ++ (endBraces text ++ (v ++ D :: w)) := by
      rw [bracesFrom_append, ← hbraces]
      rfl
    rcases htext with htext | htext
    · refine ⟨_, w, h.paired.append hv, hw, ?_⟩
      rw [hsteps, htext, List.nil_append, List.append_assoc]
    · refine ⟨_, _, h.paired, hv.enclose hw, ?_⟩
      rw [hsteps, htext]
      rfl
  ends := by
    rw [endsBack_append]
    exact hrest.ends

end IsRest

namespace IsCase

theorem nil : IsCase [] := fun b => ⟨b, .nil b⟩

theorem append (hx : IsCase xs) (hy : IsCase ys) : IsCase (xs ++ ys) := fun b =>
  have ⟨b', hx⟩ := hx b
  have ⟨b'', hy⟩ := hy b'
  ⟨b'', hx.append hy⟩

theorem flatMap {zs : List α} {f : α → List Edit} (h : ∀ z ∈ zs, IsCase (f z)) :
    IsCase (zs.flatMap f) := by
  induction zs with
  | nil => exact nil
  | cons z zs ih =>
    rw [List.flatMap_cons]
    exact (h z (by simp)).append (ih fun y hy => h y (by simp [hy]))

/-- Code one level deeper than a line in front of it. -/
theorem labelled (hlabel : endBraces text = []) (h : IsBlock false body b) :
    IsCase ([.line text, .indent] ++ body ++ [.dedent]) := fun b' => ⟨true, {
  level n := by
    have hinside : levelAfter? n ([.line text, .indent] ++ body) = some (n + 1) := by
      rw [levelAfter?_append]
      exact h.level (n + 1)
    rw [levelAfter?_append, hinside]
    rfl
  paired := by
    rw [bracesFrom_append, bracesFrom_append]
    simpa [bracesFrom, endsBack, hlabel] using h.paired
  ends := endsBack_append .. }⟩

end IsCase

/-! ## Blocks in code -/

theorem IsBlock.depthAfter_append (h : IsBlock b xs b') (ys : List Edit) :
    depthAfter (xs ++ ys) = depthAfter ys := by
  rw [depthAfter, List.foldl_append]
  exact depth_foldl (depth_of_levelAfter? rfl (h.level 0)) ys

/-- Behind an opening line the code of a block is deeper. -/
theorem IsBlock.depthAfter_opening_pos (h : IsBlock b (xs ++ ys) b') (head : String) :
    0 < depthAfter (.opening head :: xs) := by
  have hlevel := h.level 0
  rw [levelAfter?_append, Option.bind_eq_some_iff] at hlevel
  obtain ⟨k, hk, -⟩ := hlevel
  have hdepth : depthAfter (.opening head :: xs) = k + 1 :=
    depth_of_levelAfter? rfl (levelAfter?_add hk 1)
  omega

/-- The level in front of an edit is that of the stream, and a step back finds one to leave. -/
theorem IsBlock.isBalanced (h : IsBlock false xs b) : IsBalanced xs where
  back pre e post hxs he := by
    have hlevel := h.level 0
    rw [hxs, levelAfter?_append, Option.bind_eq_some_iff] at hlevel
    obtain ⟨k, hpre, hrest⟩ := hlevel
    rw [depthAfter, depth_of_levelAfter? rfl hpre]
    refine Nat.pos_of_ne_zero ?_
    rintro rfl
    cases e with
    | line | opening | indent => cases he
    | closing | dedent => cases hrest
  depth_eq := depth_of_levelAfter? rfl (h.level 0)
  paired := h.paired

end

end ObjectLowering.Code
