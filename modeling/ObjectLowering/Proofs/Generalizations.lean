/-
  The search for classifiers that generalize themselves.

  * `Registry.Search`: the search as it goes, with the path that it came on
    and no bound on its depth.  It ends on every registry, and its answer is
    that of `isCyclic` (`search_iff`).
  * `isCyclic_iff`: what it finds is whether a classifier leads into a circle
    of generalizations, which is more than being on one.
  * `validate_circles`: so validating reports the classifiers that generalize
    themselves, and those that merely inherit from one
    (`band_reported_as_circle`).
-/
import Mathlib.Data.List.Perm.Subperm
import Mathlib.Logic.Relation
import ObjectLowering.Model.Validate
import ObjectLowering.Proofs.MemberPaths

namespace ObjectLowering.Model.Registry

open Relation
open Text (quote)

/-- The classifier `x` has a generalization that resolves to `y`; both are given by their ids. -/
def Extends (r : Registry) (x y : String) : Prop := ∃ b ∈ r.bases x, b.id = y

/-- The classifier is reached from itself over one or more generalizations. -/
def GeneralizesItself (r : Registry) (x : String) : Prop := TransGen r.Extends x x

/-- The classifier generalizes itself, or one that it inherits from does. -/
def LeadsIntoCircle (r : Registry) (x : String) : Prop :=
  ∃ y, ReflTransGen r.Extends x y ∧ r.GeneralizesItself y

/-! ## The search -/

/-- The answer of the search for a classifier below a path: it is on the path, or one of its bases
    is found, the first ones not, or none is. -/
inductive Search (r : Registry) : List String → String → Bool → Prop where
  | onPath {path : List String} {x : String} (h : x ∈ path) : Search r path x true
  | found {path : List String} {x : String} {before after : List Classifier} {b : Classifier}
    (h : x ∉ path) (hbases : r.bases x = before ++ b :: after)
    (hbefore : ∀ a ∈ before, Search r (x :: path) a.id false)
    (hb : Search r (x :: path) b.id true) : Search r path x true
  | nowhere {path : List String} {x : String} (h : x ∉ path)
    (hbases : ∀ b ∈ r.bases x, Search r (x :: path) b.id false) : Search r path x false

section
variable {r : Registry} {path : List String} {x : String} {depth : Nat} {b : Classifier}

theorem Search.unique {a a' : Bool} (h : r.Search path x a) (h' : r.Search path x a') : a = a' := by
  induction h generalizing a' with
  | onPath h =>
    cases h' with
    | onPath => rfl
    | found => rfl
    | nowhere hn => exact absurd h hn
  | found hn hbases _ _ _ ih =>
    cases h' with
    | onPath => rfl
    | found => rfl
    | nowhere _ hnone => exact ih (hnone _ (by simp [hbases]))
  | nowhere hn _ ih =>
    cases h' with
    | onPath h => exact absurd h hn
    | @found _ _ _ _ b _ hbases _ hb => exact ih b (by simp [hbases]) hb
    | nowhere => rfl

theorem id_mem_of_mem_bases (h : b ∈ r.bases x) : b.id ∈ r.classifiers.map (·.id) := by
  obtain ⟨g, -, hg⟩ := List.mem_filterMap.1 h
  exact List.mem_map_of_mem (Lowering.mem_classifiers hg)

/-- A path down to a classifier: no id twice, and as many steps left as the bound allows. -/
structure Descent (r : Registry) (depth : Nat) (path : List String) (x : String) : Prop where
  nodup : path.Nodup
  known : x :: path ⊆ r.classifiers.map (·.id)
  bound : r.classifiers.length < depth + path.length

theorem Descent.length_le (h : r.Descent depth path x) : path.length ≤ r.classifiers.length := by
  have hsub : path ⊆ r.classifiers.map (·.id) := fun y hy => h.known (List.mem_cons_of_mem _ hy)
  have hle := (h.nodup.subperm hsub).length_le
  rwa [List.length_map] at hle

theorem Descent.step (h : r.Descent (depth + 1) path x) (hx : x ∉ path) (hb : b ∈ r.bases x) :
    r.Descent depth (x :: path) b.id where
  nodup := List.nodup_cons.2 ⟨hx, h.nodup⟩
  known := List.cons_subset.2 ⟨id_mem_of_mem_bases hb, h.known⟩
  bound := by
    have := h.bound
    rw [List.length_cons]
    omega

/-- The first item with a property, if there is one. -/
theorem exists_first {p : Classifier → Bool} {bs : List Classifier} (h : bs.any p = true) :
    ∃ before b after, bs = before ++ b :: after ∧ p b = true ∧ ∀ a ∈ before, p a = false := by
  cases hfind : bs.find? p with
  | none =>
    obtain ⟨b, hb, hp⟩ := List.any_eq_true.1 h
    exact absurd hp (List.find?_eq_none.1 hfind b hb)
  | some b =>
    obtain ⟨hp, before, after, hsplit, hbefore⟩ := List.find?_eq_some_iff_append.1 hfind
    exact ⟨before, b, after, hsplit, hp, fun a ha => by simpa using hbefore a ha⟩

/-- On a descent the bound is never reached: the search ends before. -/
theorem search_isCyclicFrom (h : r.Descent depth path x) :
    r.Search path x (r.isCyclicFrom depth path x) := by
  induction depth generalizing path x with
  | zero =>
    have hbound := h.bound
    have hle := h.length_le
    omega
  | succ depth ih =>
    rw [isCyclicFrom]
    by_cases hx : x ∈ path
    · rw [List.contains_iff_mem.2 hx, Bool.true_or]
      exact .onPath hx
    · rw [Bool.eq_false_iff.2 fun hc => hx (List.contains_iff_mem.1 hc), Bool.false_or]
      have hsearch := fun b (hb : b ∈ r.bases x) => ih (h.step hx hb)
      cases hany : (r.bases x).any fun b => r.isCyclicFrom depth (x :: path) b.id with
      | true =>
        obtain ⟨before, b, after, hbases, hb, hbefore⟩ := exists_first hany
        refine .found hx hbases (fun a ha => ?_) ?_
        · rw [← hbefore a ha]
          exact hsearch a (by simp [hbases, ha])
        · rw [← hb]
          exact hsearch b (by simp [hbases])
      | false =>
        refine .nowhere hx fun b hb => ?_
        rw [← Bool.eq_false_iff.2 (List.any_eq_false.1 hany b hb)]
        exact hsearch b hb

theorem descent_of_mem {c : Classifier} (hc : c ∈ r.classifiers) :
    r.Descent (r.classifiers.length + 1) [] c.id where
  nodup := List.nodup_nil
  known := List.cons_subset.2 ⟨List.mem_map_of_mem hc, List.nil_subset _⟩
  bound := by simp

/-- **The search ends**, whatever the generalizations, with the answer that is reported. -/
theorem search_iff {c : Classifier} (hc : c ∈ r.classifiers) (answer : Bool) :
    r.Search [] c.id answer ↔ answer = r.isCyclic c.id := by
  have hsearch : r.Search [] c.id (r.isCyclic c.id) := search_isCyclicFrom (descent_of_mem hc)
  exact ⟨fun h => h.unique hsearch, fun h => h ▸ hsearch⟩

/-! ## What is found -/

/-- Below a path, the search finds classifiers that lead back to the path or into a circle. -/
theorem Search.eq_true_iff {answer : Bool} (h : r.Search path x answer) :
    answer = true ↔ ∃ y, ReflTransGen r.Extends x y ∧ (y ∈ path ∨ r.GeneralizesItself y) := by
  induction h with
  | onPath h => exact ⟨fun _ => ⟨_, .refl, Or.inl h⟩, fun _ => rfl⟩
  | @found path x before after b _ hbases _ _ _ ih =>
    refine ⟨fun _ => ?_, fun _ => rfl⟩
    have hstep : r.Extends x b.id := ⟨b, by rw [hbases]; simp, rfl⟩
    obtain ⟨y, hy, hend⟩ := ih.1 rfl
    rcases hend with hpath | hcircle
    · rcases List.mem_cons.1 hpath with rfl | hpath
      · exact ⟨y, .refl, Or.inr (TransGen.head' hstep hy)⟩
      · exact ⟨y, hy.head hstep, Or.inl hpath⟩
    · exact ⟨y, hy.head hstep, Or.inr hcircle⟩
  | @nowhere path x hx _ ih =>
    refine iff_of_false Bool.false_ne_true ?_
    rintro ⟨y, hy, hend⟩
    -- the way to `y`, or round the circle if `y` is `x` itself, begins with a base of `x`
    obtain ⟨b, hb, z, hz, hzend⟩ : ∃ b ∈ r.bases x, ∃ z, ReflTransGen r.Extends b.id z ∧
        (z ∈ x :: path ∨ r.GeneralizesItself z) := by
      rcases ReflTransGen.cases_head hy with rfl | ⟨_, ⟨b, hb, rfl⟩, hrest⟩
      · obtain ⟨_, ⟨b, hb, rfl⟩, hback⟩ := TransGen.head'_iff.1 (hend.resolve_left hx)
        exact ⟨b, hb, x, hback, Or.inl List.mem_cons_self⟩
      · exact ⟨b, hb, y, hrest, hend.imp_left (List.mem_cons_of_mem _)⟩
    exact Bool.false_ne_true ((ih b hb).2 ⟨z, hz, hzend⟩)

/-- **What the search finds** are the classifiers that lead into a circle. -/
theorem isCyclic_iff {c : Classifier} (hc : c ∈ r.classifiers) :
    r.isCyclic c.id = true ↔ r.LeadsIntoCircle c.id := by
  rw [((search_iff hc _).2 rfl).eq_true_iff]
  simp [LeadsIntoCircle]

end

/-! ## The report -/

/-- The report on a classifier that is found. -/
def circleReport (name : String) : String := "classifier " ++ quote name ++ " generalizes itself"

/-- A report on something else, by its first or its last letter. -/
def IsOther (report : String) : Prop :=
  report.toList.head? ≠ some 'c' ∨ report.toList.getLast? ≠ some 'f'

theorem IsOther.ne {report : String} (h : IsOther report) (name : String) :
    report ≠ circleReport name := by
  rintro rfl
  rcases h with h | h
  · exact h (by simp [circleReport])
  · refine h ?_
    rw [circleReport, String.toList_append, List.getLast?_append]
    rfl

theorem count_of_isOther {reports : List String} (h : ∀ x ∈ reports, IsOther x) (name : String) :
    reports.count (circleReport name) = 0 :=
  List.count_eq_zero.2 fun hmem => (h _ hmem).ne name rfl

theorem isOther_quote (s rest : String) : IsOther (quote s ++ rest) := by
  left
  simp [quote]

theorem isOther_countProblems (path noun : String) (count : Nat) :
    ∀ x ∈ countProblems path noun count, IsOther x := by
  unfold countProblems
  split_ifs
  · simp only [List.mem_singleton, forall_eq, String.append_assoc]
    exact isOther_quote _ _
  · simp

mutual

theorem isOther_vertexProblems (r : Registry) (path : String) :
    ∀ v : VertexTree, ∀ x ∈ vertexProblems r path v, IsOther x
  | .pseudo p => by
    rw [vertexProblems]
    split_ifs
    · simp [IsOther]
    · simp
  | .state s children => by
    intro x hx
    simp only [vertexProblems, List.mem_append] at hx
    rcases hx with (hx | hx) | (hx | hx) | hx
    · split_ifs at hx
      · simp_all [IsOther]
      · cases hx
    · split_ifs at hx
      · simp_all [IsOther]
      · cases hx
    · exact isOther_vertexListProblems r _ children x hx
    · exact isOther_countProblems _ _ _ x hx
    · exact isOther_countProblems _ _ _ x hx

theorem isOther_vertexListProblems (r : Registry) (path : String) :
    ∀ vs : List VertexTree, ∀ x ∈ vertexListProblems r path vs, IsOther x
  | [] => by simp [vertexListProblems]
  | v :: rest => by
    intro x hx
    rw [vertexListProblems, List.mem_append] at hx
    rcases hx with hx | hx
    · exact isOther_vertexProblems r path v x hx
    · exact isOther_vertexListProblems r path rest x hx

end

theorem isOther_levelProblems (r : Registry) (path : String) (vs : List VertexTree) :
    ∀ x ∈ levelProblems r path vs, IsOther x := by
  intro x hx
  rw [levelProblems, List.mem_append, List.mem_append] at hx
  rcases hx with (hx | hx) | hx
  · exact isOther_vertexListProblems r path vs x hx
  · exact isOther_countProblems _ _ _ x hx
  · exact isOther_countProblems _ _ _ x hx

theorem isOther_diagnostic (d : Diagnostic) :
    IsOther (d.code.text ++ " " ++ d.element ++ ": " ++ d.message) := by
  left
  cases d.code <;> simp [DiagnosticCode.text]

theorem isOther_twice (name declared : String) :
    IsOther ("classifier " ++ quote name ++ " declares attribute " ++ declared ++ " twice") := by
  right
  rw [String.toList_append, List.getLast?_append]
  simp

/-- Of the reports on a classifier, the one that it generalizes itself is there once or not at
    all. -/
theorem count_classifierProblems (r : Registry) (c : Classifier) (name : String) :
    (r.classifierProblems c).count (circleReport name) =
      if circleReport c.name = circleReport name ∧ r.isCyclic c.id = true then 1 else 0 := by
  have henumeration : IsOther ("enumeration " ++ quote c.name ++
      " must declare at least one literal") := by simp [IsOther]
  have hprimitive : IsOther ("primitive type " ++ quote c.name ++
      " must declare an alias base") := by simp [IsOther]
  have htwice : ∀ x ∈ (repeated [] ((r.owned c.id).attributes.map (·.name))).map fun n =>
      "classifier " ++ quote c.name ++ " declares attribute " ++ quote n ++ " twice",
      IsOther x := by
    intro x hx
    obtain ⟨n, -, rfl⟩ := List.mem_map.1 hx
    exact isOther_twice _ _
  have hlevels : ∀ x ∈ (r.owned c.id).machines.flatMap fun m =>
      r.levelProblems m.name (r.machineTrees m.id), IsOther x := by
    intro x hx
    obtain ⟨m, -, hx⟩ := List.mem_flatMap.1 hx
    exact isOther_levelProblems r _ _ x hx
  have hown : (if r.isCyclic c.id then ["classifier " ++ quote c.name ++ " generalizes itself"]
      else []).count (circleReport name) =
      if circleReport c.name = circleReport name ∧ r.isCyclic c.id = true then 1 else 0 := by
    have hreport : "classifier " ++ quote c.name ++ " generalizes itself" = circleReport c.name :=
      rfl
    rw [hreport]
    by_cases hc : r.isCyclic c.id = true
    · rw [if_pos hc, List.count_singleton]
      simp [hc]
    · rw [if_neg hc, if_neg fun h => hc h.2]
      rfl
  simp only [classifierProblems, List.count_append]
  rw [count_of_isOther htwice, count_of_isOther hlevels, hown, count_of_isOther, count_of_isOther]
  · omega
  · split_ifs
    · simpa using hprimitive
    · simp
  · split_ifs
    · simpa using henumeration
    · simp

theorem count_flatMap_of_ite {xs : List Classifier} {reports : Classifier → List String}
    {p : Classifier → Prop} [DecidablePred p] {report : String}
    (h : ∀ c, (reports c).count report = if p c then 1 else 0) :
    (xs.flatMap reports).count report = xs.countP fun c => p c := by
  induction xs with
  | nil => rfl
  | cons c xs ih =>
    rw [List.flatMap_cons, List.count_append, ih, h, List.countP_cons, Nat.add_comm]
    simp

/-- The reports that a classifier generalizes itself, in a prepared registry. -/
structure CircleReports (r : Registry) : Prop where
  /-- The search ends with the answer that is reported. -/
  ends : ∀ c ∈ r.classifiers, ∀ answer, r.Search [] c.id answer ↔ answer = r.isCyclic c.id
  /-- A classifier is reported iff it leads into a circle, and then once. -/
  reported : ∀ c ∈ r.classifiers, circleReport c.name ∈ r.classifierProblems c ↔
    r.LeadsIntoCircle c.id
  once : ∀ c, (r.classifierProblems c).count (circleReport c.name) ≤ 1
  /-- All reports with one text are on classifiers with one name. -/
  count : ∀ name, r.problems.count (circleReport name) = r.classifiers.countP fun c =>
    circleReport c.name = circleReport name ∧ r.isCyclic c.id = true
  /-- So the reports are right exactly if no classifier inherits from one that generalizes itself
      without doing so itself. -/
  right_iff : (∀ c ∈ r.classifiers, circleReport c.name ∈ r.classifierProblems c ↔
      r.GeneralizesItself c.id) ↔
    ∀ c ∈ r.classifiers, r.LeadsIntoCircle c.id → r.GeneralizesItself c.id

theorem mem_classifierProblems_iff {r : Registry} {c : Classifier} (hc : c ∈ r.classifiers) :
    circleReport c.name ∈ r.classifierProblems c ↔ r.LeadsIntoCircle c.id := by
  rw [← isCyclic_iff hc, ← List.count_pos_iff, count_classifierProblems]
  split_ifs with h
  · exact iff_of_true Nat.one_pos h.2
  · exact iff_of_false (Nat.lt_irrefl 0) fun hcyclic => h ⟨rfl, hcyclic⟩

theorem GeneralizesItself.leadsIntoCircle {r : Registry} {x : String} (h : r.GeneralizesItself x) :
    r.LeadsIntoCircle x := ⟨x, .refl, h⟩

/-- **Who is reported to generalize itself**, when a registry is validated: whoever leads into a
    circle of generalizations. -/
theorem validate_circles (r : Registry) :
    CircleReports r.prepare ∧
      r.validate = if r.prepare.problems = [] then none else
        some (String.intercalate "; " r.prepare.problems) := by
  refine ⟨{
    ends := fun c hc answer => search_iff hc answer
    reported := fun c hc => mem_classifierProblems_iff hc
    once := fun c => ?_
    count := fun name => ?_
    right_iff := ⟨fun h c hc hleads => ?_, fun h c hc => ?_⟩ }, ?_⟩
  · rw [count_classifierProblems]
    split_ifs <;> omega
  · have hdiagnostics : ∀ x ∈ (r.prepare.diagnostics.filter (·.severity == .error)).map fun d =>
        d.code.text ++ " " ++ d.element ++ ": " ++ d.message, IsOther x := by
      intro x hx
      obtain ⟨d, -, rfl⟩ := List.mem_map.1 hx
      exact isOther_diagnostic d
    rw [problems, Text.sortTexts, (List.mergeSort_perm _ _).count_eq, List.count_append,
      count_of_isOther hdiagnostics, Nat.zero_add]
    exact count_flatMap_of_ite fun c => count_classifierProblems r.prepare c name
  · exact (h c hc).1 ((mem_classifierProblems_iff hc).2 hleads)
  · rw [mem_classifierProblems_iff hc]
    exact ⟨h c hc, GeneralizesItself.leadsIntoCircle⟩
  · rw [validate]
    cases r.prepare.problems with
    | nil => rfl
    | cons p ps => rfl

/-! A ring that generalizes itself, and a band that inherits from the ring. -/

def jewels : Registry := { elements := [
  .classifier { id := "ring", name := "Ring" },
  .classifier { id := "band", name := "Band" },
  .generalization { id := "g1", parent := "ring", general := "ring" },
  .generalization { id := "g2", parent := "band", general := "ring" }] }

/-- The band is reported as well, although no way leads back to it. -/
theorem band_reported_as_circle :
    circleReport "Band" ∈ jewels.prepare.problems ∧
    ¬ jewels.prepare.GeneralizesItself "band" := by
  refine ⟨?_, fun h => ?_⟩
  · have hreport : circleReport "Band" ∈
        jewels.prepare.classifiers.flatMap jewels.prepare.classifierProblems := by decide +kernel
    rw [problems, Text.sortTexts, List.mem_mergeSort]
    exact List.mem_append_right _ hreport
  have hbases : ∀ x ∈ ["ring", "band"], (jewels.prepare.bases x).map (·.id) = ["ring"] := by
    decide +kernel
  have hring : ∀ x ∈ ["ring", "band"], ∀ y, jewels.prepare.Extends x y → y = "ring" := by
    rintro x hx y ⟨b, hb, rfl⟩
    have hmem := List.mem_map_of_mem (f := fun b : Classifier => b.id) hb
    rw [hbases x hx] at hmem
    exact List.mem_singleton.1 hmem
  -- every step from the band or the ring leads to the ring
  have hall : ∀ y, TransGen jewels.prepare.Extends "band" y → y = "ring" := by
    intro y hy
    induction hy with
    | single h => exact hring "band" (by simp) _ h
    | tail _ h ih => exact hring _ (by simp [ih]) _ h
  exact absurd (hall "band" h) (by decide)

end ObjectLowering.Model.Registry
