/-
  What the class filter does to files.

  The filter keeps the units of given names, and files are made among the
  units that are kept.  A header takes the class keys of its forward
  declarations from these units, so a struct that is left out is declared as
  a class.

  * `forwardLine_selectUnits`: this is all that the filter changes in a
    forward declaration.
  * `headerFile_content`: what stands around the forward declarations of a
    header depends on its unit alone.
  * `assemble_selectUnits`: so the filter only selects among the files iff no
    unit that is kept forward declares a struct that is left out.
-/
import ObjectLowering.Proofs.FileNames
import ObjectLowering.Run.Generate

namespace ObjectLowering

/-! ## Edits one after the other -/

namespace Code

theorem Stream.lines_foldl (s : Stream) (es : List Edit) :
    (es.foldl Stream.apply s).lines.toList =
      s.lines.toList ++ (es.foldl Stream.apply { depth := s.depth }).lines.toList := by
  induction es generalizing s with
  | nil => simp
  | cons e es ih =>
    rw [List.foldl_cons, List.foldl_cons, ih (s.apply e), ih (Stream.apply { depth := s.depth } e)]
    cases e <;> simp [Stream.apply, Stream.line]

theorem render_append {es : List Edit} (h : (es.foldl Stream.apply {}).depth = 0)
    (fs : List Edit) : render (es ++ fs) = render es ++ render fs := by
  rw [render, List.foldl_append, Stream.text, Stream.lines_foldl, h, List.map_append,
    String.join_append]
  rfl

theorem render_line {text : String} (h : text ≠ "") : render [.line text] = text ++ "\n" := by
  simp [render, Stream.apply, Stream.line, Stream.text, h, indented, String.join]

/-- The edits are lines, so they leave the indentation as it is. -/
def AreLines (es : List Edit) : Prop := ∃ texts : List String, es = texts.map Edit.line

theorem AreLines.render_append {es : List Edit} (h : AreLines es) (fs : List Edit) :
    render (es ++ fs) = render es ++ render fs := by
  obtain ⟨texts, rfl⟩ := h
  exact Code.render_append (depth_foldl_lines {} texts) fs

theorem AreLines.append {es fs : List Edit} (h : AreLines es) (h' : AreLines fs) :
    AreLines (es ++ fs) := by
  obtain ⟨texts, rfl⟩ := h
  obtain ⟨more, rfl⟩ := h'
  exact ⟨texts ++ more, List.map_append.symm⟩

theorem areLines_map {α : Type} (text : α → String) (xs : List α) :
    AreLines (xs.map fun x => Edit.line (text x)) := ⟨xs.map text, by simp⟩

end Code

namespace Artifact

open Lowering Code Text Run

variable {l : Layout} {names : List String} {units : List CodeUnit} {u : CodeUnit}

/-! ## Units that are kept -/

/-- A filter keeps the units of its names; an empty one keeps all. -/
def isKept (names : List String) (name : String) : Bool := names.isEmpty || names.contains name

theorem selectUnits_eq (names : List String) (units : List CodeUnit) :
    selectUnits names units = units.filter fun u => isKept names u.name := by
  rw [selectUnits]
  split_ifs with h
  · simp [isKept, h]
  · simp [isKept, h]

theorem familyOf_selectUnits (names : List String) (units : List CodeUnit) (name : String) :
    familyOf (selectUnits names units) name =
      if isKept names name then familyOf units name else none := by
  rw [selectUnits_eq, familyOf, familyOf, ← List.filter_reverse, List.find?_filter]
  split_ifs with h
  · -- a unit with the name is kept, so the last one of the name is found again
    congr 2
    funext v
    by_cases hv : v.name = name
    · simp [hv, h]
    · simp [hv]
  · rw [List.find?_eq_none.2, Option.map_none]
    intro v _ hv
    obtain ⟨hkept, rfl⟩ : isKept names v.name = true ∧ v.name = name := by simpa using hv
    exact h hkept

/-! ## Forward declarations -/

/-- A struct among units that a filter leaves out. -/
def isLostStruct (names : List String) (units : List CodeUnit) (name : String) : Bool :=
  !isKept names name && decide (familyOf units name = some .struct)

/-- **Forward declarations under a filter**: a struct that is left out is taken for a class. -/
theorem forwardLine_selectUnits (names : List String) (units : List CodeUnit) (name : String) :
    forwardLine (selectUnits names units) name =
      if isLostStruct names units name then "class " ++ name ++ ";"
      else forwardLine units name := by
  rw [forwardLine, familyOf_selectUnits, isLostStruct, forwardLine]
  by_cases hkept : isKept names name = true
  · simp [hkept]
  · by_cases hstruct : familyOf units name = some .struct <;> simp [hkept, hstruct]

theorem forwardLine_of_isLostStruct {name : String} (h : isLostStruct names units name = true) :
    forwardLine units name = "struct " ++ name ++ ";" := by
  rw [isLostStruct, Bool.and_eq_true, decide_eq_true_eq] at h
  rw [forwardLine, if_pos h.2]

/-- A forward declaration that says `struct` is one character longer. -/
theorem length_forwardLine (names : List String) (units : List CodeUnit) (name : String) :
    (forwardLine units name).length = (forwardLine (selectUnits names units) name).length +
      if isLostStruct names units name then 1 else 0 := by
  rw [forwardLine_selectUnits]
  split_ifs with h
  · have hwords : "struct ".length = "class ".length + 1 := by decide
    rw [forwardLine_of_isLostStruct h]
    simp only [String.length_append, hwords]
    omega
  · rfl

theorem forwardLine_ne_empty (units : List CodeUnit) (name : String) :
    forwardLine units name ≠ "" := by
  rw [forwardLine]
  split_ifs <;> simp

theorem length_render_forwards (names : List String) (units : List CodeUnit)
    (forwards : List String) :
    (render (forwards.map fun n => .line (forwardLine units n))).length =
      (render (forwards.map fun n => .line (forwardLine (selectUnits names units) n))).length +
        forwards.countP (isLostStruct names units) := by
  induction forwards with
  | nil => rfl
  | cons n forwards ih =>
    have hcons : ∀ vs, render ((n :: forwards).map fun n => .line (forwardLine vs n)) =
        forwardLine vs n ++ "\n" ++ render (forwards.map fun n => .line (forwardLine vs n)) := by
      intro vs
      have hfirst := (areLines_map (forwardLine vs) [n]).render_append
        (forwards.map fun n => .line (forwardLine vs n))
      rw [List.map_singleton, List.singleton_append,
        render_line (forwardLine_ne_empty vs n)] at hfirst
      exact hfirst
    have hline := length_forwardLine names units n
    rw [hcons, hcons, List.countP_cons]
    simp only [String.length_append]
    omega

/-! ## Headers -/

/-- The edits of a header in front of its forward declarations. -/
def headerFront (l : Layout) (u : CodeUnit) : List Edit :=
  [.line banner, .line ("#ifndef " ++ includeGuard u.name),
    .line ("#define " ++ includeGuard u.name), .line ""] ++
    includeEdits l u ++ [.line ""] ++ scopeStart l.scope

/-- The edits of a header behind its forward declarations. -/
def headerBack (l : Layout) (u : CodeUnit) : List Edit :=
  bodyEdits u.declaration ++ scopeEnd l.scope ++
    [.line "", .line ("#endif // " ++ includeGuard u.name)]

theorem areLines_includeEdits (l : Layout) (u : CodeUnit) : AreLines (includeEdits l u) := by
  have hruntime : AreLines (if u.family = .simObject then
      [.line "", .line ("#include \"" ++ l.runtime ++ "\"")] else []) := by
    split_ifs
    · exact ⟨["", _], rfl⟩
    · exact ⟨[], rfl⟩
  refine ((areLines_map _ u.needs.headers).append hruntime).append ?_
  split_ifs
  · exact ⟨[], rfl⟩
  · exact AreLines.append ⟨[""], rfl⟩ (areLines_map _ u.needs.includes)

theorem areLines_headerFront (l : Layout) (u : CodeUnit) : AreLines (headerFront l u) := by
  have hscope : AreLines (scopeStart l.scope) := by
    unfold scopeStart
    split_ifs
    · exact ⟨[], rfl⟩
    · exact ⟨[_, _], rfl⟩
  have hguard : AreLines [.line banner, .line ("#ifndef " ++ includeGuard u.name),
      .line ("#define " ++ includeGuard u.name), .line ""] := ⟨[_, _, _, _], rfl⟩
  exact ((hguard.append (areLines_includeEdits l u)).append ⟨[""], rfl⟩).append hscope

theorem areLines_forwardEdits (units : List CodeUnit) (u : CodeUnit) :
    AreLines (forwardEdits units u) := by
  unfold forwardEdits
  split_ifs
  · exact ⟨[], rfl⟩
  · exact (areLines_map (forwardLine units) u.needs.forwards).append ⟨[""], rfl⟩

/-- **Headers among units**: only the forward declarations depend on the other units. -/
theorem headerFile_content (l : Layout) (units : List CodeUnit) (u : CodeUnit) :
    (headerFile l units u).content =
      render (headerFront l u) ++ (render (forwardEdits units u) ++ render (headerBack l u)) := by
  have hedits : headerEdits l units u =
      headerFront l u ++ (forwardEdits units u ++ headerBack l u) := by
    simp only [headerEdits, headerFront, headerBack, List.append_assoc]
  rw [headerFile, hedits, (areLines_headerFront l u).render_append,
    (areLines_forwardEdits units u).render_append]

theorem length_headerFile (l : Layout) (names : List String) (units : List CodeUnit)
    (u : CodeUnit) :
    (headerFile l units u).content.length =
      (headerFile l (selectUnits names units) u).content.length +
        u.needs.forwards.countP (isLostStruct names units) := by
  have hforwards : (render (forwardEdits units u)).length =
      (render (forwardEdits (selectUnits names units) u)).length +
        u.needs.forwards.countP (isLostStruct names units) := by
    have hlines := length_render_forwards names units u.needs.forwards
    unfold forwardEdits
    split_ifs with h
    · rw [List.isEmpty_iff.1 h]
      rfl
    · rw [(areLines_map (forwardLine units) u.needs.forwards).render_append,
        (areLines_map (forwardLine _) u.needs.forwards).render_append, String.length_append,
        String.length_append, hlines]
      omega
  rw [headerFile_content, headerFile_content]
  simp only [String.length_append]
  omega

/-! ## Files of a unit -/

theorem unitFiles_eq (l : Layout) (units : List CodeUnit) (u : CodeUnit) :
    unitFiles l units u = headerFile l units u :: (unitFiles l [] u).tail := rfl

theorem forwards_eq_of_not_lost (h : ∀ n ∈ u.needs.forwards, isLostStruct names units n = false) :
    forwardEdits (selectUnits names units) u = forwardEdits units u := by
  have hlines :
      u.needs.forwards.map (fun n => Edit.line (forwardLine (selectUnits names units) n)) =
        u.needs.forwards.map fun n => Edit.line (forwardLine units n) :=
    List.map_congr_left fun n hn => by
      rw [forwardLine_selectUnits, if_neg (by simp [h n hn])]
  rw [forwardEdits, forwardEdits, hlines]

/-- **Files of a unit under a filter**: they are the same iff the unit forward declares no struct
    that is left out. -/
theorem unitFiles_selectUnits_iff (l : Layout) (names : List String) (units : List CodeUnit)
    (u : CodeUnit) :
    unitFiles l (selectUnits names units) u = unitFiles l units u ↔
      ∀ n ∈ u.needs.forwards, isLostStruct names units n = false := by
  rw [unitFiles_eq, unitFiles_eq l units]
  constructor
  · intro h n hn
    have hlength := length_headerFile l names units u
    rw [(List.cons.inj h).1] at hlength
    have hcount : u.needs.forwards.countP (isLostStruct names units) = 0 := by omega
    exact Bool.eq_false_iff.2 (List.countP_eq_zero.1 hcount n hn)
  · intro h
    have hheader : headerFile l (selectUnits names units) u = headerFile l units u := by
      have hcontent : (headerFile l (selectUnits names units) u).content =
          (headerFile l units u).content := by
        rw [headerFile_content, headerFile_content, forwards_eq_of_not_lost h]
      exact congrArg (fun text => { headerFile l units u with content := text }) hcontent
    rw [hheader]

/-! ## Files of all units -/

theorem flatMap_eq_iff {α β : Type} {f g : α → List β} {xs : List α}
    (hlength : ∀ x ∈ xs, (f x).length = (g x).length) :
    xs.flatMap f = xs.flatMap g ↔ ∀ x ∈ xs, f x = g x := by
  induction xs with
  | nil => simp
  | cons x xs ih =>
    rw [List.flatMap_cons, List.flatMap_cons, List.forall_mem_cons,
      ← ih fun y hy => hlength y (List.mem_cons_of_mem _ hy)]
    constructor
    · exact fun h => List.append_inj h (hlength x List.mem_cons_self)
    · rintro ⟨h, h'⟩
      rw [h, h']

theorem className_of_mem_unitFiles {f : SourceFile} (h : f ∈ unitFiles l units u) :
    f.className = u.name := by
  unfold unitFiles at h
  split_ifs at h <;> simp only [List.mem_cons, List.not_mem_nil, or_false] at h
  · rw [h]
  · rcases h with rfl | rfl <;> rfl

/-- The files that belong to units that are kept. -/
theorem filter_assemble (l : Layout) (names : List String) (units : List CodeUnit) :
    (assemble l units).filter (fun f => isKept names f.className) =
      (selectUnits names units).flatMap (unitFiles l units) := by
  have hnames : ∀ u, ∀ f ∈ unitFiles l units u, f.className = u.name := fun u f hf =>
    className_of_mem_unitFiles hf
  rw [assemble, selectUnits_eq]
  generalize unitFiles l units = files at hnames ⊢
  induction units with
  | nil => rfl
  | cons u rest ih =>
    rw [List.flatMap_cons, List.filter_append, ih, List.filter_cons]
    by_cases hkept : isKept names u.name = true
    · rw [if_pos hkept, List.flatMap_cons,
        List.filter_eq_self.2 fun f hf => by rw [hnames u f hf]; exact hkept]
    · rw [if_neg hkept, List.filter_eq_nil_iff.2 fun f hf => by rw [hnames u f hf]; exact hkept,
        List.nil_append]

/-- What becomes of the files of a unit that a filter keeps. -/
structure KeptFiles (l : Layout) (names : List String) (units : List CodeUnit) (u : CodeUnit) :
    Prop where
  /-- Behind the header there is nothing but the same source file. -/
  sources : (unitFiles l (selectUnits names units) u).tail = (unitFiles l units u).tail
  /-- The header is the same around its forward declarations. -/
  header : ∃ front back : String, ∀ vs, (unitFiles l vs u).head? = some {
    name := u.name ++ ".h", className := u.name, contentType := "text/x-c++hdr"
    content := front ++ (render (forwardEdits vs u) ++ back) }
  /-- A forward declaration says `class` for a struct that is left out, and is the same for any
      other name. -/
  forwards : ∀ n, forwardLine (selectUnits names units) n =
    if isLostStruct names units n then "class " ++ n ++ ";" else forwardLine units n
  /-- The files are the same iff no struct that is left out is forward declared. -/
  same : unitFiles l (selectUnits names units) u = unitFiles l units u ↔
    ∀ n ∈ u.needs.forwards, isLostStruct names units n = false

theorem keptFiles (l : Layout) (names : List String) (units : List CodeUnit) (u : CodeUnit) :
    KeptFiles l names units u where
  sources := by rw [unitFiles_eq, unitFiles_eq l units, List.tail_cons, List.tail_cons]
  header := ⟨render (headerFront l u), render (headerBack l u), fun vs => by
    rw [unitFiles_eq, List.head?_cons, ← headerFile_content]
    rfl⟩
  forwards := forwardLine_selectUnits names units
  same := unitFiles_selectUnits_iff l names units u

/-- The filter selects among the files of all units iff this holds for each unit that is kept. -/
theorem assemble_eq_filter_iff (l : Layout) (names : List String) (units : List CodeUnit) :
    assemble l (selectUnits names units) =
        (assemble l units).filter (fun f => isKept names f.className) ↔
      ∀ u ∈ selectUnits names units, ∀ n ∈ u.needs.forwards,
        isLostStruct names units n = false := by
  have hlength : ∀ u ∈ selectUnits names units,
      (unitFiles l (selectUnits names units) u).length = (unitFiles l units u).length :=
    fun u _ => by rw [unitFiles_eq, unitFiles_eq l units, List.length_cons, List.length_cons]
  rw [filter_assemble, assemble, flatMap_eq_iff hlength]
  exact forall₂_congr fun u _ => unitFiles_selectUnits_iff l names units u

/-- **The class filter** selects among the files that are made of all units, up to the class key of
    forward declarations: it only selects iff no unit that is kept forward declares a struct that
    is left out. -/
theorem assemble_selectUnits (l : Layout) (names : List String) (units : List CodeUnit) :
    (∀ u ∈ selectUnits names units, KeptFiles l names units u) ∧
      (assemble l (selectUnits names units) =
          (assemble l units).filter (fun f => isKept names f.className) ↔
        ∀ u ∈ selectUnits names units, ∀ n ∈ u.needs.forwards,
          isLostStruct names units n = false) :=
  ⟨fun u _ => keptFiles l names units u, assemble_eq_filter_iff l names units⟩

/-! A tank that shares its fuel, which is a struct. -/

def tankYard : Model.Registry := Model.Registry.prepare { elements := [
  .classifier { id := "tank", name := "Tank", stereotype := "SimObject" },
  .attribute {
    id := "a", name := "fuel", parent := "tank"
    typed := { type := "fuel", multiplicity := .optional, aggregation := .shared } },
  .classifier { id := "fuel", name := "Fuel", kind := .dataType },
  .attribute { id := "b", name := "litres", parent := "fuel", typed := { typeName := "double" } }] }

/-- The code of the tank and its fuel. -/
def tankUnits : List CodeUnit := (batchOf tankYard).units

/-- With the tank alone its header says `class Fuel;`, though `Fuel` is a struct. -/
theorem tank_header_not_selected :
    assemble {} (selectUnits ["Tank"] tankUnits) ≠
        (assemble {} tankUnits).filter (fun f => isKept ["Tank"] f.className) ∧
      (selectUnits ["Tank"] tankUnits).map (·.needs.forwards) = [["Fuel"]] ∧
      forwardLine tankUnits "Fuel" = "struct Fuel;" ∧
      forwardLine (selectUnits ["Tank"] tankUnits) "Fuel" = "class Fuel;" := by
  have hlost : isLostStruct ["Tank"] tankUnits "Fuel" = true := by decide +kernel
  have hforwards : (selectUnits ["Tank"] tankUnits).map (·.needs.forwards) = [["Fuel"]] := by
    decide +kernel
  have hstruct : "struct " ++ "Fuel" ++ ";" = "struct Fuel;" := by decide +kernel
  have hclass : "class " ++ "Fuel" ++ ";" = "class Fuel;" := by decide +kernel
  refine ⟨fun h => ?_, hforwards, (forwardLine_of_isLostStruct hlost).trans hstruct, ?_⟩
  · obtain ⟨u, hu, hfuel⟩ := List.mem_map.1 (hforwards ▸ List.mem_singleton_self ["Fuel"])
    have hnone := (assemble_eq_filter_iff {} ["Tank"] tankUnits).1 h u hu "Fuel" (by simp [hfuel])
    rw [hlost] at hnone
    cases hnone
  · rw [forwardLine_selectUnits, if_pos hlost, hclass]

end Artifact

end ObjectLowering
