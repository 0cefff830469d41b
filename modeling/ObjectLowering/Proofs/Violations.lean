/-
  Violations of a model, and what preparing it reports.

  * `Breaks`: an element breaks a rule.  Values are from closed sets, orphans
    included, and an association has two ends.
  * `Linked.errors_perm`: the errors of a registry that was just prepared are
    the faults of its elements, each once.  Other diagnostics are no errors.
  * `prepare_judges`: so preparing a registry for the first time judges it, as
    a run does with every model that it loads; preparing it again is silent.
-/
import Mathlib.Data.List.Count
import ObjectLowering.Proofs.Attachment
import ObjectLowering.Proofs.Loading

namespace ObjectLowering.Model

open Run Config

/-! ## Rules -/

/-- The closed set of multiplicities. -/
def Multiplicity.closedSet : List Multiplicity :=
  [.unset, .one, .optional, .many, .zeroMany, .oneMany]

/-- The known kinds of aggregation; one that is not given means none. -/
def Aggregation.known : List Aggregation := [.unset, .none, .shared, .composition]

theorem Multiplicity.isValid_iff {m : Multiplicity} : m.isValid = true ↔ m ∈ closedSet := by
  cases m <;> simp [isValid, closedSet]

theorem Aggregation.isValid_iff {a : Aggregation} : a.isValid = true ↔ a ∈ known := by
  cases a <;> simp [isValid, known]

theorem Aggregation.settle_mem_known {a : Aggregation} : a.settle ∈ known ↔ a ∈ known := by
  cases a <;> simp [settle, known]

/-- What preparing leaves of a known kind. -/
theorem Aggregation.settle_of_mem_known {a : Aggregation} (h : a.settle ∈ known) :
    a.settle ∈ [none, shared, composition] := by
  cases a <;> simp [settle, known] at h ⊢

/-- What an attribute or an association end says about its values. -/
def Element.typed? : Element → Option Typed
  | .attribute x => some x.typed
  | .associationEnd x => some x.typed
  | _ => none

/-- What an element can break. -/
inductive Rule where
  | multiplicity
  | aggregation
  | arity
deriving DecidableEq, Repr

/-- The code of the errors about a rule. -/
def Rule.code : Rule → DiagnosticCode
  | multiplicity => .invalidMultiplicity
  | aggregation => .invalidAggregation
  | arity => .associationArity

theorem Rule.code_injective : Function.Injective Rule.code := by
  intro x y h
  cases x <;> cases y <;> simp_all [code]

namespace Registry

/-- The ends that are registered for an association. -/
def endsOf (r : Registry) (association : String) : List AssociationEnd :=
  r.elements.filterMap fun
    | .associationEnd x => if x.parent = association then some x else none
    | _ => none

/-- An element breaks a rule. -/
def Breaks (r : Registry) (e : Element) : Rule → Prop
  | .multiplicity => ∃ t ∈ e.typed?, t.multiplicity ∉ Multiplicity.closedSet
  | .aggregation => ∃ t ∈ e.typed?, t.aggregation ∉ Aggregation.known
  | .arity => ∃ a, e = .association a ∧ (r.endsOf a.id).length ≠ 2

/-- No element breaks a rule. -/
structure KeepsRules (r : Registry) : Prop where
  multiplicities : ∀ e ∈ r.elements, ∀ t ∈ e.typed?, t.multiplicity ∈ Multiplicity.closedSet
  aggregations : ∀ e ∈ r.elements, ∀ t ∈ e.typed?, t.aggregation ∈ Aggregation.known
  arities : ∀ a, .association a ∈ r.elements → (r.endsOf a.id).length = 2

theorem keepsRules_iff {r : Registry} :
    r.KeepsRules ↔ ∀ e ∈ r.elements, ∀ rule, ¬ r.Breaks e rule := by
  constructor
  · rintro ⟨hm, ha, hn⟩ e he rule hbreaks
    match rule, hbreaks with
    | .multiplicity, ⟨t, ht, hbad⟩ => exact hbad (hm e he t ht)
    | .aggregation, ⟨t, ht, hbad⟩ => exact hbad (ha e he t ht)
    | .arity, ⟨a, hea, hbad⟩ => exact hbad (hn a (hea ▸ he))
  · intro h
    refine ⟨fun e he t ht => ?_, fun e he t ht => ?_, fun a ha => ?_⟩
    · exact not_not.1 fun hbad => h e he .multiplicity ⟨t, ht, hbad⟩
    · exact not_not.1 fun hbad => h e he .aggregation ⟨t, ht, hbad⟩
    · exact not_not.1 fun hbad => h _ ha .arity ⟨a, rfl, hbad⟩

/-- What a call that prepares the registry reports; only the first one does. -/
def report (r : Registry) : List Diagnostic := if r.isPrepared then [] else r.prepare.diagnostics

/-- A report has an error for every violation, one for each, and no other errors. -/
structure Judged (r : Registry) (report : List Diagnostic) : Prop where
  clean : errorsOf report = [] ↔ r.KeepsRules
  once : ∀ e ∈ r.elements, ∀ rule, r.Breaks e rule →
    (errorsOf report).countP (fun d => d.element == e.id && d.code == rule.code) = 1
  only : ∀ d ∈ errorsOf report, ∃ e ∈ r.elements, ∃ rule,
    r.Breaks e rule ∧ d.element = e.id ∧ d.code = rule.code

/-! ## Faults of one element -/

/-- The rules that the values of a feature break. -/
def valueFaults (e : Element) : List Rule :=
  e.typed?.toList.flatMap fun t =>
    (if t.multiplicity.isValid then [] else [.multiplicity]) ++
      (if t.aggregation.isValid then [] else [.aggregation])

/-- The rule that an association breaks. -/
def arityFaults (r : Registry) (e : Element) : List Rule :=
  match e with
  | .association a => if (r.owned a.id).members.length = 2 then [] else [.arity]
  | _ => []

/-- The rules that an element breaks. -/
def faults (r : Registry) (e : Element) : List Rule := valueFaults e ++ r.arityFaults e

/-- What an error is about. -/
def subject (d : Diagnostic) : String × DiagnosticCode := (d.element, d.code)

/-- The errors about an element, given the rules that it breaks. -/
def subjects (faults : Element → List Rule) (e : Element) : List (String × DiagnosticCode) :=
  (faults e).map fun rule => (e.id, rule.code)

section
variable {r : Registry} {e : Element}

theorem errorsOf_append (ds ds' : List Diagnostic) :
    errorsOf (ds ++ ds') = errorsOf ds ++ errorsOf ds' := List.filter_append ..

theorem errorsOf_eq_nil {ds : List Diagnostic} (h : ∀ d ∈ ds, d.severity ≠ .error) :
    errorsOf ds = [] :=
  List.filter_eq_nil_iff.2 fun d hd => by simpa using h d hd

theorem errorsOf_ownerFindings (r : Registry) (e : Element) :
    errorsOf (r.ownerFindings e) = [] := by
  unfold ownerFindings
  dsimp only
  split_ifs <;> rfl

theorem errorsOf_typedFindings (r : Registry) (id name : String) (t : Typed) :
    (errorsOf (r.typedFindings id name t)).map subject =
      (if t.multiplicity.isValid then [] else [(id, .invalidMultiplicity)]) ++
        (if t.aggregation.isValid then [] else [(id, .invalidAggregation)]) := by
  unfold typedFindings
  rw [errorsOf_append, errorsOf_append]
  split_ifs <;> rfl

theorem subjects_of_typed {t : Typed} (he : e.typed? = some t) : subjects valueFaults e =
    (if t.multiplicity.isValid then [] else [(e.id, .invalidMultiplicity)]) ++
      (if t.aggregation.isValid then [] else [(e.id, .invalidAggregation)]) := by
  rw [subjects, valueFaults, he, Option.toList_some, List.flatMap_singleton]
  split_ifs <;> rfl

/-- The errors in the report on an element are about its values. -/
theorem errorsOf_findings (r : Registry) (e : Element) :
    (errorsOf (r.findings e)).map subject = subjects valueFaults e := by
  match e with
  | .attribute x =>
    rw [findings, errorsOf_append, errorsOf_ownerFindings, List.nil_append,
      errorsOf_typedFindings, subjects_of_typed rfl]
    rfl
  | .associationEnd x =>
    rw [findings, errorsOf_append, errorsOf_append, List.map_append, errorsOf_typedFindings,
      subjects_of_typed rfl]
    split_ifs <;> rfl
  | .operation _ | .stateMachine _ => rw [findings, errorsOf_ownerFindings]; rfl
  | .generalization x =>
    rw [findings, errorsOf_append, errorsOf_ownerFindings]
    split_ifs <;> rfl
  | .dependency x =>
    rw [findings, errorsOf_append, errorsOf_append, errorsOf_ownerFindings]
    split_ifs <;> rfl
  | .state _ | .pseudoState _ =>
    rw [findings, vertexFindings]
    split_ifs <;> rfl
  | .transition x =>
    have hnone : errorsOf (r.findings (.transition x)) = [] := by
      refine errorsOf_eq_nil fun d hd => ?_
      unfold findings at hd
      aesop
    rw [hnone]
    rfl
  | .action x =>
    rw [findings]
    split_ifs <;> rfl
  | .package _ | .classifier _ | .association _ | .event _ => rfl

/-- The error in the report on an association is about the number of its ends. -/
theorem errorsOf_associationFindings (r : Registry) (a : Association) :
    (errorsOf (r.associationFindings r.links a)).map subject =
      subjects r.arityFaults (.association a) := by
  have hmembers : (r.links.of a.id).members = (r.owned a.id).members := rfl
  have hquiet : ∀ ps : List (AssociationEnd × AssociationEnd), errorsOf (ps.map fun p => {
      code := .unresolvedReference, element := p.1.id
      message := "owner " ++ Text.quote p.2.typed.type ++ " of navigable end " ++
        Text.quote p.1.name ++ " does not resolve" }) = [] := by
    intro ps
    refine errorsOf_eq_nil fun d hd => ?_
    obtain ⟨p, -, rfl⟩ := List.mem_map.1 hd
    exact nofun
  rw [associationFindings, hmembers, subjects, arityFaults]
  rcases (r.owned a.id).members with _ | ⟨x, _ | ⟨y, _ | ⟨z, rest⟩⟩⟩
  · rfl
  · rfl
  · exact congrArg (List.map subject) (hquiet _)
  · rfl

/-! ## Faults of a registry -/

/-- What only associations have is gathered from them alone. -/
theorem flatMap_associations {β : Type} (r : Registry) {f : Element → List β}
    (hf : ∀ e, (∀ a, e ≠ .association a) → f e = []) :
    r.associations.flatMap (fun a => f (.association a)) = r.elements.flatMap f := by
  unfold associations
  induction r.elements with
  | nil => rfl
  | cons e es ih =>
    by_cases he : ∃ a, e = .association a
    · obtain ⟨a, rfl⟩ := he
      rw [List.filterMap_cons, List.flatMap_cons, List.flatMap_cons, ih]
    · have hother : ∀ a, e ≠ .association a := fun a ha => he ⟨a, ha⟩
      rw [List.flatMap_cons, hf e hother, List.nil_append, ← ih, List.filterMap_cons]
      split
      · rfl
      · next a ha => split at ha <;> simp_all

/-- **The errors of a registry** that was just prepared are the faults of its elements. -/
theorem Linked.errors_perm (h : r.Linked) :
    ((errorsOf r.diagnostics).map subject).Perm (r.elements.flatMap (subjects r.faults)) := by
  have hvalues : (errorsOf (r.elements.flatMap r.findings)).map subject =
      r.elements.flatMap (subjects valueFaults) := by
    rw [errorsOf, List.filter_flatMap, List.map_flatMap]
    exact List.flatMap_congr fun e _ => errorsOf_findings r e
  have harities : (errorsOf (r.associations.flatMap (r.associationFindings r.links))).map subject =
      r.elements.flatMap (subjects r.arityFaults) := by
    rw [errorsOf, List.filter_flatMap, List.map_flatMap, ← r.flatMap_associations]
    · exact List.flatMap_congr fun a _ => errorsOf_associationFindings r a
    · intro e he
      unfold subjects arityFaults
      split
      · next a => exact absurd rfl (he a)
      · rfl
  have hsplit : r.elements.flatMap (subjects r.faults) = r.elements.flatMap fun e =>
      subjects valueFaults e ++ subjects r.arityFaults e :=
    List.flatMap_congr fun e _ => List.map_append
  rw [h.diagnostics, errorsOf_append, List.map_append, hvalues, harities, hsplit]
  exact List.flatMap_append_perm ..

/-- The members of an association are the ends that are registered for it. -/
theorem Linked.members_eq_endsOf (h : r.Linked) {a : Association}
    (ha : .association a ∈ r.elements) : (r.owned a.id).members = r.endsOf a.id := by
  have hfound : (r.association? a.id).isSome = true := by
    have hlookup := lookup_of_mem h.ids ha
    rw [Element.id, Element.identity] at hlookup
    rw [association?, hlookup]
    rfl
  rw [h.members_eq, attachAll_members, endsOf]
  refine List.filterMap_congr fun e _ => ?_
  cases e <;> simp [memberIn, hfound]

theorem Linked.mem_faults (h : r.Linked) (he : e ∈ r.elements) (rule : Rule) :
    rule ∈ r.faults e ↔ r.Breaks e rule := by
  have hvalue : rule ∈ valueFaults e ↔ ∃ t ∈ e.typed?,
      rule = .multiplicity ∧ t.multiplicity ∉ Multiplicity.closedSet ∨
        rule = .aggregation ∧ t.aggregation ∉ Aggregation.known := by
    simp only [valueFaults, List.mem_flatMap, Option.mem_toList, List.mem_append,
      ← Multiplicity.isValid_iff, ← Aggregation.isValid_iff]
    refine exists_congr fun t => and_congr_right fun _ => ?_
    split_ifs <;> simp_all
  have harity : rule ∈ r.arityFaults e ↔
      rule = .arity ∧ ∃ a, e = .association a ∧ (r.endsOf a.id).length ≠ 2 := by
    cases e with
    | association a =>
      rw [arityFaults, h.members_eq_endsOf he]
      split_ifs with hn <;> simp [hn]
    | _ => simp [arityFaults]
  rw [faults, List.mem_append, hvalue, harity]
  cases rule <;> simp [Breaks]

theorem faults_nodup (r : Registry) (e : Element) : (r.faults e).Nodup := by
  cases e <;> simp only [faults, valueFaults, arityFaults, Element.typed?] <;>
    simp <;> split_ifs <;> simp

/-- Faults of an element are counted among those of elements with ids of their own. -/
theorem count_subjects {es : List Element} (hids : (es.map Element.id).Nodup)
    (faults : Element → List Rule) (he : e ∈ es) (rule : Rule) :
    (es.flatMap (subjects faults)).count (e.id, rule.code) = (faults e).count rule := by
  have hown : ∀ x, (subjects faults x).count (x.id, rule.code) = (faults x).count rule := by
    intro x
    have hinj : Function.Injective fun rule : Rule => (x.id, rule.code) :=
      fun _ _ h => Rule.code_injective (Prod.mk.inj h).2
    exact List.count_map_of_injective (faults x) _ hinj rule
  have hother : ∀ x, x.id ≠ e.id → (e.id, rule.code) ∉ subjects faults x := by
    intro x hne hm
    obtain ⟨_, -, heq⟩ := List.mem_map.1 hm
    exact hne (Prod.mk.inj heq).1
  induction es with
  | nil => cases he
  | cons x es ih =>
    obtain ⟨hx, hids⟩ := List.nodup_cons.1 hids
    rw [List.flatMap_cons, List.count_append]
    rcases List.mem_cons.1 he with rfl | he
    · have hnone : (e.id, rule.code) ∉ es.flatMap (subjects faults) := by
        intro hm
        obtain ⟨y, hy, hm⟩ := List.mem_flatMap.1 hm
        exact hother y (fun hid => hx (hid ▸ List.mem_map_of_mem hy)) hm
      rw [hown, List.count_eq_zero.2 hnone, Nat.add_zero]
    · have hne : x.id ≠ e.id := fun hid => hx (hid ▸ List.mem_map_of_mem he)
      rw [List.count_eq_zero.2 (hother x hne), Nat.zero_add, ih hids he]

/-- **The errors of a registry** that was just prepared are its violations, each once. -/
theorem Linked.judged (h : r.Linked) : r.Judged r.diagnostics where
  clean := by
    have hnone : errorsOf r.diagnostics = [] ↔ r.elements.flatMap (subjects r.faults) = [] := by
      rw [← List.map_eq_nil_iff (f := subject), ← List.length_eq_zero_iff,
        h.errors_perm.length_eq, List.length_eq_zero_iff]
    rw [hnone, List.flatMap_eq_nil_iff, keepsRules_iff]
    refine forall₂_congr fun e he => ?_
    rw [subjects, List.map_eq_nil_iff, List.eq_nil_iff_forall_not_mem]
    exact forall_congr' fun rule => not_congr (h.mem_faults he rule)
  once e he rule hbreaks := by
    have hsubject : (fun d : Diagnostic => d.element == e.id && d.code == rule.code) =
        (· == (e.id, rule.code)) ∘ subject := rfl
    rw [hsubject, ← List.countP_map, ← List.count_eq_countP, h.errors_perm.count_eq,
      count_subjects h.ids r.faults he]
    exact List.count_eq_one_of_mem (r.faults_nodup e) ((h.mem_faults he rule).2 hbreaks)
  only d hd := by
    have hm := h.errors_perm.subset (List.mem_map_of_mem hd)
    obtain ⟨e, he, hm⟩ := List.mem_flatMap.1 hm
    obtain ⟨rule, hrule, heq⟩ := List.mem_map.1 hm
    obtain ⟨hid, hcode⟩ := Prod.mk.inj heq
    exact ⟨e, he, rule, (h.mem_faults he rule).1 hrule, hid.symm, hcode.symm⟩

end

/-! ## Preparing -/

section
variable {r : Registry} {e : Element}

theorem settle_typed? (r : Registry) (e : Element) : (r.settle e).typed? =
    e.typed?.map fun t => { t with aggregation := t.aggregation.settle } := by
  cases e <;> rfl

theorem length_endsOf_prepare (hp : r.isPrepared = false) (x : String) :
    (r.prepare.endsOf x).length = (r.endsOf x).length := by
  rw [endsOf, endsOf, prepare_elements hp]
  induction r.elements with
  | nil => rfl
  | cons e es ih =>
    cases e with
    | associationEnd u => by_cases hu : u.parent = x <;> simpa [settle, hu] using ih
    | _ => exact ih

/-- Preparing breaks no rule, and heals no violation. -/
theorem breaks_settle (hp : r.isPrepared = false) (e : Element) (rule : Rule) :
    r.prepare.Breaks (r.settle e) rule ↔ r.Breaks e rule := by
  cases rule with
  | multiplicity => simp [Breaks, settle_typed?]
  | aggregation => simp [Breaks, settle_typed?, Aggregation.settle_mem_known]
  | arity => cases e <;> simp [Breaks, settle, length_endsOf_prepare hp]

theorem keepsRules_prepare (hp : r.isPrepared = false) : r.prepare.KeepsRules ↔ r.KeepsRules := by
  simp only [keepsRules_iff, prepare_elements hp, List.forall_mem_map, breaks_settle hp]

/-- A registry that is prepared for the first time is judged. -/
theorem report_judges (h : r.Built) (hp : r.isPrepared = false) : r.Judged r.report := by
  obtain ⟨hclean, honce, honly⟩ := (prepare_linked h hp).judged
  have hreport : r.report = r.prepare.diagnostics := if_neg (by simp [hp])
  rw [keepsRules_prepare hp] at hclean
  rw [hreport]
  refine ⟨hclean, fun e he rule hbreaks => ?_, fun d hd => ?_⟩
  · have hsettled : r.settle e ∈ r.prepare.elements := by
      rw [prepare_elements hp]
      exact List.mem_map_of_mem he
    have hone := honce _ hsettled rule ((breaks_settle hp e rule).2 hbreaks)
    rwa [settle_id] at hone
  · obtain ⟨y, hy, rule, hbreaks, hid, hcode⟩ := honly d hd
    rw [prepare_elements hp] at hy
    obtain ⟨e, he, rfl⟩ := List.mem_map.1 hy
    exact ⟨e, he, rule, (breaks_settle hp e rule).1 hbreaks, hid.trans (r.settle_id e), hcode⟩

/-- Every feature of a prepared registry that keeps the rules has a kind of aggregation. -/
theorem aggregation_prepare (hp : r.isPrepared = false) (hkeeps : r.KeepsRules)
    (he : e ∈ r.prepare.elements) {t : Typed} (ht : t ∈ e.typed?) :
    t.aggregation ∈ [.none, .shared, .composition] := by
  have hknown := ((keepsRules_prepare hp).2 hkeeps).aggregations e he t ht
  rw [prepare_elements hp] at he
  obtain ⟨y, -, rfl⟩ := List.mem_map.1 he
  rw [settle_typed?, Option.mem_def, Option.map_eq_some_iff] at ht
  obtain ⟨t, -, rfl⟩ := ht
  exact Aggregation.settle_of_mem_known hknown

/-! ## Runs -/

variable {s : Settings} {w : Surroundings}

/-- A run lowers the model that it loads iff there is no error in the report on it. -/
theorem lowerSource_report (hload : (loadModel s w).2 = .ok r) (hp : r.isPrepared = false) :
    (lowerSource s w).batch = if errorsOf r.report = [] then .ok (lowerModel s w r.prepare)
      else .error (.invalidModel (errorsOf r.report)) := by
  have hreport : r.report = r.prepare.diagnostics := if_neg (by simp [hp])
  have herrors : hasErrors r.report = true ↔ errorsOf r.report ≠ [] := by
    rw [hasErrors, List.any_eq_true, errorsOf, ne_eq, List.filter_eq_nil_iff]
    push Not
    rfl
  rw [hreport] at herrors ⊢
  unfold lowerSource prepareModel
  by_cases hclean : errorsOf r.prepare.diagnostics = [] <;> simp [hload, hclean, herrors]

/-- **Preparing judges a model.**  A call for a registry that is not prepared reports every
    violation once, and no other error; the registry is then free of errors iff it keeps the rules,
    and its features have known kinds of aggregation.  A later call reports nothing and changes
    nothing.  A run prepares the model that it loads for the first time, and lowers it iff it keeps
    the rules. -/
theorem prepare_judges (h : r.Built) :
    (r.isPrepared = false →
      r.Judged r.report ∧
      (errorsOf r.report = [] → ∀ e ∈ r.prepare.elements, ∀ t ∈ e.typed?,
        t.aggregation ∈ [.none, .shared, .composition])) ∧
    (r.isPrepared = true → r.report = [] ∧ r.prepare = r) ∧
    ∀ (s : Settings) (w : Surroundings), (loadModel s w).2 = .ok r →
      r.isPrepared = false ∧
      (r.KeepsRules → (lowerSource s w).batch = .ok (lowerModel s w r.prepare)) ∧
      (¬ r.KeepsRules →
        (lowerSource s w).batch = .error (.invalidModel (errorsOf r.report))) := by
  refine ⟨fun hp => ?_, fun hp => ⟨if_pos hp, if_pos hp⟩, fun s w hload => ?_⟩
  · have hjudged := report_judges h hp
    refine ⟨hjudged, fun hnone e he t ht => ?_⟩
    exact aggregation_prepare hp (hjudged.clean.1 hnone) he ht
  · have hp : r.isPrepared = false := by
      obtain ⟨elements, rfl, -⟩ := loadModel_isPlain hload
      rfl
    have hclean := (report_judges h hp).clean
    refine ⟨hp, fun hkeeps => ?_, fun hbreaks => ?_⟩
    · rw [lowerSource_report hload hp, if_pos (hclean.2 hkeeps)]
    · rw [lowerSource_report hload hp, if_neg fun hnone => hbreaks (hclean.1 hnone)]

end

/-- A port in which a size, an orphan and an association are wrong, and a speed is right. -/
def port : Registry := { elements := [
  .classifier { id := "port", name := "Port" },
  .attribute {
    id := "size", name := "size", parent := "port", typed := { multiplicity := .other "2" } },
  .attribute { id := "speed", name := "speed", parent := "port" },
  .attribute {
    id := "stray", name := "stray", parent := "nowhere"
    typed := { multiplicity := .other "n", aggregation := .other "weak" } },
  .association { id := "route", name := "Route" },
  .associationEnd {
    id := "from", name := "from", parent := "route", typed := { type := "port" } }] }

/-- The port is prepared with an error for each of its four violations. -/
theorem port_judged :
    port.Built ∧ port.isPrepared = false ∧ port.Judged port.report ∧
      (errorsOf port.report).map subject = [
        ("size", .invalidMultiplicity), ("stray", .invalidMultiplicity),
        ("stray", .invalidAggregation), ("route", .associationArity)] :=
  have hbuilt : port.Built := .loaded (by decide)
  ⟨hbuilt, rfl, ((prepare_judges hbuilt).1 rfl).1, by decide⟩

/-- A prepared port. -/
def readyPort : Registry :=
  Registry.prepare { elements := [.classifier { id := "port", name := "Port" }] }

/-- A size that is wrong. -/
def lateSize : Element := .attribute {
  id := "size", name := "size", parent := "port", typed := { multiplicity := .other "2" } }

/-- The prepared port with the size. -/
def latePort : Registry := { readyPort with elements := readyPort.elements ++ [lateSize] }

/-- A violation that is added to a prepared registry is not reported. -/
theorem latePort_unjudged :
    readyPort.add lateSize = .ok latePort ∧ latePort.Built ∧
      ¬ (errorsOf latePort.report = [] ↔ latePort.KeepsRules) := by
  have hadd : readyPort.add lateSize = .ok latePort := rfl
  have hready : readyPort.Built := .prepare (.loaded (by decide))
  have hnone : errorsOf latePort.report = [] := rfl
  refine ⟨hadd, hready.add hadd, fun h => ?_⟩
  have hsize := (h.1 hnone).multiplicities lateSize
    (List.mem_append_right _ List.mem_cons_self) _ rfl
  exact absurd hsize (by decide)

end Registry

end ObjectLowering.Model
