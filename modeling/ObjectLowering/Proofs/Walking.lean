/-
  The walk of an accessor, with one set of active structs.

  `survey` hands the structs on the way down as an argument.  Here the walk
  keeps them in a set that all of it shares: a struct is entered into the set
  before its members are walked, and taken out again after.  Flattening a
  struct may fail, which ends the walk.

  * `Walker.walk` is the walk, with whatever flattening does as a parameter.
    It logs the active set at each call and return, and what is skipped.
  * `Visit.Exact`: the active structs are those on the path, a skipped member
    has a struct that encloses it, and no struct is entered inside itself.
  * `Walker.walk_continues`: the walk ends, restores the active set, logs
    exact visits only, and follows the depth-first search of the survey.
-/
import Mathlib.Data.Finset.Basic
import Mathlib.Data.Finset.Dedup
import ObjectLowering.Lowering.Accessor
import ObjectLowering.Proofs.MemberPaths

namespace ObjectLowering.Lowering

open Model Code

/-! ## Walks -/

/-- What a walk logs. -/
inductive Visit where
  /-- The walk of the struct that `via` leads to begins. -/
  | call (via : List Member) (active : Finset String)
  /-- It is over, with or without an error. -/
  | back (via : List Member) (active : Finset String)
  /-- A member is skipped, since its struct is active or the class itself. -/
  | recursive (l : Location)
deriving DecidableEq

/-- The member that was skipped. -/
def Visit.skipped? : Visit → Option Location
  | .call _ _ | .back _ _ => none
  | .recursive l => some l

/-- The state of a walk. -/
structure Walk (σ : Type) where
  /-- What flattening reads and changes. -/
  shared : σ
  /-- The ids of the structs that are being walked. -/
  active : Finset String := ∅
  /-- The keys that were met. -/
  done : List String := []
  /-- The locations with a case. -/
  cases : List Location := []
  visits : List Visit := []

/-- Adds to the log. -/
def Walk.log {σ : Type} (w : Walk σ) (v : Visit) : Walk σ := { w with visits := w.visits ++ [v] }

/-- The state after a walk, and the error that ended it. -/
abbrev Outcome (σ ε : Type) : Type := Walk σ × Option ε

/-- What a walk is made with. -/
structure Walker (σ ε : Type) where
  registry : Registry
  /-- The id of the class. -/
  root : String
  /-- The prefix of the keys of its members. -/
  stem : String
  accessor : Accessor
  /-- Flattening under a prefix: the state after, and the error if it fails. -/
  flattening : Classifier → String → σ → σ × Option ε

/-- The prefix of the keys of the members that `via` leads to. -/
def stemAt (stem : String) (via : List Member) : String := (via.getLast?.map (·.key)).getD stem

namespace Walker

variable {σ ε : Type}

/-- Walks one member, with `inner` for the members of its struct. -/
def walkMember (k : Walker σ ε) (inner : Classifier → List Member → Walk σ → Option (Outcome σ ε))
    (via : List Member) (m : Member) (w : Walk σ) : Option (Outcome σ ε) :=
  if m.isForeign || w.done.contains m.key then some (w, none)
  else
    let w := { w with done := m.key :: w.done }
    match m.storage.classifier.filter fun _ => m.isNested with
    | none => some ({ w with cases := w.cases ++ k.accessor.locations [⟨via, m⟩] }, none)
    | some c =>
      if via.any (·.isKeyed) && m.isKeyed then some (w, none)
      else if c.id ∈ w.active ∨ c.id = k.root then some (w.log (.recursive ⟨via, m⟩), none)
      else
        (inner c (via ++ [m]) { w with active := insert c.id w.active }).map fun (w, e) =>
          ({ w with active := w.active.erase c.id }, e)

/-- Walks members in order, up to the first error. -/
def walkMembers (step : Member → Walk σ → Option (Outcome σ ε)) :
    List Member → Walk σ → Option (Outcome σ ε)
  | [], w => some (w, none)
  | m :: ms, w => (step m w).bind fun
    | (w, none) => walkMembers step ms w
    | (w, some e) => some (w, some e)

/-- Walks a class or struct, which `via` leads to; there is no outcome if structs are nested deeper
    than `depth`. -/
def walk (k : Walker σ ε) : Nat → Classifier → List Member → Walk σ → Option (Outcome σ ε)
  | 0, _, _, _ => none
  | depth + 1, c, via, w =>
    let stem := stemAt k.stem via
    let w := w.log (.call via w.active)
    let outcome := match k.flattening c stem w.shared with
      | (s, some e) => some ({ w with shared := s }, some e)
      | (s, none) => walkMembers (k.walkMember (k.walk depth) via) (dataOf k.registry c stem)
          { w with shared := s }
    outcome.map fun (w, e) => (w.log (.back via w.active), e)

/-- Flattens in order, up to the first error. -/
def flattenAll (k : Walker σ ε) : List (Classifier × String) → σ → σ × Option ε
  | [], s => (s, none)
  | (c, stem) :: rest, s =>
    match k.flattening c stem s with
    | (s, none) => k.flattenAll rest s
    | (s, some e) => (s, some e)

end Walker

/-! ## Exact visits -/

/-- A struct with the given id encloses what `via` leads to: it is the class itself, or one of the
    structs on the way. -/
def Encloses (root : String) (via : List Member) (id : String) : Prop := id ∈ root :: structIds via

instance (root : String) (via : List Member) (id : String) : Decidable (Encloses root via id) :=
  inferInstanceAs (Decidable (_ ∈ _))

/-- The active structs are those on the path, each of them there once and none of them the class
    itself. -/
structure OnPath (root : String) (via : List Member) (active : Finset String) : Prop where
  active : active = (structIds via).toFinset
  distinct : (root :: structIds via).Nodup
  length : (structIds via).length = via.length

/-- What is logged is exact. -/
def Visit.Exact (root : String) : Visit → Prop
  | .call via active | .back via active => OnPath root via active
  | .recursive l => ∃ c, l.member.storage.classifier = some c ∧ Encloses root l.via c.id

namespace Location

/-- The struct of a member that is nested, no collection inside a keyed member, and enclosed by its
    own struct. -/
def encloser? (root : String) (l : Location) : Option Classifier :=
  l.member.storage.classifier.filter fun c =>
    l.member.isNested && !(l.via.any (·.isKeyed) && l.member.isKeyed) && Encloses root l.via c.id

/-- The struct that is entered through a member, and the prefix of its keys. -/
def entered? (root : String) (l : Location) : Option (Classifier × String) :=
  (opened root l.via l.member).map fun c => (c, l.key)

/-- **What becomes of a member**: it is no nested struct, it stays closed, being a collection inside
    a keyed member or enclosed by its own struct, or it is opened. -/
theorem cases (root : String) (via : List Member) (m : Member) :
    (m.isNested = false ∧ opened root via m = none ∧ encloser? root ⟨via, m⟩ = none) ∨
    ∃ c, m.storage.classifier = some c ∧ m.isNested = true ∧
      (((via.any (·.isKeyed) && m.isKeyed) = true ∧ opened root via m = none ∧
          encloser? root ⟨via, m⟩ = none) ∨
        ((via.any (·.isKeyed) && m.isKeyed) = false ∧ Encloses root via c.id ∧
          opened root via m = none ∧ encloser? root ⟨via, m⟩ = some c) ∨
        ((via.any (·.isKeyed) && m.isKeyed) = false ∧ ¬ Encloses root via c.id ∧
          opened root via m = some c ∧ encloser? root ⟨via, m⟩ = none)) := by
  cases hn : m.isNested with
  | false => exact Or.inl ⟨rfl, by simp [opened, hn], by simp [encloser?, hn]⟩
  | true =>
    cases hc : m.storage.classifier with
    | none => simp [Member.isNested, hc] at hn
    | some c =>
      have hsame : ((structIds via).contains c.id || c.id == root) =
          decide (Encloses root via c.id) := by
        rw [Bool.eq_iff_iff]
        simp [Encloses, or_comm]
      refine Or.inr ⟨c, rfl, rfl, ?_⟩
      cases hk : (via.any (·.isKeyed) && m.isKeyed) with
      | true => exact Or.inl ⟨rfl, by simp [opened, hc, hk], by simp [encloser?, hc, hk]⟩
      | false =>
        by_cases hin : Encloses root via c.id
        · refine Or.inr (Or.inl ⟨rfl, hin, ?_, ?_⟩)
          · rw [opened, hc, Option.filter_some, hsame, decide_eq_true hin, Bool.not_true,
              Bool.and_false]
            rfl
          · rw [encloser?, hc, Option.filter_some, hn, hk, decide_eq_true hin]
            rfl
        · refine Or.inr (Or.inr ⟨rfl, hin, ?_, ?_⟩)
          · rw [opened, hc, Option.filter_some, hn, hk, hsame, decide_eq_false hin]
            rfl
          · rw [encloser?, hc, Option.filter_some, decide_eq_false hin, Bool.and_false]
            rfl

theorem encloser?_of_opened {root : String} {via : List Member} {m : Member} {c : Classifier}
    (h : opened root via m = some c) : encloser? root ⟨via, m⟩ = none := by
  rcases cases root via m with ⟨-, -, he⟩ | ⟨d, -, -, ⟨-, -, he⟩ | ⟨-, -, ho, -⟩ | ⟨-, -, -, he⟩⟩
  · exact he
  · exact he
  · rw [ho] at h
    cases h
  · exact he

theorem encloser?_eq_some {root : String} {l : Location} {c : Classifier} :
    l.encloser? root = some c ↔ l.member.storage.classifier = some c ∧
      l.member.isNested = true ∧ (l.via.any (·.isKeyed) && l.member.isKeyed) = false ∧
      Encloses root l.via c.id := by
  simp only [encloser?, Option.filter_eq_some_iff, Bool.and_eq_true, Bool.not_eq_true',
    decide_eq_true_eq, and_assoc]

end Location

/-! ## Searches -/

section
variable {α : Type} {key : α → String} {next : α → List α} {seen : List String} {xs ys : List α}

/-- A search goes on with one that knows the keys which it has met. -/
theorem DepthFirst.append {out₁ out₂ : List α} (h₁ : DepthFirst key next seen xs out₁)
    (h₂ : DepthFirst key next (out₁.map key ++ seen) ys out₂) :
    DepthFirst key next seen (xs ++ ys) (out₁ ++ out₂) := by
  induction h₁ with
  | nil => exact h₂
  | skip hk _ ih => exact .skip hk (ih h₂)
  | visit hk hin _ _ ih =>
    rw [List.cons_append, List.cons_append, List.append_assoc]
    refine .visit hk hin (ih (h₂.congr_seen fun k => ?_))
    simp only [List.map_cons, List.map_append, List.mem_append, List.mem_cons]
    grind

end

/-- What holds on the way: the active structs are those on the path, and structs of the registry. -/
structure Enclosed (r : Registry) (root : String) (via : List Member) (active : Finset String) :
    Prop extends OnPath root via active where
  known : structIds via ⊆ r.classifiers.map (·.id)

section
variable {r : Registry} {root : String} {via ms : List Member} {active : Finset String}
  {m : Member} {c : Classifier}

theorem Enclosed.leads (h : Enclosed r root via active) : Leads r via :=
  ⟨(List.nodup_cons.1 h.distinct).2, h.known, h.length⟩

theorem Enclosed.top (r : Registry) (root : String) : Enclosed r root [] ∅ where
  active := rfl
  distinct := by simp [structIds]
  length := rfl
  known := by simp [structIds]

/-- A struct that is opened is not active yet, and encloses what its members lead to. -/
theorem Enclosed.enter (h : Enclosed r root via active) (ho : opened root via m = some c)
    (hc : c ∈ r.classifiers) :
    c.id ∉ active ∧ Enclosed r root (via ++ [m]) (insert c.id active) := by
  obtain ⟨-, -, -, hout, hroot⟩ := opened_eq_some.1 ho
  have hids : structIds (via ++ [m]) = structIds via ++ [c.id] := structIds_append ho
  have hleads := h.leads.append ho hc
  refine ⟨?_, {
    active := ?_
    distinct := List.nodup_cons.2 ⟨?_, hleads.nodup⟩
    length := hleads.length
    known := hleads.known }⟩
  · rw [h.active, List.mem_toFinset]
    exact hout
  · ext id
    rw [h.active, hids, Finset.mem_insert, List.mem_toFinset, List.mem_toFinset, List.mem_append,
      List.mem_singleton, or_comm]
  · rw [hids, List.mem_append, List.mem_singleton]
    rintro (hin | rfl)
    · exact (List.nodup_cons.1 h.distinct).1 hin
    · exact hroot rfl

/-- There is a search whatever was met before. -/
theorem Enclosed.exists_search (h : Enclosed r root via active)
    (hms : ∀ m ∈ ms, ∀ c, m.storage.classifier = some c → c ∈ r.classifiers)
    (seen : List String) :
    ∃ tr, DepthFirst Location.key (Location.inner r root) seen (paths via ms) tr := by
  obtain ⟨tr, hsearch, -⟩ := surveyMembers_continues r root (r.classifiers.length + 1) via
    (structIds via) ms { visited := seen } (fun _ => Iff.rfl) h.leads (by omega) hms
  exact ⟨tr, hsearch⟩

end

namespace Walker

variable {σ ε : Type}

/-- A walk of `k` that flattens `first` and then starts from `starts` takes `w` to `w'` and ends
    with `e`; it visits `tr`, and logs `new`. -/
structure Continues (k : Walker σ ε) (first : List (Classifier × String)) (starts : List Location)
    (w w' : Walk σ) (e : Option ε) (tr : List Location) (new : List Visit) : Prop where
  search : DepthFirst Location.key (Location.inner k.registry k.root) w.done starts tr
  flattened : k.flattenAll (first ++ tr.filterMap (·.entered? k.root)) w.shared = (w'.shared, e)
  restored : w'.active = w.active
  logged : w'.visits = w.visits ++ new
  exact : ∀ v ∈ new, v.Exact k.root
  /-- Without an error all of it is visited. -/
  done : e = none → ∀ key, key ∈ w'.done ↔ key ∈ tr.map Location.key ∨ key ∈ w.done
  cases : e = none → w'.cases =
    w.cases ++ k.accessor.locations (tr.filter fun l => !l.member.isNested)
  skipped : e = none →
    new.filterMap Visit.skipped? = tr.filter fun l => (l.encloser? k.root).isSome

section
variable {k : Walker σ ε} {first : List (Classifier × String)} {xs ys : List Location}
  {w w₁ w₂ : Walk σ} {e : Option ε} {tr₁ tr₂ : List Location} {new₁ new₂ : List Visit}

/-- What comes later is flattened unless there was an error before. -/
theorem flattenAll_append (first rest : List (Classifier × String)) (s : σ) :
    k.flattenAll (first ++ rest) s =
      match k.flattenAll first s with
      | (s', none) => k.flattenAll rest s'
      | (s', some e) => (s', some e) := by
  induction first generalizing s with
  | nil => rfl
  | cons x first ih =>
    obtain ⟨c, stem⟩ := x
    rw [List.cons_append, flattenAll, flattenAll]
    obtain ⟨s₁, e⟩ := k.flattening c stem s
    cases e with
    | none => exact ih s₁
    | some e => rfl

/-- Walks one after the other. -/
theorem Continues.append (h₁ : k.Continues first xs w w₁ none tr₁ new₁)
    (h₂ : k.Continues [] ys w₁ w₂ e tr₂ new₂) :
    k.Continues first (xs ++ ys) w w₂ e (tr₁ ++ tr₂) (new₁ ++ new₂) where
  search := h₁.search.append (h₂.search.congr_seen fun key => by
    rw [h₁.done rfl, List.mem_append])
  flattened := by
    rw [List.filterMap_append, ← List.append_assoc, flattenAll_append, h₁.flattened]
    exact h₂.flattened
  restored := h₂.restored.trans h₁.restored
  logged := by rw [h₂.logged, h₁.logged, List.append_assoc]
  exact := fun v hv => (List.mem_append.1 hv).elim (h₁.exact v) (h₂.exact v)
  done := fun he key => by
    rw [h₂.done he, h₁.done rfl, List.map_append, List.mem_append, or_left_comm, or_assoc]
  cases := fun he => by
    rw [h₂.cases he, h₁.cases rfl]
    simp only [Accessor.locations, List.filter_append, List.append_assoc]
  skipped := fun he => by
    rw [List.filterMap_append, List.filter_append, h₁.skipped rfl, h₂.skipped he]

/-- After an error nothing more is walked. -/
theorem Continues.stop {x : ε} (h₁ : k.Continues first xs w w₁ (some x) tr₁ new₁)
    (h₂ : DepthFirst Location.key (Location.inner k.registry k.root)
      (tr₁.map Location.key ++ w.done) ys tr₂) :
    k.Continues first (xs ++ ys) w w₁ (some x) (tr₁ ++ tr₂) new₁ where
  search := h₁.search.append h₂
  flattened := by
    rw [List.filterMap_append, ← List.append_assoc, flattenAll_append, h₁.flattened]
  restored := h₁.restored
  logged := h₁.logged
  exact := h₁.exact
  done := nofun
  cases := nofun
  skipped := nofun

end

/-! ## Steps -/

section
variable {k : Walker σ ε} {inner : Classifier → List Member → Walk σ → Option (Outcome σ ε)}
  {via : List Member} {m : Member} {w : Walk σ}

/-- What a walk makes of one member: it passes it over, stops at it, or enters its struct. -/
theorem walkMember_cases (h : OnPath k.root via w.active) (m : Member)
    (inner : Classifier → List Member → Walk σ → Option (Outcome σ ε)) :
    ((m.isForeign = true ∨ m.key ∈ w.done) ∧ k.walkMember inner via m w = some (w, none)) ∨
    (m.isForeign = false ∧ m.key ∉ w.done ∧ opened k.root via m = none ∧
      k.walkMember inner via m w = some ({ w with
        done := m.key :: w.done
        cases := w.cases ++ if m.isNested then [] else k.accessor.locations [⟨via, m⟩]
        visits := w.visits ++
          if (Location.encloser? k.root ⟨via, m⟩).isSome then [.recursive ⟨via, m⟩] else [] },
        none)) ∨
    (m.isForeign = false ∧ m.key ∉ w.done ∧ ∃ c, opened k.root via m = some c ∧
      k.walkMember inner via m w =
        (inner c (via ++ [m]) { w with
          done := m.key :: w.done, active := insert c.id w.active }).map fun (w, e) =>
            ({ w with active := w.active.erase c.id }, e)) := by
  rw [walkMember]
  by_cases hskip : (m.isForeign || w.done.contains m.key) = true
  · rw [if_pos hskip]
    left
    simpa using hskip
  · rw [if_neg hskip]
    right
    simp only [Bool.or_eq_true, List.contains_eq_mem, decide_eq_true_eq, not_or,
      Bool.not_eq_true] at hskip
    obtain ⟨hforeign, hdone⟩ := hskip
    rcases Location.cases k.root via m with
      ⟨hn, ho, hencloser⟩ | ⟨c, hc, hn, hkind⟩
    · have hfilter : (m.storage.classifier.filter fun _ => m.isNested) = none := by simp [hn]
      rw [hfilter]
      exact Or.inl ⟨hforeign, hdone, ho, by simp [hn, hencloser]⟩
    · have hfilter : (m.storage.classifier.filter fun _ => m.isNested) = some c := by
        simp [hc, hn]
      have hencloses : (c.id ∈ w.active ∨ c.id = k.root) ↔ Encloses k.root via c.id := by
        rw [h.active, List.mem_toFinset, Encloses, List.mem_cons, or_comm]
      rw [hfilter]
      dsimp only
      rcases hkind with ⟨hk, ho, hencloser⟩ | ⟨hk, hin, ho, hencloser⟩ | ⟨hk, hin, ho, -⟩
      · exact Or.inl ⟨hforeign, hdone, ho, by simp [hk, hn, hencloser]⟩
      · have hclosed : ¬ (via.any (·.isKeyed) && m.isKeyed) = true := Bool.eq_false_iff.1 hk
        rw [if_neg hclosed, if_pos (hencloses.2 hin)]
        exact Or.inl ⟨hforeign, hdone, ho, by simp [Walk.log, hn, hencloser]⟩
      · have hopen : ¬ (via.any (·.isKeyed) && m.isKeyed) = true := Bool.eq_false_iff.1 hk
        rw [if_neg hopen, if_neg fun hmem => hin (hencloses.1 hmem)]
        exact Or.inr ⟨hforeign, hdone, c, ho, rfl⟩

/-- Where nothing is visited, nothing changes. -/
theorem Continues.nothing {starts : List Location}
    (h : DepthFirst Location.key (Location.inner k.registry k.root) w.done starts []) :
    k.Continues [] starts w w none [] [] where
  search := h
  flattened := rfl
  restored := rfl
  logged := by simp
  exact := by simp
  done := fun _ key => by simp
  cases := fun _ => by simp [Accessor.locations]
  skipped := fun _ => rfl

/-- A member that is not opened has a case, or is skipped. -/
theorem Continues.stopped (hf : m.isForeign = false) (hk : m.key ∉ w.done)
    (ho : opened k.root via m = none) :
    k.Continues [] (paths via [m]) w { w with
        done := m.key :: w.done
        cases := w.cases ++ if m.isNested then [] else k.accessor.locations [⟨via, m⟩]
        visits := w.visits ++
          if (Location.encloser? k.root ⟨via, m⟩).isSome then [.recursive ⟨via, m⟩] else [] }
      none [⟨via, m⟩]
      (if (Location.encloser? k.root ⟨via, m⟩).isSome then [.recursive ⟨via, m⟩] else []) where
  search := by
    have hinner : (⟨via, m⟩ : Location).inner k.registry k.root = [] := by
      rw [Location.inner, ho]
    rw [paths_cons hf]
    exact .visit_leaf hk hinner .nil
  flattened := by
    have hentered : (⟨via, m⟩ : Location).entered? k.root = none := by
      simp [Location.entered?, ho]
    simp [hentered, flattenAll]
  restored := rfl
  logged := rfl
  exact := by
    intro v hv
    split_ifs at hv with hencloser
    · obtain ⟨c, hc⟩ := Option.isSome_iff_exists.1 hencloser
      obtain ⟨hc, -, -, hencloses⟩ := Location.encloser?_eq_some.1 hc
      rw [List.mem_singleton.1 hv]
      exact ⟨c, hc, hencloses⟩
    · cases hv
  done := fun _ key => by simp [Location.key]
  cases := fun _ => by
    cases hn : m.isNested <;> simp [hn, Accessor.locations]
  skipped := fun _ => by
    cases hencloser : (Location.encloser? k.root ⟨via, m⟩).isSome <;>
      simp [hencloser, Visit.skipped?]

/-- A struct that is opened is active while its members are walked, and not before or after. -/
theorem Continues.entered {c : Classifier} {w' : Walk σ} {e : Option ε} {tr : List Location}
    {new : List Visit} (hf : m.isForeign = false) (hk : m.key ∉ w.done)
    (ho : opened k.root via m = some c) (hnew : c.id ∉ w.active)
    (h : k.Continues [(c, m.key)] (paths (via ++ [m]) (dataOf k.registry c m.key))
      { w with done := m.key :: w.done, active := insert c.id w.active } w' e tr new) :
    k.Continues [] (paths via [m]) w { w' with active := w'.active.erase c.id } e
      (⟨via, m⟩ :: tr) new where
  search := by
    have hinner : (⟨via, m⟩ : Location).inner k.registry k.root =
        paths (via ++ [m]) (dataOf k.registry c m.key) := by
      rw [Location.inner, ho]
      rfl
    have hsearch := h.search
    rw [← hinner] at hsearch
    have hvisit := DepthFirst.visit (x := (⟨via, m⟩ : Location)) hk hsearch .nil
    rw [List.append_nil] at hvisit
    rwa [paths_cons hf]
  flattened := by
    have hentered : (⟨via, m⟩ : Location).entered? k.root = some (c, m.key) := by
      simp [Location.entered?, ho, Location.key]
    rw [List.filterMap_cons, hentered]
    exact h.flattened
  restored := by
    dsimp only
    rw [h.restored]
    exact Finset.erase_insert hnew
  logged := h.logged
  exact := h.exact
  done := fun he key => by
    dsimp only
    rw [h.done he]
    simp only [List.map_cons, List.mem_cons, Location.key, or_left_comm, or_assoc]
  cases := fun he => by
    have hn : m.isNested = true := (opened_eq_some.1 ho).2.1
    dsimp only
    rw [h.cases he]
    simp [hn]
  skipped := fun he => by
    have hencloser : Location.encloser? k.root ⟨via, m⟩ = none := Location.encloser?_of_opened ho
    rw [h.skipped he]
    simp [hencloser]

/-- What a walk makes of one member, if walks of structs go on as they should. -/
theorem walkMember_continues (h : Enclosed k.registry k.root via w.active)
    (hm : ∀ c, m.storage.classifier = some c → c ∈ k.registry.classifiers)
    (hinner : ∀ c w, Enclosed k.registry k.root (via ++ [m]) w.active → ∃ w' e tr new,
      inner c (via ++ [m]) w = some (w', e) ∧ k.Continues [(c, m.key)]
        (paths (via ++ [m]) (dataOf k.registry c m.key)) w w' e tr new) :
    ∃ w' e tr new, k.walkMember inner via m w = some (w', e) ∧
      k.Continues [] (paths via [m]) w w' e tr new := by
  rcases walkMember_cases h.toOnPath m inner with
    ⟨hskip, hs⟩ | ⟨hf, hk, ho, hs⟩ | ⟨hf, hk, c, ho, hs⟩
  · refine ⟨w, none, [], [], hs, .nothing ?_⟩
    cases hf : m.isForeign with
    | true =>
      rw [paths_cons_foreign hf]
      exact .nil
    | false =>
      rw [paths_cons hf]
      exact .skip (hskip.resolve_left (by simp [hf])) .nil
  · exact ⟨_, none, [⟨via, m⟩], _, hs, .stopped hf hk ho⟩
  · obtain ⟨hnew, henclosed⟩ := h.enter ho (hm c (opened_eq_some.1 ho).1)
    obtain ⟨w', e, tr, new, hw, hcontinues⟩ := hinner c
      { w with done := m.key :: w.done, active := insert c.id w.active } henclosed
    rw [hw] at hs
    exact ⟨_, e, ⟨via, m⟩ :: tr, new, hs, hcontinues.entered hf hk ho hnew⟩

/-! ## Runs -/

theorem paths_append (via ms ms' : List Member) :
    paths via (ms ++ ms') = paths via ms ++ paths via ms' := by
  rw [paths, List.filter_append, List.map_append]
  rfl

/-- Members are walked one after the other, as long as none of them gives an error. -/
theorem walkMembers_continues {ms : List Member} (h : Enclosed k.registry k.root via w.active)
    (hms : ∀ m ∈ ms, ∀ c, m.storage.classifier = some c → c ∈ k.registry.classifiers)
    (hinner : ∀ m ∈ ms, ∀ c w, Enclosed k.registry k.root (via ++ [m]) w.active →
      ∃ w' e tr new, inner c (via ++ [m]) w = some (w', e) ∧ k.Continues [(c, m.key)]
        (paths (via ++ [m]) (dataOf k.registry c m.key)) w w' e tr new) :
    ∃ w' e tr new, walkMembers (k.walkMember inner via) ms w = some (w', e) ∧
      k.Continues [] (paths via ms) w w' e tr new := by
  induction ms generalizing w with
  | nil =>
    exact ⟨w, none, [], [], rfl, .nothing .nil⟩
  | cons m ms ih =>
    have hrest : ∀ x ∈ ms, x ∈ m :: ms := fun x hx => List.mem_cons_of_mem m hx
    obtain ⟨w₁, e₁, tr₁, new₁, hstep, h₁⟩ := walkMember_continues h
      (hms m List.mem_cons_self) (hinner m List.mem_cons_self)
    have henclosed : Enclosed k.registry k.root via w₁.active := h₁.restored ▸ h
    have hpaths : paths via (m :: ms) = paths via [m] ++ paths via ms := paths_append via [m] ms
    rw [walkMembers, hstep, hpaths]
    cases e₁ with
    | none =>
      obtain ⟨w₂, e, tr₂, new₂, hrun, h₂⟩ := ih henclosed (fun x hx => hms x (hrest x hx))
        fun x hx => hinner x (hrest x hx)
      exact ⟨w₂, e, tr₁ ++ tr₂, new₁ ++ new₂, hrun, h₁.append h₂⟩
    | some x =>
      obtain ⟨tr₂, hsearch⟩ := h.exists_search (fun x hx => hms x (hrest x hx))
        (tr₁.map Location.key ++ w.done)
      exact ⟨w₁, some x, tr₁ ++ tr₂, new₁, rfl, h₁.stop hsearch⟩

theorem stemAt_append (stem : String) (via : List Member) (m : Member) :
    stemAt stem (via ++ [m]) = m.key := by
  simp [stemAt]

section
variable {depth : Nat} {c : Classifier} {s : σ}

theorem walk_error {x : ε} (h : k.flattening c (stemAt k.stem via) w.shared = (s, some x)) :
    k.walk (depth + 1) c via w = some ({ w with
      shared := s
      visits := w.visits ++ [.call via w.active, .back via w.active] }, some x) := by
  have hshared : (w.log (.call via w.active)).shared = w.shared := rfl
  rw [walk, hshared, h]
  simp [Walk.log]

theorem walk_members {w' : Walk σ} {e : Option ε}
    (h : k.flattening c (stemAt k.stem via) w.shared = (s, none))
    (hrun : walkMembers (k.walkMember (k.walk depth) via)
      (dataOf k.registry c (stemAt k.stem via))
      { w with shared := s, visits := w.visits ++ [.call via w.active] } = some (w', e)) :
    k.walk (depth + 1) c via w = some (w'.log (.back via w'.active), e) := by
  have hshared : (w.log (.call via w.active)).shared = w.shared := rfl
  rw [walk, hshared, h]
  simp only [Walk.log, hrun, Option.map_some]

end

/-- **A walk ends**, if the depth is more than the number of classifiers that the path has not led
    through, since no struct is entered inside itself. -/
theorem walk_continues (k : Walker σ ε) (depth : Nat) (c : Classifier) (via : List Member)
    (w : Walk σ) (h : Enclosed k.registry k.root via w.active)
    (hdepth : k.registry.classifiers.length < depth + via.length) :
    ∃ w' e tr new, k.walk depth c via w = some (w', e) ∧
      k.Continues [(c, stemAt k.stem via)]
        (paths via (dataOf k.registry c (stemAt k.stem via))) w w' e tr new := by
  induction depth generalizing c via w with
  | zero =>
    have hle := h.leads.length_le
    omega
  | succ depth ih =>
    have hms : ∀ m ∈ dataOf k.registry c (stemAt k.stem via), ∀ d,
        m.storage.classifier = some d → d ∈ k.registry.classifiers :=
      fun m hm d hd => classifier_of_mem_dataOf hm hd
    have hcall : (Visit.call via w.active).Exact k.root := h.toOnPath
    have hback : (Visit.back via w.active).Exact k.root := h.toOnPath
    cases hflat : k.flattening c (stemAt k.stem via) w.shared with
    | mk s e =>
      cases e with
      | some x =>
        obtain ⟨tr, hsearch⟩ := h.exists_search hms w.done
        exact ⟨_, some x, tr, _, walk_error hflat, {
          search := hsearch
          flattened := by rw [List.singleton_append, flattenAll, hflat]
          restored := rfl
          logged := rfl
          exact := by simp [hcall, hback]
          done := nofun
          cases := nofun
          skipped := nofun }⟩
      | none =>
        obtain ⟨w', e, tr, new, hrun, hmembers⟩ := walkMembers_continues
          (w := { w with shared := s, visits := w.visits ++ [.call via w.active] }) h hms
          fun m hm d w hw => by
            have hinner := ih d (via ++ [m]) w hw (by simp; omega)
            rwa [stemAt_append] at hinner
        have hactive : w'.active = w.active := hmembers.restored
        refine ⟨_, e, tr, [.call via w.active] ++ new ++ [.back via w.active],
          walk_members hflat hrun, {
            search := hmembers.search
            flattened := ?_
            restored := hactive
            logged := ?_
            exact := ?_
            done := hmembers.done
            cases := hmembers.cases
            skipped := fun he => ?_ }⟩
        · rw [List.singleton_append, flattenAll, hflat]
          exact hmembers.flattened
        · rw [Walk.log, hmembers.logged, hactive]
          simp
        · intro v hv
          simp only [List.mem_append, List.mem_singleton] at hv
          rcases hv with (rfl | hv) | rfl
          · exact hcall
          · exact hmembers.exact v hv
          · exact hback
        · rw [List.filterMap_append, List.filterMap_append, hmembers.skipped he]
          simp [List.filterMap_cons, Visit.skipped?]

/-! ## More depth -/

theorem walkMember_mono {inner' : Classifier → List Member → Walk σ → Option (Outcome σ ε)}
    (h : ∀ c via w o, inner c via w = some o → inner' c via w = some o) {o : Outcome σ ε}
    (ho : k.walkMember inner via m w = some o) : k.walkMember inner' via m w = some o := by
  rw [walkMember] at ho ⊢
  by_cases hskip : (m.isForeign || w.done.contains m.key) = true
  · rwa [if_pos hskip] at ho ⊢
  · rw [if_neg hskip] at ho ⊢
    generalize (m.storage.classifier.filter fun _ => m.isNested) = nested at ho ⊢
    cases nested with
    | none => exact ho
    | some c =>
      dsimp only at ho ⊢
      split_ifs at ho ⊢ with hk hin
      · exact ho
      · exact ho
      · obtain ⟨p, hp, rfl⟩ := Option.map_eq_some_iff.1 ho
        rw [h _ _ _ p hp]
        rfl

theorem walkMembers_mono {step step' : Member → Walk σ → Option (Outcome σ ε)}
    (h : ∀ m w o, step m w = some o → step' m w = some o) {ms : List Member} {o : Outcome σ ε}
    (ho : walkMembers step ms w = some o) : walkMembers step' ms w = some o := by
  induction ms generalizing w with
  | nil => exact ho
  | cons m ms ih =>
    rw [walkMembers] at ho ⊢
    obtain ⟨⟨w₁, e₁⟩, hstep, hrest⟩ := Option.bind_eq_some_iff.1 ho
    rw [h m w _ hstep, Option.bind_some]
    cases e₁ with
    | none => exact ih hrest
    | some x => exact hrest

/-- More depth makes no difference to a walk that ends. -/
theorem walk_mono {depth depth' : Nat} (hdepth : depth ≤ depth') {c : Classifier}
    {o : Outcome σ ε} (ho : k.walk depth c via w = some o) : k.walk depth' c via w = some o := by
  induction depth generalizing depth' c via w o with
  | zero => cases ho
  | succ depth ih =>
    obtain ⟨depth', rfl⟩ : ∃ n, depth' = n + 1 := ⟨depth' - 1, by omega⟩
    rw [walk] at ho ⊢
    obtain ⟨p, hp, rfl⟩ := Option.map_eq_some_iff.1 ho
    refine Option.map_eq_some_iff.2 ⟨p, ?_, rfl⟩
    split at hp
    · exact hp
    · exact walkMembers_mono (fun m w o => walkMember_mono fun c via w o =>
        ih (Nat.le_of_succ_le_succ hdepth)) hp

end

end Walker

end ObjectLowering.Lowering
