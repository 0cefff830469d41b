/-
  References to a registry that is still growing.

  A reference asks the registry until it finds its element, and remembers the
  element from then on.

  * `Session` is a registry in use with the references made so far, and
    `Session.step` a call on one of them.
  * `Registry.lookup_push`: an id that stands for an element stands for it for
    good.
  * `Session.Sound` is what every call keeps: an id stands for what was first
    offered under it, and what a reference remembers is what a look-up gives.
  * `session_faithful`: so resolving a reference always gives what a look-up of
    its id gives at that moment.
-/
import Mathlib.Data.List.Induction
import ObjectLowering.Model.Reference
import ObjectLowering.Proofs.Ownership

namespace ObjectLowering.Model

/-! ## Adding -/

namespace Registry

variable {r : Registry} {e : Element}

/-- What adding an element does. -/
theorem add_cases (r : Registry) (e : Element) :
    (e.id ≠ "" ∧ r.lookup e.id = none ∧
      r.add e = .ok { r with elements := r.elements ++ [e] }) ∨
    ((e.id = "" ∨ ∃ x, r.lookup e.id = some x) ∧ ∃ cause, r.add e = .error cause) := by
  by_cases hid : e.id = ""
  · exact Or.inr ⟨Or.inl hid, _, by rw [add, if_pos hid]⟩
  · cases h : r.lookup e.id with
    | none => exact Or.inl ⟨hid, rfl, by rw [add, if_neg hid, h]⟩
    | some x => exact Or.inr ⟨Or.inr ⟨x, rfl⟩, _, by rw [add, if_neg hid, h]⟩

theorem find?_concat (es : List Element) (e : Element) (id : String) :
    (es ++ [e]).find? (fun x => x.id == id) =
      (es.find? fun x => x.id == id).or (if e.id = id then some e else none) := by
  rw [List.find?_append, List.find?_singleton]
  simp only [beq_iff_eq]

/-- A new element is found where nothing was. -/
theorem lookup_push (r : Registry) (e : Element) (id : String) :
    ({ r with elements := r.elements ++ [e] } : Registry).lookup id =
      (r.lookup id).or (if e.id = id then some e else none) := find?_concat r.elements e id

theorem mem_of_lookup {id : String} (h : r.lookup id = some e) : e ∈ r.elements ∧ e.id = id := by
  rw [lookup] at h
  have hid := List.find?_some h
  exact ⟨List.mem_of_find?_eq_some h, beq_iff_eq.1 hid⟩

end Registry

namespace Reference

/-- A reference remembers what it found. -/
theorem found_resolve (ref : Reference) (r : Option Registry) :
    (ref.resolve r).2.found = (ref.resolve r).1 := by
  rw [resolve]
  split
  · assumption
  · rfl

theorem name_resolve (ref : Reference) (r : Option Registry) :
    (ref.resolve r).2.kind = ref.kind ∧ (ref.resolve r).2.id = ref.id := by
  rw [resolve]
  split <;> exact ⟨rfl, rfl⟩

end Reference

/-! ## Sessions -/

/-- A call on a registry, or on one of the references to it. -/
inductive Session.Call where
  | add (e : Element)
  /-- Makes a reference. -/
  | refer (kind : ReferenceKind) (id : String)
  /-- Resolves the reference that was made as that of the index. -/
  | resolve (index : Nat)

/-- What a call answers. -/
inductive Session.Answer where
  | added
  | refused (cause : AddError)
  | made
  | resolved (found : Option Element)

/-- A registry in use, and the references in the order in which they were made. -/
structure Session where
  registry : Registry := {}
  references : List Reference := []

namespace Session

/-- The session after a call, and what the call answers. -/
def step (s : Session) : Call → Session × Answer
  | .add e =>
    match s.registry.add e with
    | .ok registry => ({ s with registry }, .added)
    | .error cause => (s, .refused cause)
  | .refer kind id => ({ s with references := s.references ++ [{ kind, id }] }, .made)
  | .resolve index =>
    match s.references[index]? with
    | some ref =>
      let (found, ref) := ref.resolve (some s.registry)
      ({ s with references := s.references.set index ref }, .resolved found)
    | none => (s, .resolved none)

/-- The session after calls on an empty registry. -/
def after (calls : List Call) : Session := calls.foldl (fun s c => (s.step c).1) {}

/-- The elements that calls offer to the registry. -/
def offered (calls : List Call) : List Element :=
  calls.filterMap fun
    | .add e => some e
    | _ => none

/-- The references that calls make. -/
def referred (calls : List Call) : List (ReferenceKind × String) :=
  calls.filterMap fun
    | .refer kind id => some (kind, id)
    | _ => none

/-- What a look-up of the id gives, if it is of the kind asked for. -/
def fresh (s : Session) (kind : ReferenceKind) (id : String) : Option Element :=
  (s.registry.lookup id).filter kind.accepts

/-- What holds between calls. -/
structure Sound (calls : List Call) (s : Session) : Prop where
  built : s.registry.Built
  /-- What is listed was offered, in this order. -/
  order : s.registry.elements.Sublist (offered calls)
  /-- An id stands for what was first offered under it. -/
  lookup_eq : ∀ id, s.registry.lookup id =
    if id = "" then none else (offered calls).find? fun e => e.id == id
  /-- References keep their kinds and ids. -/
  named : s.references.map (fun ref => (ref.kind, ref.id)) = referred calls
  /-- What a reference remembers is what a look-up gives. -/
  remembered : ∀ ref ∈ s.references, ∀ e, ref.found = some e → s.fresh ref.kind ref.id = some e

/-- What can be told of a session from outside. -/
structure Faithful (calls : List Call) (s : Session) : Prop where
  ids_nodup : (s.registry.elements.map Element.id).Nodup
  order : s.registry.elements.Sublist (offered calls)
  /-- A look-up finds exactly what is listed. -/
  lookup_iff : ∀ id e, s.registry.lookup id = some e ↔ e ∈ s.registry.elements ∧ e.id = id
  /-- That is what was first offered under the id. -/
  lookup_eq : ∀ id, s.registry.lookup id =
    if id = "" then none else (offered calls).find? fun e => e.id == id
  /-- Refused are empty ids and ids that stand for something. -/
  refused_iff : ∀ e, (∃ cause, (s.step (.add e)).2 = .refused cause) ↔
    e.id = "" ∨ ∃ x ∈ s.registry.elements, x.id = e.id
  /-- A refusal changes nothing. -/
  refused : ∀ e cause, (s.step (.add e)).2 = .refused cause → (s.step (.add e)).1 = s
  named : s.references.map (fun ref => (ref.kind, ref.id)) = referred calls
  /-- Resolving a reference gives what a look-up gives at that moment. -/
  resolved : ∀ index kind id, (referred calls)[index]? = some (kind, id) →
    (s.step (.resolve index)).2 = .resolved (s.fresh kind id)
  /-- Resolving leaves the registry as it is. -/
  unchanged : ∀ index, (s.step (.resolve index)).1.registry = s.registry

section
variable {calls : List Call} {s : Session} {c : Call}

theorem after_concat (calls : List Call) (c : Call) :
    after (calls ++ [c]) = ((after calls).step c).1 := by
  rw [after, List.foldl_concat]
  rfl

namespace Sound

theorem empty : Sound [] {} where
  built := .loaded List.nodup_nil
  order := List.Sublist.refl []
  lookup_eq id := by
    split_ifs <;> rfl
  named := rfl
  remembered ref h := by cases h

/-- Resolving a reference gives what a look-up gives. -/
theorem resolve_eq (h : Sound calls s) {ref : Reference} (href : ref ∈ s.references) :
    (ref.resolve (some s.registry)).1 = s.fresh ref.kind ref.id := by
  rw [Reference.resolve]
  cases hfound : ref.found with
  | some e => exact (h.remembered ref href e hfound).symm
  | none =>
    simp only [Option.bind_some, Reference.target]
    split_ifs with hid
    · -- no element has an empty id
      rw [fresh, hid, h.lookup_eq "", if_pos rfl]
      rfl
    · rfl

/-- What is found under an id is found there after every addition. -/
theorem fresh_push {e x : Element} {kind : ReferenceKind} {id : String}
    (h : s.fresh kind id = some x) :
    ({ s with registry := { s.registry with elements := s.registry.elements ++ [e] } } :
      Session).fresh kind id = some x := by
  obtain ⟨hx, hkind⟩ := Option.filter_eq_some_iff.1 h
  rw [fresh, Registry.lookup_push, hx, Option.some_or]
  exact Option.filter_eq_some_iff.2 ⟨rfl, hkind⟩

/-- An offer under an id that stands for something is in vain. -/
theorem add (h : Sound calls s) (e : Element) : Sound (calls ++ [.add e]) (s.step (.add e)).1 := by
  have hoffered : offered (calls ++ [.add e]) = offered calls ++ [e] := List.filterMap_append
  have hreferred : referred (calls ++ [.add e]) = referred calls :=
    List.filterMap_append.trans (List.append_nil _)
  rcases s.registry.add_cases e with ⟨hid, hnew, hadd⟩ | ⟨htaken, cause, hadd⟩
  · have hstep : (s.step (.add e)).1 =
        { s with registry := { s.registry with elements := s.registry.elements ++ [e] } } := by
      rw [step, hadd]
    rw [hstep]
    refine ⟨h.built.add hadd, ?_, fun id => ?_, ?_, fun ref href x hx => ?_⟩
    · rw [hoffered]
      exact h.order.append (List.Sublist.refl [e])
    · rw [Registry.lookup_push, h.lookup_eq, hoffered, Registry.find?_concat]
      by_cases hempty : id = ""
      · rw [if_pos hempty, if_pos hempty, hempty, if_neg hid]
        rfl
      · rw [if_neg hempty, if_neg hempty]
    · rw [hreferred]
      exact h.named
    · exact fresh_push (h.remembered ref href x hx)
  · have hstep : (s.step (.add e)).1 = s := by rw [step, hadd]
    rw [hstep]
    refine ⟨h.built, ?_, fun id => ?_, ?_, h.remembered⟩
    · rw [hoffered]
      exact h.order.trans (List.sublist_append_left _ _)
    · rw [h.lookup_eq, hoffered, Registry.find?_concat]
      split_ifs with hempty hmatch
      · rfl
      · obtain ⟨x, hx⟩ := htaken.resolve_left fun he => hempty (hmatch.symm.trans he)
        rw [h.lookup_eq, hmatch, if_neg hempty] at hx
        rw [hx, Option.some_or]
      · rw [Option.or_none]
    · rw [hreferred]
      exact h.named

theorem refer (h : Sound calls s) (kind : ReferenceKind) (id : String) :
    Sound (calls ++ [.refer kind id]) (s.step (.refer kind id)).1 := by
  have hoffered : offered (calls ++ [.refer kind id]) = offered calls :=
    List.filterMap_append.trans (List.append_nil _)
  have hreferred : referred (calls ++ [.refer kind id]) = referred calls ++ [(kind, id)] :=
    List.filterMap_append
  refine ⟨h.built, hoffered ▸ h.order, hoffered ▸ h.lookup_eq, ?_, fun ref href e he => ?_⟩
  · simp only [step, List.map_append, h.named, hreferred, List.map_cons, List.map_nil]
  · -- the new reference remembers nothing
    rcases List.mem_append.1 href with href | href
    · exact h.remembered ref href e he
    · rw [List.mem_singleton.1 href] at he
      cases he

theorem resolve (h : Sound calls s) (index : Nat) :
    Sound (calls ++ [.resolve index]) (s.step (.resolve index)).1 := by
  have hoffered : offered (calls ++ [.resolve index]) = offered calls :=
    List.filterMap_append.trans (List.append_nil _)
  have hreferred : referred (calls ++ [.resolve index]) = referred calls :=
    List.filterMap_append.trans (List.append_nil _)
  have hsame : Sound (calls ++ [.resolve index]) s :=
    ⟨h.built, hoffered ▸ h.order, hoffered ▸ h.lookup_eq, hreferred ▸ h.named, h.remembered⟩
  cases href : s.references[index]? with
  | none => simpa only [step, href] using hsame
  | some ref =>
    have hmem := List.mem_of_getElem? href
    obtain ⟨hkind, hid⟩ := ref.name_resolve (some s.registry)
    simp only [step, href]
    refine ⟨hsame.built, hsame.order, hsame.lookup_eq, ?_, fun ref' href' e he => ?_⟩
    · obtain ⟨hlt, rfl⟩ := List.getElem?_eq_some_iff.1 href
      have hlt' : index < (s.references.map fun ref => (ref.kind, ref.id)).length := by
        rwa [List.length_map]
      have hname : (s.references[index].kind, s.references[index].id) =
          (s.references.map fun ref => (ref.kind, ref.id))[index] := by
        rw [List.getElem_map]
      rw [List.map_set, hkind, hid, hname, List.set_getElem_self, hsame.named]
    · rcases List.mem_or_eq_of_mem_set href' with href' | rfl
      · exact h.remembered ref' href' e he
      · rw [ref.found_resolve, h.resolve_eq hmem] at he
        rw [hkind, hid]
        exact he

/-- **A call keeps a session sound.** -/
theorem step (h : Sound calls s) (c : Call) : Sound (calls ++ [c]) (s.step c).1 := by
  cases c with
  | add e => exact h.add e
  | refer kind id => exact h.refer kind id
  | resolve index => exact h.resolve index

/-- **All calls do.** -/
theorem after (calls : List Call) : Sound calls (Session.after calls) := by
  induction calls using List.reverseRecOn with
  | nil => exact empty
  | append_singleton calls c ih =>
    rw [after_concat]
    exact ih.step c

end Sound

end

end Session

/-- **References are faithful**, whatever calls were made before. -/
theorem session_faithful (calls : List Session.Call) :
    Session.Faithful calls (Session.after calls) := by
  have h := Session.Sound.after calls
  have hmem : ∀ id e, (Session.after calls).registry.lookup id = some e ↔
      e ∈ (Session.after calls).registry.elements ∧ e.id = id := by
    intro id e
    constructor
    · exact Registry.mem_of_lookup
    · rintro ⟨he, rfl⟩
      exact Registry.lookup_of_mem h.built.ids_nodup he
  refine {
    ids_nodup := h.built.ids_nodup
    order := h.order
    lookup_iff := hmem
    lookup_eq := h.lookup_eq
    refused_iff := fun e => ?_
    refused := fun e cause hrefused => ?_
    named := h.named
    resolved := fun index kind id hreferred => ?_
    unchanged := fun index => ?_ }
  · rcases (Session.after calls).registry.add_cases e with
      ⟨hid, hnew, hadd⟩ | ⟨htaken, cause, hadd⟩
    · refine iff_of_false ?_ ?_
      · rintro ⟨cause, hcause⟩
        rw [Session.step, hadd] at hcause
        cases hcause
      · rintro (hempty | ⟨x, hx, hxid⟩)
        · exact hid hempty
        · rw [(hmem e.id x).2 ⟨hx, hxid⟩] at hnew
          cases hnew
    · refine iff_of_true ⟨cause, by rw [Session.step, hadd]⟩ (htaken.imp_right ?_)
      rintro ⟨x, hx⟩
      exact ⟨x, (hmem e.id x).1 hx⟩
  · rw [Session.step] at hrefused ⊢
    split at hrefused
    · cases hrefused
    · rfl
  · rw [← h.named, List.getElem?_map, Option.map_eq_some_iff] at hreferred
    obtain ⟨ref, href, hname⟩ := hreferred
    cases hname
    simp only [Session.step, href]
    rw [h.resolve_eq (List.mem_of_getElem? href)]
  · rw [Session.step]
    split <;> rfl

end ObjectLowering.Model
