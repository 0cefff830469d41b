/-
  The kinds in a contract, and what ids are allocated for.

  A class claims its ids for its members, then for the levels of its machines,
  then for features of nested structs; an id is allocated for the first claim
  to its key (`Plan.originOf`).  The contract goes by the key alone: what is
  not the key of a member is that of a level if it starts with the prefix of
  the settings, as this is written there.  Lowering makes a constant name of
  the prefix.

  * `startsWith_stateKey`: the key of a level starts with the written prefix
    iff this is a constant name as it stands.
  * `generate_kinds`: members always have their kind, levels have it iff the
    prefix is a constant name, and features of nested structs have it iff
    their keys do not start with the prefix.
-/
import ObjectLowering.Proofs.Accessors
import ObjectLowering.Proofs.Batches
import ObjectLowering.Proofs.ClassFilter
import ObjectLowering.Proofs.Loading
import ObjectLowering.Proofs.Nesting

namespace ObjectLowering

/-! ## Keys -/

namespace Lowering

open Code Model Text

section
variable {r : Registry} {c : Classifier} {stems : Stems} {stem key : String} {l : Location}

theorem stem_prefix_keyOf (h : IsIdentifier stem) (name : String) :
    (stem ++ "_").toList <+: (keyOf stem name).toList := by
  rw [keyOf_eq h]
  exact ⟨_, String.toList_append.symm⟩

/-- The key of a level starts with the text that its stem is made from iff the stem is this text. -/
theorem startsWith_stateKey {text : String} (h : text ≠ "") (name : String) :
    startsWith (keyOf (constantName text) name) (text ++ "_") = true ↔
      constantName text = text := by
  have hkey := keyOf_eq (isIdentifier_constantName text) name
  constructor
  · intro hstarts
    rw [startsWith_iff, String.toList_append] at hstarts
    have hfront := (List.prefix_append _ _).trans hstarts
    have hid := isIdentifier_keyOf (isIdentifier_constantName text) name
    -- a front of an identifier is one, so only its case can change
    have htext : IsIdentifier text := by
      refine ⟨fun c hc => hid.chars c (hfront.subset hc), ?_⟩
      obtain ⟨c, cs, hcs, hdigit⟩ := hid.head
      cases hlist : text.toList with
      | nil => exact absurd (String.toList_eq_nil_iff.1 hlist) h
      | cons x xs =>
        rw [hlist, hcs, List.cons_prefix_cons] at hfront
        exact ⟨x, xs, rfl, hfront.1 ▸ hdigit⟩
    have hlength : text.toList.length = (constantName text).toList.length := by
      rw [constantName, htext.ident_eq, toUpper, String.toList_ofList, List.length_map]
    have hstem : (constantName text).toList <+: (keyOf (constantName text) name).toList := by
      rw [hkey, String.toList_append, String.toList_append, List.append_assoc]
      exact List.prefix_append _ _
    have hsame := List.prefix_of_prefix_length_le hfront hstem hlength.le
    exact (String.toList_inj.1 (hsame.eq_of_length hlength)).symm
  · intro hname
    have hstem := stem_prefix_keyOf (isIdentifier_constantName text) name
    rw [hname] at hstem ⊢
    exact startsWith_iff.2 hstem

theorem prefix_keyOf {front : List Char} (h : IsIdentifier stem) (hfront : front <+: stem.toList)
    (name : String) : front <+: (keyOf stem name).toList := by
  rw [keyOf_eq h, String.append_assoc, String.toList_append]
  exact hfront.trans (List.prefix_append _ _)

/-- The keys of member paths start with the stem. -/
theorem Reached.stem_front (hstem : IsIdentifier stem) (h : Reached r c stem l) :
    (stem ++ "_").toList <+: l.key.toList := by
  induction h with
  | top hm =>
    rw [Location.key, key_of_mem_dataOf hm]
    exact stem_prefix_keyOf hstem _
  | inside hreached _ hx _ ih =>
    rw [Location.key, key_of_mem_dataOf hx]
    exact prefix_keyOf (hreached.isIdentifier hstem) ih _

/-- So do the keys that are claimed for features of nested structs. -/
theorem stem_prefix_survey (hstem : IsIdentifier stems.feature)
    (h : key ∈ (Plan.of r stems c).survey.claims.map (·.1)) :
    (stems.feature ++ "_").toList <+: key.toList := by
  obtain ⟨l, name, hreached, rfl⟩ := key_of_mem_surveyClaims h
  exact prefix_keyOf (hreached.isIdentifier hstem) (hreached.stem_front hstem) name

end

/-! ## Origins -/

/-- The keys of features and those of levels have prefixes none of which starts the other. -/
def Stems.Apart (s : Stems) : Prop :=
  startsWith (s.feature ++ "_") (s.state ++ "_") = false ∧
    startsWith (s.state ++ "_") (s.feature ++ "_") = false
deriving Decidable

/-- So are the defaults. -/
example : (Stems.ofTexts "" "").Apart := by decide +kernel

/-- What an id can be allocated for. -/
inductive Origin where
  /-- A member of the class, its own or one that it has from others. -/
  | member
  /-- A level of a state machine. -/
  | level
  /-- A feature of a struct that is nested by value. -/
  | nested
deriving DecidableEq, Repr

namespace Plan

/-- The claims of a class in order, each with what it is made for. -/
def purposes (p : Plan) (stems : Stems) : List ((String × String) × Origin) :=
  (claimsOf p.flattened).map (·, .member) ++
  (p.machines.flatMap fun m => (machineClaims stems m).map (·.2)).map (·, .level) ++
  p.survey.claims.map (·, .nested)

/-- What the id of a key is allocated for: the first claim to the key, since the others find it
    listed. -/
def originOf (p : Plan) (stems : Stems) (key : String) : Option Origin :=
  ((p.purposes stems).find? fun q => q.1.1 == key).map (·.2)

theorem map_purposes (r : Registry) (stems : Stems) (c : Classifier) :
    ((of r stems c).purposes stems).map (·.1) = classClaims r stems c := by
  simp [purposes, classClaims, claims, List.map_flatMap, Function.comp_def]

variable {p : Plan} {stems : Stems} {key : String}

theorem find?_purpose (qs : List (String × String)) (o : Origin)
    (rest : List ((String × String) × Origin)) (key : String) :
    ((qs.map (·, o) ++ rest).find? fun q => q.1.1 == key).map (·.2) =
      if key ∈ qs.map (·.1) then some o else (rest.find? fun q => q.1.1 == key).map (·.2) := by
  induction qs with
  | nil => rfl
  | cons q qs ih =>
    rw [List.map_cons, List.cons_append, List.find?_cons]
    by_cases hq : q.1 = key
    · simp [hq]
    · simp only [beq_false_of_ne hq, ih, List.map_cons, List.mem_cons, Ne.symm hq, false_or]

/-- The origin by the sorts of claims. -/
theorem originOf_eq (p : Plan) (stems : Stems) (key : String) : p.originOf stems key =
    if key ∈ (claimsOf p.flattened).map (·.1) then some .member
    else if key ∈ p.machines.flatMap (fun m => m.levels.map fun l => keyOf stems.state l.name) then
      some .level
    else if key ∈ p.survey.claims.map (·.1) then some .nested
    else none := by
  have hlevels : (p.machines.flatMap fun m => (machineClaims stems m).map (·.2)).map (·.1) =
      p.machines.flatMap fun m => m.levels.map fun l => keyOf stems.state l.name := by
    simp [machineClaims, List.map_flatMap, Function.comp_def]
  have hnested := find?_purpose p.survey.claims .nested [] key
  rw [List.append_nil] at hnested
  rw [originOf, purposes, List.append_assoc, find?_purpose, find?_purpose, hlevels, hnested]
  rfl

theorem originOf_isSome : (p.originOf stems key).isSome ↔
    key ∈ (p.purposes stems).map (·.1.1) := by
  simp [originOf]

theorem originOf_eq_member :
    p.originOf stems key = some .member ↔ key ∈ (claimsOf p.flattened).map (·.1) := by
  rw [originOf_eq]
  split_ifs <;> simp_all

theorem originOf_eq_level (h : p.originOf stems key = some .level) :
    key ∉ (claimsOf p.flattened).map (·.1) ∧ ∃ name, key = keyOf stems.state name := by
  rw [originOf_eq] at h
  split at h
  · cases h
  · next hmember =>
    split at h
    · next hlevel =>
      obtain ⟨m, -, hl⟩ := List.mem_flatMap.1 hlevel
      obtain ⟨l, -, rfl⟩ := List.mem_map.1 hl
      exact ⟨hmember, l.name, rfl⟩
    · split at h <;> cases h

theorem originOf_eq_nested (h : p.originOf stems key = some .nested) :
    key ∉ (claimsOf p.flattened).map (·.1) ∧ key ∈ p.survey.claims.map (·.1) := by
  rw [originOf_eq] at h
  split at h
  · cases h
  · next hmember =>
    split at h
    · cases h
    · split at h
      · next hnested => exact ⟨hmember, hnested⟩
      · cases h

end Plan

/-! ## Entries -/

namespace IdTable

variable {t t' : IdTable} {name : String} {claims : List (String × String)} {n : Nat}

/-- New keys are listed in the order of their first claims. -/
theorem claimAll_keys (h : t.Valid) (hc : t.claimAll name claims = (t', n, none)) :
    (t'.scopeAt name).entries.map (·.key) = (t.scopeAt name).entries.map (·.key) ++
      ((claims.map (·.1)).filter (· ∉ (t.scopeAt name).entries.map (·.key))).eraseDups := by
  induction claims generalizing t n with
  | nil =>
    obtain ⟨rfl, -⟩ := Prod.mk.inj hc
    exact (List.append_nil _).symm
  | cons p claims ih =>
    obtain ⟨key, owner⟩ := p
    cases hp : t.claim name key owner with
    | error c =>
      rw [claimAll_error hp] at hc
      cases hc
    | ok q =>
      obtain ⟨t₁, e⟩ := q
      rw [claimAll_ok hp, Prod.mk.injEq, Prod.mk.injEq] at hc
      have hkeys : (t₁.scopeAt name).entries.map (·.key) = (t.scopeAt name).entries.map (·.key) ++
          if key ∈ (t.scopeAt name).entries.map (·.key) then [] else [key] := by
        rw [claim_entries hp, List.map_append, claim_entry h hp]
        split_ifs <;> simp_all
      rw [ih (h.claim hp) (Prod.ext hc.1 (Prod.ext rfl hc.2.2)), hkeys, List.map_cons]
      by_cases hkey : key ∈ (t.scopeAt name).entries.map (·.key)
      · rw [if_pos hkey, List.append_nil, List.filter_cons_of_neg (by simpa using hkey)]
      · rw [if_neg hkey, List.filter_cons_of_pos (by simpa using hkey), List.eraseDups_cons,
          List.filter_filter, List.append_assoc]
        simp [beq_eq_decide, Bool.and_comm]

end IdTable

section
variable {r : Registry} {stems : Stems} {t : IdTable} {u : CodeUnit}

/-- Calls for other classes leave the scope of a class alone. -/
theorem tableAfter_elsewhere {before : List Classifier} {n : String}
    (h : ∀ d ∈ before, d.id ≠ n) : (tableAfter r stems t before).scopeAt n = t.scopeAt n := by
  induction before generalizing t with
  | nil => rfl
  | cons d before ih =>
    have hcall : (lowerClass r stems t d).1.scopeAt n = t.scopeAt n := by
      by_cases hf : family r d = .simObject
      · rw [lowerClass_table hf]
        exact claimsRun_elsewhere r stems t (h d List.mem_cons_self).symm
      · obtain ⟨u, hu⟩ := lowerClass_other hf stems
        rw [hu]
    exact (ih fun x hx => h x (List.mem_cons_of_mem _ hx)).trans hcall

theorem classifiers_ids_nodup (hr : r.Built) : (r.classifiers.map (·.id)).Nodup :=
  Registry.filterMap_ids_nodup hr.ids_nodup fun e c he => by
    cases e <;> simp_all [Element.id, Element.identity]

/-- No class has the id of one that is called before it. -/
theorem id_ne_of_called_before (hr : r.Built) {c : Classifier} {before : List Classifier}
    (h : before ++ [c] <+: r.classifiers.filter isEligible) : ∀ d ∈ before, d.id ≠ c.id := by
  intro d hd he
  have hids : ((r.classifiers.filter isEligible).map (·.id)).Nodup :=
    (classifiers_ids_nodup hr).sublist (List.filter_sublist.map _)
  have hnodup := hids.sublist (h.sublist.map _)
  rw [List.map_append, List.nodup_append] at hnodup
  exact hnodup.2.2 d.id (List.mem_map_of_mem hd) _ (by simp) he

/-- **The ids of a unit**: those of the keys that the class claims, each once, in the order of the
    first claims. -/
theorem keys_of_mem_units {hash : String → UInt64} {cancel : Cancellation} (hr : r.Built)
    (hu : u ∈ (lowerAll r stems { hash } cancel).units) :
    (u.family = .simObject ∧
      (∃ ids, u = (Plan.of r stems u.classifier).unit r stems ids) ∧
      u.ids.map (·.key) = ((classClaims r stems u.classifier).map (·.1)).eraseDups) ∨
    (u.family ≠ .simObject ∧ u.ids = []) := by
  obtain ⟨before, t', hfront, hl⟩ := mem_units_call hu
  by_cases hf : family r u.classifier = .simObject
  · left
    have hvalid : (tableAfter r stems { hash } before).Valid := by
      obtain ⟨ops, hops⟩ := tableAfter_run r stems { hash } before
      rw [hops]
      exact (IdTable.valid_empty hash).run ops
    rcases lowerClass_cases hf stems (tableAfter r stems { hash } before) with
      ⟨t₁, n, hc, hok⟩ | ⟨t₁, n, claimant, collision, -, herr⟩
    · rw [hl] at hok
      have hunit := Except.ok.inj (Prod.mk.inj hok).2
      have hkeys := IdTable.claimAll_keys (hvalid.withScope _) hc
      rw [IdTable.scopeAt_withScope, tableAfter_elsewhere (id_ne_of_called_before hr hfront)]
        at hkeys
      refine ⟨by rw [hunit]; rfl, ⟨_, hunit⟩, ?_⟩
      rw [hunit]
      refine (congrArg (List.map (·.key)) (IdTable.entries_eq t₁ _)).trans ?_
      rw [hkeys]
      simp [IdTable.scopeAt, IdTable.scope?, Plan.unit, Plan.of]
    · rw [hl] at herr
      cases (Prod.mk.inj herr).2
  · right
    rcases lowerClass_sorts hl with ⟨-, hunit⟩ | ⟨-, hunit⟩ | ⟨-, hunit⟩ | ⟨h, -⟩
    · rw [hunit]
      exact ⟨hf, rfl⟩
    · rw [hunit]
      exact ⟨hf, rfl⟩
    · rw [hunit]
      refine ⟨fun h => ?_, rfl⟩
      cases h
    · exact absurd h hf

end

end Lowering

/-! ## Rows -/

namespace Report

open Code Lowering Model Text

/-- What a kind says that an id was allocated for. -/
def RowKind.origin : RowKind → Origin
  | .attribute | .associationEnd => .member
  | .state => .level
  | .nested => .nested

/-- The prefix by which a contract knows the keys of levels: the configured text as it is written,
    or the default. -/
def prefixText (stateText : String) : String :=
  if stateText = "" then defaultStateStem else stateText

section
variable {members : List Member} {text : String} {e : IdEntry}

/-- A row goes by the last member that has the key, or else by the prefix. -/
theorem rowOf_cases (members : List Member) (text : String) (e : IdEntry) :
    (∃ m ∈ members, m.key = e.key ∧ rowOf members text e = memberRow e m) ∨
    (e.key ∉ members.map (·.key) ∧ (rowOf members text e).kind =
      if startsWith e.key (text ++ "_") then .state else .nested) := by
  unfold rowOf
  split
  · next m hm =>
    have hkey : m.key = e.key := by simpa using List.find?_some hm
    exact Or.inl ⟨m, List.mem_reverse.1 (List.mem_of_find?_eq_some hm), hkey, rfl⟩
  · next hnone =>
    refine Or.inr ⟨fun hmem => ?_, ?_⟩
    · obtain ⟨m, hm, hkey⟩ := List.mem_map.1 hmem
      exact List.find?_eq_none.1 hnone m (List.mem_reverse.2 hm) (beq_iff_eq.2 hkey)
    · split_ifs <;> rfl

@[simp] theorem rowOf_key (members : List Member) (text : String) (e : IdEntry) :
    (rowOf members text e).key = e.key := by
  unfold rowOf
  split
  · rfl
  · split_ifs <;> rfl

theorem rowOf_kind_of_not_mem (h : e.key ∉ members.map (·.key)) :
    (rowOf members text e).kind = if startsWith e.key (text ++ "_") then .state else .nested := by
  rcases rowOf_cases members text e with ⟨m, hm, hkey, -⟩ | ⟨-, hkind⟩
  · exact absurd (List.mem_map.2 ⟨m, hm, hkey⟩) h
  · exact hkind

theorem origin_rowOf_iff :
    (rowOf members text e).kind.origin = .member ↔ e.key ∈ members.map (·.key) := by
  rcases rowOf_cases members text e with ⟨m, hm, hkey, hrow⟩ | ⟨hmem, hkind⟩
  · refine iff_of_true ?_ (List.mem_map.2 ⟨m, hm, hkey⟩)
    rw [hrow, memberRow]
    split_ifs <;> rfl
  · refine iff_of_false ?_ hmem
    rw [hkind]
    split_ifs <;> nofun

theorem rowOf_of_origin (h : (rowOf members text e).kind.origin = .member) :
    ∃ m ∈ members, m.key = e.key ∧
      (rowOf members text e).kind = if m.feature.isEnd then .associationEnd else .attribute := by
  rcases rowOf_cases members text e with ⟨m, hm, hkey, hrow⟩ | ⟨hmem, -⟩
  · exact ⟨m, hm, hkey, by rw [hrow]; rfl⟩
  · exact absurd (origin_rowOf_iff.1 h) hmem

end

/-- A contract has a table with the rows of every unit. -/
theorem rowsText_infix_contract (title stateText : String) {units : List CodeUnit} {u : CodeUnit}
    (hu : u ∈ units) :
    (rowsText (rows u stateText)).toList <:+: (contract title stateText units).toList := by
  have htable : (rowsText (rows u stateText)).toList <:+: (unitText stateText u).toList :=
    ⟨("## " ++ u.name ++ "\n\n**Family:** " ++ u.family.name ++ "\n\n").toList,
      (eventsText u.events ++ diagnosticsText u.diagnostics).toList, by
        simp only [unitText, String.toList_append, List.append_assoc]⟩
  have hunit : (unitText stateText u).toList <:+:
      (String.join (units.map (unitText stateText))).toList := by
    obtain ⟨us, vs, rfl⟩ := List.append_of_mem hu
    refine ⟨(String.join (us.map (unitText stateText))).toList,
      (String.join (vs.map (unitText stateText))).toList, ?_⟩
    rw [List.map_append, String.join_append, List.map_cons, String.join_cons,
      String.toList_append, String.toList_append, List.append_assoc]
  have hunits : (String.join (units.map (unitText stateText))).toList <:+:
      (contract title stateText units).toList := by
    unfold contract
    rw [String.toList_append, String.toList_append]
    exact List.infix_append _ _ _
  exact htable.trans (hunit.trans hunits)

/-! ### Rows of a plan -/

section
variable {p : Plan} {stems : Stems} {members : List Member} {text : String} {e : IdEntry}
  (hmembers : ∀ k, k ∈ members.map (·.key) ↔ k ∈ (claimsOf p.flattened).map (·.1))
include hmembers

theorem origin_row_member : (rowOf members text e).kind.origin = .member ↔
    p.originOf stems e.key = some .member := by
  rw [origin_rowOf_iff, hmembers, Plan.originOf_eq_member]

theorem kind_row_level (htext : text ≠ "") (hstate : stems.state = constantName text)
    (h : p.originOf stems e.key = some .level) :
    (rowOf members text e).kind = if text = stems.state then .state else .nested := by
  obtain ⟨hmember, name, hname⟩ := Plan.originOf_eq_level h
  refine (rowOf_kind_of_not_mem fun hm => hmember ((hmembers _).1 hm)).trans (if_congr ?_ rfl rfl)
  rw [hname, hstate, startsWith_stateKey htext, eq_comm]

theorem kind_row_nested (h : p.originOf stems e.key = some .nested) :
    (rowOf members text e).kind = if startsWith e.key (text ++ "_") then .state else .nested :=
  rowOf_kind_of_not_mem fun hm => (Plan.originOf_eq_nested h).1 ((hmembers _).1 hm)

end

/-- A key that starts with the prefix of the features does not start with another one that is apart
    from it. -/
theorem not_startsWith_of_apart {stems : Stems} {key : String} (h : stems.Apart)
    (hkey : (stems.feature ++ "_").toList <+: key.toList) :
    startsWith key (stems.state ++ "_") = false := by
  rw [Bool.eq_false_iff]
  intro hstate
  rw [startsWith_iff] at hstate
  rcases List.prefix_or_prefix_of_prefix hkey hstate with hp | hp
  · exact Bool.eq_false_iff.1 h.2 (startsWith_iff.2 hp)
  · exact Bool.eq_false_iff.1 h.1 (startsWith_iff.2 hp)

/-- **A row tells the origin** of its id if the prefix is that of the keys of levels and is apart
    from that of the features. -/
theorem origin_row_right {r : Registry} {c : Classifier} {stems : Stems} {members : List Member}
    {e : IdEntry} {o : Origin}
    (hmembers : ∀ k, k ∈ members.map (·.key) ↔
      k ∈ (claimsOf (Plan.of r stems c).flattened).map (·.1))
    (hfeature : IsIdentifier stems.feature) (hstate : stems.state = constantName stems.state)
    (hapart : stems.Apart) (ho : (Plan.of r stems c).originOf stems e.key = some o) :
    (rowOf members stems.state e).kind.origin = o := by
  cases o with
  | member => exact (origin_row_member hmembers).2 ho
  | level =>
    have hne : stems.state ≠ "" := hstate ▸ (isIdentifier_constantName _).ne_empty
    rw [kind_row_level hmembers hne hstate ho, if_pos rfl]
    rfl
  | nested =>
    have hstarts := stem_prefix_survey hfeature (Plan.originOf_eq_nested ho).2
    rw [kind_row_nested hmembers ho, not_startsWith_of_apart hapart hstarts]
    rfl

/-! ## Kinds and origins -/

/-- How the kinds in the contract of a unit stand to what its ids were allocated for. -/
structure Kinds (p : Plan) (stems : Stems) (stateText : String) (u : CodeUnit) : Prop where
  /-- A simulation object has one row for every key that it claims, other classes have none. -/
  keys : (rows u stateText).map (·.key) =
    if u.family = .simObject then ((p.purposes stems).map (·.1.1)).eraseDups else []
  origins : ∀ x ∈ rows u stateText, (p.originOf stems x.key).isSome
  /-- Attributes and ends are the ids of members, and the kind is that of a member of the key. -/
  members : ∀ x ∈ rows u stateText,
    (x.kind.origin = .member ↔ p.originOf stems x.key = some .member) ∧
    (x.kind.origin = .member → ∃ m ∈ u.data, m.key = x.key ∧
      x.kind = if m.feature.isEnd then .associationEnd else .attribute)
  levels : ∀ x ∈ rows u stateText, p.originOf stems x.key = some .level →
    x.kind = if prefixText stateText = stems.state then .state else .nested
  nested : ∀ x ∈ rows u stateText, p.originOf stems x.key = some .nested →
    x.kind = if startsWith x.key (prefixText stateText ++ "_") then .state else .nested
  /-- So all kinds are right where the prefix is written as the keys have it, and is apart from that
      of the features. -/
  right : prefixText stateText = stems.state → stems.Apart →
    ∀ x ∈ rows u stateText, p.originOf stems x.key = some x.kind.origin

section
variable {r : Registry} {root stateText : String} {hash : String → UInt64} {cancel : Cancellation}
  {u : CodeUnit} {stems : Stems} {c : Classifier}

theorem prefixText_ne (stateText : String) : prefixText stateText ≠ "" := by
  unfold prefixText
  split_ifs with h
  · decide
  · exact h

/-- The stem of the keys of levels is the constant name of the prefix. -/
theorem ofTexts_state (root stateText : String) :
    (Stems.ofTexts root stateText).state = constantName (prefixText stateText) := by
  have hdefault : constantName defaultStateStem = defaultStateStem := by decide +kernel
  simp only [Stems.ofTexts, prefixText]
  split_ifs
  · exact hdefault.symm
  · rfl

/-- A unit has the members of its plan. -/
theorem mem_data_keys {ids : List IdEntry} (hunit : u = (Plan.of r stems c).unit r stems ids)
    (key : String) : key ∈ u.data.map (·.key) ↔
      key ∈ (claimsOf (Plan.of r stems c).flattened).map (·.1) := by
  have hclaims : (claimsOf (Plan.of r stems c).flattened).map (·.1) =
      (membersOf (Plan.of r stems c).flattened).map (·.key) := by
    rw [claimsOf, List.map_map]
    rfl
  rw [hclaims, hunit]
  exact ((data_perm _).map _).mem_iff

/-- **The kinds of a unit** of a batch for a model that was built element by element. -/
theorem kinds_of_mem_units (hr : r.Built)
    (hu : u ∈ (lowerAll r (.ofTexts root stateText) { hash } cancel).units) :
    Kinds (.of r (.ofTexts root stateText) u.classifier) (.ofTexts root stateText) stateText u := by
  have hfeature := (isIdentifier_ofTexts root stateText).1
  have hstate := ofTexts_state root stateText
  generalize Stems.ofTexts root stateText = stems at *
  have hpurposes : ((Plan.of r stems u.classifier).purposes stems).map (·.1.1) =
      (classClaims r stems u.classifier).map (·.1) := by
    rw [← Plan.map_purposes, List.map_map]
    rfl
  have hrows : rows u stateText = u.ids.map (rowOf u.data (prefixText stateText)) := rfl
  rcases keys_of_mem_units hr hu with ⟨hf, ⟨ids, hunit⟩, hids⟩ | ⟨hf, hids⟩
  · have hmembers := mem_data_keys hunit
    have horigin : ∀ e ∈ u.ids,
        ∃ o, (Plan.of r stems u.classifier).originOf stems e.key = some o := by
      intro e he
      rw [← Option.isSome_iff_exists, Plan.originOf_isSome, hpurposes, ← List.mem_eraseDups, ← hids]
      exact List.mem_map_of_mem he
    refine ⟨?_, ?_, ?_, ?_, ?_, ?_⟩ <;> simp only [hrows, List.forall_mem_map, rowOf_key]
    · rw [List.map_map, if_pos hf, hpurposes, ← hids]
      exact List.map_congr_left fun e _ => rowOf_key _ _ _
    · exact fun e he => Option.isSome_iff_exists.2 (horigin e he)
    · exact fun e _ => ⟨origin_row_member hmembers, rowOf_of_origin⟩
    · exact fun e _ => kind_row_level hmembers (prefixText_ne stateText) hstate
    · exact fun e _ => kind_row_nested hmembers
    · intro hwritten hapart e he
      obtain ⟨o, ho⟩ := horigin e he
      rw [hwritten] at hstate ⊢
      rw [origin_row_right hmembers hfeature hstate hapart ho, ho]
  · rw [hids] at hrows
    refine ⟨?_, ?_, ?_, ?_, ?_, ?_⟩ <;> simp [hrows, hf]

end

end Report

/-! ## Runs -/

namespace Run

open Artifact Config Lowering Model Report

variable {s : Settings} {w : Surroundings} {sink : Option Sink} {g : Generation}

/-- **The kinds in the contract of a run**, for all models and all settings: how they stand to what
    the ids of the units that the run writes were allocated for. -/
theorem generate_kinds (h : (generate s w sink).result = some g) :
    ∃ r, (loadModel s w).2 = .ok r ∧ ∀ u ∈ g.units,
      (rowsText (rows u s.lowering.stateStem)).toList <:+:
        (contractExtra s g.units).content.toList ∧
      Kinds (.of r.prepare (.ofTexts s.lowering.root s.lowering.stateStem) u.classifier)
        (.ofTexts s.lowering.root s.lowering.stateStem) s.lowering.stateStem u := by
  obtain ⟨r, hload, hunits⟩ := generate_units h
  refine ⟨r, hload, fun u hu => ⟨rowsText_infix_contract "" s.lowering.stateStem hu, ?_⟩⟩
  rw [hunits, selectUnits_eq] at hu
  exact kinds_of_mem_units (loadModel_built hload).prepare (List.mem_of_mem_filter hu)

/-! A valve with a nested position and a machine. -/

def valve : Classifier := { id := "object:1", name := "Valve", stereotype := "SimObject" }

def point : Classifier := { id := "object:2", name := "Point", kind := .dataType }

def flow : StateMachine := { id := "object:3", name := "Flow", parent := "object:1" }

def valveModel : Registry where
  elements := [
    .classifier valve, .classifier point, .stateMachine flow,
    .state { id := "object:4", name := "Shut", parent := "object:3" },
    .attribute { id := "attribute:1", name := "pos", parent := "object:1", typed := {
      type := "object:2", multiplicity := .normalize "", aggregation := .none } },
    .attribute { id := "attribute:2", name := "x", parent := "object:2", typed := {
      typeName := "double", multiplicity := .normalize "", aggregation := .none } }]

/-- The model as a repository. -/
def valveTables : Tables where
  objects := some [
    [.int 1, .text "Class", .text "Valve", .null, .null, .text "SimObject"],
    [.int 2, .text "DataType", .text "Point"],
    [.int 3, .text "StateMachine", .text "Flow", .null, .int 1],
    [.int 4, .text "State", .text "Shut", .null, .int 3]]
  attributes := some [
    [.int 1, .int 1, .text "pos", .null, .text "2"],
    [.int 2, .int 2, .text "x", .text "double"]]

/-- A run on the repository. -/
def valveSite : Surroundings :=
  { files := { nodes := [(["valve.qea"], .file (.tables valveTables))] } }

/-- The settings of the run, with a prefix for the keys of levels. -/
def valveSettings (stateStem : String) : Settings :=
  { model := { path := "valve.qea", format := "ea" }, lowering := { stateStem }
    report := { hasContract := true } }

theorem load_valveTables : valveTables.load = .ok valveModel := by
  have hnone : ∀ columns, Loader.sorted (some []) columns = .ok [] := fun columns =>
    Loader.sorted_of_pairwise .nil
  have hobjects : Loader.sorted valveTables.objects [0] = .ok _ :=
    Loader.sorted_of_pairwise (by decide)
  have hattributes : Loader.sorted valveTables.attributes [1, 10, 0] = .ok _ :=
    Loader.sorted_of_pairwise (by decide)
  have helements : valveTables.load.toOption.map (·.elements) = some valveModel.elements := by
    simp only [Tables.load, Loader.loadPackages, Loader.loadObjects, Loader.loadAttributes,
      Loader.loadOperations, Loader.loadConnectors, hobjects, hattributes]
    simp only [valveTables, hnone]
    decide +kernel
  cases h : valveTables.load with
  | error e =>
    rw [h] at helements
    cases helements
  | ok r =>
    rw [h] at helements
    obtain ⟨elements, rfl, -⟩ := Tables.load_isPlain h
    have hmodel : elements = valveModel.elements := Option.some.inj helements
    rw [hmodel]
    rfl

theorem loadModel_valve (stateStem : String) :
    (loadModel (valveSettings stateStem) valveSite).2 = .ok valveModel := by
  have htables : repositoryTables valveSite.files "valve.qea" = valveTables := by
    have hplace : Files.locationOf "valve.qea" = ["valve.qea"] := by decide +kernel
    rw [repositoryTables, hplace]
    rfl
  have hconnection : connection (valveSettings stateStem).model valveSite =
      { source := "valve.qea", tables := valveTables } := by
    rw [← htables]
    rfl
  have hformat : (valveSettings stateStem).modelFormat = "ea" := by
    rw [Settings.modelFormat]
    rfl
  rw [loadModel, if_pos hformat, loadRepository, hconnection, Connection.load]
  simp [load_valveTables, Except.mapError]

/-- The stems of the run, whether the prefix is written in upper or in lower case. -/
def valveStems : Stems := { state := "MODE" }

/-- The plan of the valve with its level written out. -/
def valvePlan : Plan :=
  { Plan.of valveModel.prepare valveStems valve with
    machines := [⟨flow, [topLevel valveModel.prepare flow]⟩] }

theorem valvePlan_eq : Plan.of valveModel.prepare valveStems valve = valvePlan := by
  have htrees : valveModel.prepare.machineTrees flow.id = [.state _ []] := rfl
  have hmachines : (valveModel.prepare.owned valve.id).machines = [flow] := rfl
  refine Plan.of_machines ?_
  rw [hmachines, List.map_singleton, Machine.of, levelsOf_eq, htrees]
  simp only [nestedLevels]
  rfl

/-- The table after the claims of the valve. -/
def valveIds : IdTable := (claimsRun valveModel.prepare valveStems {} valve).1

theorem lower_valveModel : (lowerAll valveModel.prepare valveStems {} .never).hasFailed = false ∧
    (lowerAll valveModel.prepare valveStems {} .never).units =
      [valvePlan.unit valveModel.prepare valveStems (valveIds.entries valve.id),
        structUnit valveModel.prepare valveStems point] := by
  have hf : family valveModel.prepare valve = .simObject := by decide +kernel
  have hclasses : valveModel.prepare.classifiers = [valve, point] := by decide +kernel
  have hvalve : lowerClass valveModel.prepare valveStems {} valve = (valveIds,
      .ok (valvePlan.unit valveModel.prepare valveStems (valveIds.entries valve.id))) := by
    have hgranted : (claimsRun valveModel.prepare valveStems {} valve).2.2 = none := by
      rw [claimsRun, classClaims, valvePlan_eq]
      decide +kernel
    rcases lowerClass_cases hf valveStems {} with ⟨t, n, hc, hok⟩ | ⟨t, n, _, c, hc, -⟩
    · rw [hok, valveIds, claimsRun, hc, valvePlan_eq]
    · rw [claimsRun, hc] at hgranted
      cases hgranted
  have hpoint : lowerClass valveModel.prepare valveStems valveIds point = (valveIds,
      .ok (structUnit valveModel.prepare valveStems point)) := by
    have hother : family valveModel.prepare point ≠ .simObject := by decide +kernel
    rw [lowerClass]
    exact if_neg hother
  rw [lowerAll, hclasses]
  have heligible : isEligible valve = true ∧ isEligible point = true := by decide +kernel
  simp [Batch.run, Cancellation.never, heligible, Batch.step, hvalve, hpoint, Batch.hasFailed]

theorem valveIds_entries : valveIds.entries valve.id = [⟨"ATTR_POS", 0x6BFF78DB640346F2⟩,
    ⟨"MODE_FLOW", 0x0EFB1F0F28DF1E13⟩, ⟨"ATTR_POS_X", 0xF6863F7A953DB8BC⟩] := by
  rw [valveIds, claimsRun, classClaims, valvePlan_eq]
  decide +kernel

/-- The units of a run with a prefix that is `MODE` in upper case. -/
theorem generate_valve {stateStem : String} (h : Stems.ofTexts "" stateStem = valveStems) : ∃ g,
    (generate (valveSettings stateStem) valveSite (some (.memory {}))).result = some g ∧
    g.units = [valvePlan.unit valveModel.prepare valveStems (valveIds.entries valve.id),
      structUnit valveModel.prepare valveStems point] := by
  have hlower : lowerModel (valveSettings stateStem) valveSite valveModel.prepare =
      lowerAll valveModel.prepare valveStems {} .never := by
    rw [← h]
    rfl
  obtain ⟨hdone, hunits⟩ := lower_valveModel
  obtain ⟨g, hg, hwritten⟩ := exists_generate (loadModel_valve stateStem) (by decide +kernel)
    (hlower ▸ hdone) (.memory {})
  refine ⟨g, hg, ?_⟩
  rw [hwritten, hlower, hunits]
  rfl

/-- With the prefix in upper case the contract is right. -/
theorem valve_kinds : ∃ g,
    (generate (valveSettings "MODE") valveSite (some (.memory {}))).result = some g ∧
    g.units.map (fun u => (Report.rows u "MODE").map fun x => (x.key, x.kind)) =
      [[("ATTR_POS", .attribute), ("MODE_FLOW", .state), ("ATTR_POS_X", .nested)], []] ∧
    ∃ r, (loadModel (valveSettings "MODE") valveSite).2 = .ok r ∧ ∀ u ∈ g.units,
      ∀ x ∈ Report.rows u "MODE", (Plan.of r.prepare (.ofTexts "" "MODE") u.classifier).originOf
        (.ofTexts "" "MODE") x.key = some x.kind.origin := by
  have hstems : Stems.ofTexts "" "MODE" = valveStems := by decide +kernel
  obtain ⟨g, hg, hunits⟩ := generate_valve hstems
  obtain ⟨r, hload, hkinds⟩ := generate_kinds hg
  have hwritten : prefixText "MODE" = (Stems.ofTexts "" "MODE").state := by decide +kernel
  have hapart : (Stems.ofTexts "" "MODE").Apart := by decide +kernel
  refine ⟨g, hg, ?_, r, hload, fun u hu => (hkinds u hu).2.right hwritten hapart⟩
  rw [hunits, valveIds_entries]
  decide +kernel

/-- With the prefix in lower case the contract takes the level of the machine for a nested
    feature. -/
theorem valve_level_nested :
    (loadModel (valveSettings "mode") valveSite).2 = .ok valveModel ∧ ∃ g,
    (generate (valveSettings "mode") valveSite (some (.memory {}))).result = some g ∧
    ∃ u ∈ g.units, ∃ x ∈ Report.rows u "mode", x.kind = .nested ∧
      (Plan.of valveModel.prepare (.ofTexts "" "mode") u.classifier).originOf
        (.ofTexts "" "mode") x.key = some .level := by
  have hstems : Stems.ofTexts "" "mode" = valveStems := by decide +kernel
  obtain ⟨g, hg, hunits⟩ := generate_valve hstems
  have hfirst : valvePlan.unit valveModel.prepare valveStems (valveIds.entries valve.id) ∈
      g.units := by
    rw [hunits]
    exact List.mem_cons_self
  refine ⟨loadModel_valve "mode", g, hg, _, hfirst, ?_⟩
  have hplan : Plan.of valveModel.prepare valveStems
      (valvePlan.unit valveModel.prepare valveStems (valveIds.entries valve.id)).classifier =
        valvePlan := valvePlan_eq
  rw [hstems, hplan, valveIds_entries]
  decide +kernel

end Run

end ObjectLowering
