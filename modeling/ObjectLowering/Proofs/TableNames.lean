/-
  The names of tables and columns in a schema.

  A name in the database is the identifier of a model name, cut into words and
  turned to lower case.  That conversion forgets the case of letters and where
  `_` stood, and a side table is named by two names joined by `__`.

  * `bareLetters_of_tableName`: names that meet in the database differ only in
    case and in `_`.
  * `sideName_injective`: where class identifiers are plain, without `__` and
    without `_` at the end, a side table tells its class and its member.
  * `lowerAll_schema_names`: of all tables of a batch only those of classes are
    compared; the rest is distinct iff the members of each class stay apart and
    no side table meets a table of another class.
-/
import Mathlib.Data.List.Chain
import ObjectLowering.Proofs.Batches
import ObjectLowering.Proofs.Identifiers
import ObjectLowering.Proofs.MemberPaths
import ObjectLowering.Proofs.Stores
import ObjectLowering.Schema.Script

namespace ObjectLowering

namespace Code

open Text

/-! ## Lower case of name characters -/

theorem toLowerTable_sound : (toLowerTable.all fun s =>
    (s.image + (s.last - s.first) < 0xd800 ||
      (0xdfff < s.image && s.image + (s.last - s.first) < 0x110000)) && s.keepsLetters) = true := by
  decide +kernel

theorem lowerChar_underscore : lowerChar '_' = '_' := by decide +kernel

/-- The lower-case form of a name character is the character itself or a letter. -/
theorem lowerChar_cases {c : Char} (h : isNameChar c = true) :
    lowerChar c = c ∨ isLetter (lowerChar c) = true := by
  by_cases hc : c = '_'
  · left; rw [hc, lowerChar_underscore]
  rcases shifted_cases toLowerTable c.toNat with hs | ⟨s, hmem, hf, hl, hm, hs⟩
  · left; rw [lowerChar, hs, Char.ofNat_toNat]
  · right
    have hsound := List.all_eq_true.1 toLowerTable_sound s hmem
    simp only [Bool.and_eq_true, Bool.or_eq_true, decide_eq_true_eq] at hsound
    rw [lowerChar, hs]
    exact isLetter_image hsound.1 hf hl hsound.2 hm h hc

theorem isNameChar_lowerChar {c : Char} (h : isNameChar c = true) :
    isNameChar (lowerChar c) = true := by
  rcases lowerChar_cases h with hc | hc
  · rw [hc]; exact h
  · simp [isNameChar, hc]

/-- Only `_` turns into `_`. -/
theorem lowerChar_ne_underscore {c : Char} (h : isNameChar c = true) (hc : c ≠ '_') :
    lowerChar c ≠ '_' := by
  rcases lowerChar_cases h with he | hl
  · rw [he]; exact hc
  · intro he
    rw [he] at hl
    exact absurd hl (by decide +kernel)

end Code

namespace Schema

open Model Lowering Code Text

/-! ## Words -/

/-- What stays of an identifier in whatever way it is cut into words: its characters besides `_`,
    in lower case. -/
def bareLetters (cs : List Char) : List Char := (cs.filter (· != '_')).map lowerChar

/-- No two `_` follow each other, and none stands at the end. -/
def IsPlain (cs : List Char) : Prop := (cs ++ ['_']).IsChain fun a b => a ≠ '_' ∨ b ≠ '_'

instance (cs : List Char) : Decidable (IsPlain cs) :=
  inferInstanceAs (Decidable (List.IsChain _ _))

theorem ne_underscore_of_startsWord {before c : Char} {after : Option Char}
    (h : startsWord before c after = true) : before ≠ '_' ∧ c ≠ '_' := by
  simp only [startsWord, Bool.and_eq_true, bne_iff_ne] at h
  refine ⟨h.1.2, fun hc => ?_⟩
  rw [hc] at h
  exact absurd h.1.1 (by decide +kernel)

section

variable {before : Char} {cs : List Char}

theorem isNameChar_of_mem_snakeCaseFrom (h : ∀ c ∈ cs, isNameChar c = true) :
    ∀ c ∈ snakeCaseFrom before cs, isNameChar c = true := by
  induction cs generalizing before with
  | nil => simp [snakeCaseFrom]
  | cons c cs ih =>
    have hc := isNameChar_lowerChar (h c (by simp))
    have hrest := @ih c fun x hx => h x (by simp [hx])
    rw [snakeCaseFrom]
    split_ifs
    · simpa [hc, show isNameChar '_' = true from rfl] using hrest
    · simpa [hc] using hrest

/-- The marks of new words are the only characters added. -/
theorem filter_snakeCaseFrom (h : ∀ c ∈ cs, isNameChar c = true) :
    (snakeCaseFrom before cs).filter (· != '_') = bareLetters cs := by
  induction cs generalizing before with
  | nil => rfl
  | cons c cs ih =>
    have hrest := @ih c fun x hx => h x (by simp [hx])
    have hone : (lowerChar c :: snakeCaseFrom c cs).filter (· != '_') = bareLetters (c :: cs) := by
      by_cases hc : c = '_'
      · rw [List.filter_cons_of_neg (by simp [hc, lowerChar_underscore]), hrest]
        simp [bareLetters, hc]
      · have hl := lowerChar_ne_underscore (h c (by simp)) hc
        rw [List.filter_cons_of_pos (by simpa using hl), hrest]
        simp [bareLetters, hc]
    rw [snakeCaseFrom]
    split_ifs
    · rw [List.filter_cons_of_neg (by simp), hone]
    · exact hone

/-- A new word starts between two characters that are not `_`, so no `__` arises. -/
theorem isPlain_snakeCaseFrom (h : ∀ c ∈ before :: cs, isNameChar c = true)
    (hp : IsPlain (before :: cs)) : IsPlain (lowerChar before :: snakeCaseFrom before cs) := by
  have hlower : ∀ c, isNameChar c = true → c ≠ '_' → lowerChar c ≠ '_' :=
    fun c => lowerChar_ne_underscore
  induction cs generalizing before with
  | nil =>
    have hb : before ≠ '_' := by simpa [IsPlain] using hp
    simpa [IsPlain, snakeCaseFrom] using hlower before (h before (by simp)) hb
  | cons c cs ih =>
    simp only [IsPlain, List.cons_append, List.isChain_cons_cons] at hp
    have hrest := ih (fun x hx => h x (List.mem_cons_of_mem _ hx)) hp.2
    simp only [IsPlain, List.cons_append] at hrest
    rw [snakeCaseFrom]
    split_ifs with hw
    · obtain ⟨hb, hc⟩ := ne_underscore_of_startsWord hw
      simp only [IsPlain, List.cons_append, List.isChain_cons_cons]
      exact ⟨Or.inl (hlower before (h before (by simp)) hb),
        Or.inr (hlower c (h c (by simp)) hc), hrest⟩
    · simp only [IsPlain, List.cons_append, List.isChain_cons_cons]
      exact ⟨hp.1.imp (hlower before (h before (by simp))) (hlower c (h c (by simp))), hrest⟩

end

/-! ## Names in the database -/

section

variable {s s' : String}

theorem toList_tableName (s : String) : (tableName s).toList = snakeCase (ident s).toList := by
  rw [tableName, String.toList_ofList]

theorem isNameChar_of_mem_tableName (s : String) :
    ∀ c ∈ (tableName s).toList, isNameChar c = true := by
  have hchars := (isIdentifier_ident s).chars
  rw [toList_tableName]
  cases hs : (ident s).toList with
  | nil => simp [snakeCase]
  | cons c cs =>
    rw [hs] at hchars
    rw [snakeCase, List.forall_mem_cons]
    exact ⟨isNameChar_lowerChar (hchars c (by simp)),
      isNameChar_of_mem_snakeCaseFrom fun x hx => hchars x (by simp [hx])⟩

/-- A name in the database determines the bare letters of the identifier. -/
theorem bareLetters_of_tableName (h : tableName s = tableName s') :
    bareLetters (ident s).toList = bareLetters (ident s').toList := by
  have hbare (s : String) :
      (tableName s).toList.filter (· != '_') = bareLetters (ident s).toList := by
    have hchars := (isIdentifier_ident s).chars
    rw [toList_tableName]
    cases hs : (ident s).toList with
    | nil => rfl
    | cons c cs =>
      rw [hs] at hchars
      -- seen from a `_` in front, the first character starts no word either
      have hfirst : snakeCase (c :: cs) = snakeCaseFrom '_' (c :: cs) := by
        rw [snakeCase, snakeCaseFrom, if_neg (by simp [startsWord])]
      rw [hfirst, filter_snakeCaseFrom hchars]
  rw [← hbare, ← hbare, h]

theorem isPlain_tableName (h : IsPlain (ident s).toList) : IsPlain (tableName s).toList := by
  have hchars := (isIdentifier_ident s).chars
  rw [toList_tableName]
  cases hs : (ident s).toList with
  | nil => rw [hs] at h; exact h
  | cons c cs =>
    rw [hs] at h hchars
    exact isPlain_snakeCaseFrom hchars h

end

/-! ## Names of side tables -/

/-- The name of the side table of a member. -/
def sideName (className memberName : String) : String :=
  tableName className ++ "__" ++ tableName memberName

theorem not_isPlain_append {xs ys : List Char} : ¬ IsPlain (xs ++ '_' :: '_' :: ys) := by
  intro h
  rw [IsPlain, List.append_assoc, List.isChain_append] at h
  simp at h

/-- Behind a plain text, the first `__` is where the text ends. -/
theorem append_underscores_injective {xs ys xs' ys' : List Char} (hx : IsPlain xs)
    (hx' : IsPlain xs') (h : xs ++ '_' :: '_' :: ys = xs' ++ '_' :: '_' :: ys') :
    xs = xs' ∧ ys = ys' := by
  have hlonger : ∀ {a b c d k : List Char}, IsPlain b → b = a ++ k →
      '_' :: '_' :: c = k ++ '_' :: '_' :: d → k = [] := by
    rintro a b c d (_ | ⟨x, _ | ⟨y, k⟩⟩) hb rfl hk
    · rfl
    · simp only [List.cons_append, List.cons.injEq] at hk
      rw [IsPlain, ← hk.1, List.append_assoc, List.isChain_append] at hb
      simp at hb
    · simp only [List.cons_append, List.cons.injEq] at hk
      rw [← hk.1, ← hk.2.1] at hb
      exact absurd hb not_isPlain_append
  rcases List.append_eq_append_iff.1 h with ⟨k, hk, hrest⟩ | ⟨k, hk, hrest⟩
  · have hnil := hlonger hx' hk hrest
    rw [hnil] at hk hrest
    simp_all
  · have hnil := hlonger hx hk hrest
    rw [hnil] at hk hrest
    simp_all

section

variable {a b m n : String}

theorem toList_sideName (a m : String) :
    (sideName a m).toList = (tableName a).toList ++ '_' :: '_' :: (tableName m).toList := by
  simp [sideName]

/-- The table of a class with a plain identifier is no side table. -/
theorem tableName_ne_sideName (h : IsPlain (ident a).toList) : tableName a ≠ sideName b m := by
  intro he
  have hplain := isPlain_tableName h
  rw [he, toList_sideName] at hplain
  exact not_isPlain_append hplain

/-- Side tables of classes with plain identifiers tell their class and their member. -/
theorem sideName_injective (ha : IsPlain (ident a).toList) (hb : IsPlain (ident b).toList)
    (h : sideName a m = sideName b n) : tableName a = tableName b ∧ tableName m = tableName n := by
  rw [← String.toList_inj, toList_sideName, toList_sideName] at h
  obtain ⟨h₁, h₂⟩ :=
    append_underscores_injective (isPlain_tableName ha) (isPlain_tableName hb) h
  exact ⟨String.toList_inj.1 h₁, String.toList_inj.1 h₂⟩

end

/-! ## Tables of units -/

/-- The unit has tables. -/
def isTabled (u : CodeUnit) : Bool := u.family = .simObject && u.features.isSome

/-- The members with a column in the table of their class. -/
def columnMembers (u : CodeUnit) : List Member :=
  (u.data.filter isStored).filter fun m => m.storage.shape != .keyed

/-- The members with a side table. -/
def keyedMembers (u : CodeUnit) : List Member :=
  (u.data.filter isStored).filter fun m => m.storage.shape == .keyed

/-- The tables of a unit that has some, that of the class first. -/
def tablesOf (d : Dialect) (u : CodeUnit) : List Table :=
  (classTables d u.name u.data).table :: (classTables d u.name u.data).sides

section

variable {d : Dialect} {units : List CodeUnit} {u : CodeUnit} {text : String}

theorem filterMap_unitTables (d : Dialect) (units : List CodeUnit) :
    units.filterMap (unitTables d) =
      (units.filter isTabled).map fun u => classTables d u.name u.data := by
  rw [← List.filterMap_eq_map', List.filterMap_filter]
  refine List.filterMap_congr fun u _ => ?_
  unfold unitTables isTabled CodeUnit.data
  cases u.features <;> by_cases hf : u.family = .simObject <;> simp [hf]

theorem checkDistinct_eq_ok {seen : List (String × String)} {tables : List ClassTables} :
    checkDistinct seen tables = .ok () ↔
      (tables.map (·.table.name)).Nodup ∧ ∀ c ∈ tables, c.table.name ∉ seen.map (·.1) := by
  induction tables generalizing seen with
  | nil => simp [checkDistinct]
  | cons c rest ih =>
    have hfree : seen.lookup c.table.name = none ↔ c.table.name ∉ seen.map (·.1) := by
      simp only [List.lookup_eq_none_iff, bne_iff_ne, List.mem_map, not_exists, not_and, ne_eq,
        @eq_comm _ c.table.name]
    rw [checkDistinct]
    cases hs : seen.lookup c.table.name with
    | some first =>
      rw [hs] at hfree
      simp_all
    | none =>
      have hfree := hfree.1 hs
      rw [ih]
      simp only [List.map_cons, List.nodup_cons, List.mem_cons, not_or, List.mem_map]
      grind

/-- A script is there iff the tables of classes have different names. -/
theorem script_eq_ok :
    script d units = .ok text ↔
      ((units.filter isTabled).map fun u => tableName u.name).Nodup ∧
      text = scriptHeader d ++
        String.join ((units.filter isTabled).map fun u => (classTables d u.name u.data).text) := by
  have hcheck : checkDistinct []
      ((units.filter isTabled).map fun u => classTables d u.name u.data) = .ok () ↔ _ :=
    checkDistinct_eq_ok
  simp only [List.map_map, List.map_nil, List.not_mem_nil, not_false_eq_true, implies_true,
    and_true] at hcheck
  rw [script, schemaTables, filterMap_unitTables, bind_eq_ok]
  constructor
  · rintro ⟨tables, htables, htext⟩
    obtain ⟨⟨⟩, hdistinct, hret⟩ := bind_eq_ok.1 htables
    obtain rfl := Except.ok.inj hret
    refine ⟨hcheck.1 hdistinct, ?_⟩
    rw [← Except.ok.inj htext, List.map_map]
    rfl
  · rintro ⟨hnodup, rfl⟩
    refine ⟨_, bind_eq_ok.2 ⟨(), hcheck.2 hnodup, rfl⟩, ?_⟩
    rw [List.map_map]
    rfl

end

/-! ## Names of a schema -/

/-- All tables have different names, and so have the columns of each. -/
@[mk_iff] structure NamesDiffer (ts : List Table) : Prop where
  tables : (ts.map (·.name)).Nodup
  columns : ∀ t ∈ ts, (t.columns.map (·.name)).Nodup

/-- What is read off the names of members tells apart the columns of a unit, from each other and
    from the column of object ids, and its side tables. -/
@[mk_iff] structure MembersApart {α : Type} (read : String → α) (u : CodeUnit) : Prop where
  objectId : ∀ m ∈ columnMembers u, read m.name ≠ read "object_id"
  columns : ∀ m ∈ columnMembers u, ∀ n ∈ columnMembers u, read m.name = read n.name →
    m.name = n.name
  sides : ∀ m ∈ keyedMembers u, ∀ n ∈ keyedMembers u, read m.name = read n.name → m.name = n.name

instance (ts : List Table) : Decidable (NamesDiffer ts) :=
  decidable_of_iff' _ (namesDiffer_iff ts)

instance {α : Type} [DecidableEq α] (read : String → α) (u : CodeUnit) :
    Decidable (MembersApart read u) :=
  decidable_of_iff' _ (membersApart_iff read u)

/-- No side table has the name of a class table or of a side table of another class. -/
structure SidesApart (units : List CodeUnit) : Prop where
  classes : ∀ u ∈ units, ∀ v ∈ units, ∀ m ∈ keyedMembers v,
    tableName u.name ≠ sideName v.name m.name
  sides : ∀ u ∈ units, ∀ v ∈ units, tableName u.name ≠ tableName v.name →
    ∀ m ∈ keyedMembers u, ∀ n ∈ keyedMembers v, sideName u.name m.name ≠ sideName v.name n.name

section

variable {d : Dialect} {units : List CodeUnit} {u v : CodeUnit}

theorem tablesOf_names (d : Dialect) (u : CodeUnit) :
    (tablesOf d u).map (·.name) =
      tableName u.name :: (keyedMembers u).map fun m => sideName u.name m.name := by
  simp [tablesOf, classTables, sideTable, keyedMembers, sideName, Function.comp_def]

theorem tableName_object_id : tableName "object_id" = "object_id" := by decide +kernel

theorem sideName_inj {a m n : String} :
    sideName a m = sideName a n ↔ tableName m = tableName n := by
  rw [← String.toList_inj, toList_sideName, toList_sideName, List.append_cancel_left_eq,
    List.cons.injEq, List.cons.injEq, String.toList_inj]
  simp

/-- A side table has a longer name than the table of its class. -/
theorem tableName_ne_own_sideName (a m : String) : tableName a ≠ sideName a m := by
  intro h
  have hlen := congrArg List.length (String.toList_inj.2 h)
  rw [toList_sideName] at hlen
  simp at hlen

theorem nodup_map_read {α : Type} {ms : List Member} (h : (ms.map (·.name)).Nodup)
    (read : String → α) :
    (ms.map fun m => read m.name).Nodup ↔
      ∀ m ∈ ms, ∀ n ∈ ms, read m.name = read n.name → m.name = n.name := by
  have := List.nodup_map_iff_inj_on (f := read) h
  simpa [List.map_map, Function.comp_def] using this

theorem columnMembers_names_nodup (h : (u.data.map (·.name)).Nodup) :
    ((columnMembers u).map (·.name)).Nodup :=
  h.sublist ((List.filter_sublist.trans List.filter_sublist).map _)

theorem keyedMembers_names_nodup (h : (u.data.map (·.name)).Nodup) :
    ((keyedMembers u).map (·.name)).Nodup :=
  h.sublist ((List.filter_sublist.trans List.filter_sublist).map _)

/-- The columns of all tables of a unit differ iff its columns stay apart; those of side tables
    always do. -/
theorem tablesOf_columns_nodup (h : (u.data.map (·.name)).Nodup) :
    (∀ t ∈ tablesOf d u, (t.columns.map (·.name)).Nodup) ↔
      (∀ m ∈ columnMembers u, tableName m.name ≠ tableName "object_id") ∧
      ∀ m ∈ columnMembers u, ∀ n ∈ columnMembers u, tableName m.name = tableName n.name →
        m.name = n.name := by
  have hsides : ∀ t ∈ (classTables d u.name u.data).sides, (t.columns.map (·.name)).Nodup := by
    intro t ht
    obtain ⟨m, -, rfl⟩ := List.mem_map.1 ht
    exact (by decide : ["object_id", "key", "value"].Nodup)
  have hcolumns : (classTables d u.name u.data).table.columns.map (·.name) =
      "object_id" :: (columnMembers u).map fun m => tableName m.name := by
    simp [classTables, columnMembers, memberColumn, Function.comp_def]
  rw [tablesOf, List.forall_mem_cons, hcolumns, List.nodup_cons,
    nodup_map_read (columnMembers_names_nodup h), tableName_object_id]
  simp only [List.mem_map, not_exists, not_and]
  exact and_iff_left hsides

theorem tablesOf_names_nodup (h : (u.data.map (·.name)).Nodup) :
    ((tablesOf d u).map (·.name)).Nodup ↔
      ∀ m ∈ keyedMembers u, ∀ n ∈ keyedMembers u, tableName m.name = tableName n.name →
        m.name = n.name := by
  rw [tablesOf_names, List.nodup_cons,
    nodup_map_read (keyedMembers_names_nodup h) (sideName u.name)]
  simp only [sideName_inj, and_iff_right_iff_imp, List.mem_map, not_exists, not_and]
  exact fun _ m _ he => tableName_ne_own_sideName u.name m.name he.symm

/-- Where the tables of classes differ, two units share no table iff no side table meets. -/
theorem tablesOf_names_disjoint (hne : tableName u.name ≠ tableName v.name) :
    ((tablesOf d u).map (·.name)).Disjoint ((tablesOf d v).map (·.name)) ↔
      (∀ m ∈ keyedMembers v, tableName u.name ≠ sideName v.name m.name) ∧
      (∀ m ∈ keyedMembers u, tableName v.name ≠ sideName u.name m.name) ∧
      ∀ m ∈ keyedMembers u, ∀ n ∈ keyedMembers v,
        sideName u.name m.name ≠ sideName v.name n.name := by
  simp only [tablesOf_names, List.disjoint_left, List.mem_cons, List.mem_map, not_or, not_exists,
    not_and, forall_eq_or_imp, forall_exists_index, and_imp, forall_apply_eq_imp_iff₂]
  grind

theorem disjoint_iff_sidesApart
    (hdistinct : units.Pairwise fun u v => tableName u.name ≠ tableName v.name) :
    units.Pairwise (Function.onFun List.Disjoint fun u => (tablesOf d u).map (·.name)) ↔
      SidesApart units := by
  constructor
  · intro h
    have hboth : ∀ u ∈ units, ∀ v ∈ units, tableName u.name ≠ tableName v.name →
        ((tablesOf d u).map (·.name)).Disjoint ((tablesOf d v).map (·.name)) := by
      intro u hu v hv hne
      have : Std.Symm (Function.onFun List.Disjoint fun u => (tablesOf d u).map (·.name)) :=
        ⟨fun _ _ => List.Disjoint.symm⟩
      exact h.forall hu hv fun he => hne (by rw [he])
    refine ⟨fun u hu v hv m hm => ?_, fun u hu v hv hne => ?_⟩
    · by_cases hne : tableName u.name = tableName v.name
      · rw [hne]; exact tableName_ne_own_sideName v.name m.name
      · exact ((tablesOf_names_disjoint hne).1 (hboth u hu v hv hne)).1 m hm
    · exact ((tablesOf_names_disjoint hne).1 (hboth u hu v hv hne)).2.2
  · intro h
    refine hdistinct.imp_of_mem fun {u v} hu hv hne => (tablesOf_names_disjoint hne).2 ?_
    exact ⟨h.classes u hu v hv, h.classes v hv u hu, h.sides u hu v hv hne⟩

/-- **The names of a schema differ** iff the members of each unit stay apart and no side table
    meets a table of another class. -/
theorem namesDiffer_tables_iff (hclasses : (units.map fun u => tableName u.name).Nodup)
    (hmembers : ∀ u ∈ units, (u.data.map (·.name)).Nodup) :
    NamesDiffer (units.flatMap (tablesOf d)) ↔
      (∀ u ∈ units, MembersApart tableName u) ∧ SidesApart units := by
  have hdistinct : units.Pairwise fun u v => tableName u.name ≠ tableName v.name :=
    List.pairwise_map.1 hclasses
  have htables : ((units.flatMap (tablesOf d)).map (·.name)).Nodup ↔
      (∀ u ∈ units, ((tablesOf d u).map (·.name)).Nodup) ∧ SidesApart units := by
    rw [List.map_flatMap, List.nodup_flatMap, and_congr_right_iff]
    exact fun _ => disjoint_iff_sidesApart hdistinct
  constructor
  · intro h
    obtain ⟨hown, hsides⟩ := htables.1 h.tables
    refine ⟨fun u hu => ?_, hsides⟩
    obtain ⟨hkey, hcolumns⟩ := (tablesOf_columns_nodup (d := d) (hmembers u hu)).1
      fun t ht => h.columns t (List.mem_flatMap.2 ⟨u, hu, ht⟩)
    exact ⟨hkey, hcolumns, (tablesOf_names_nodup (hmembers u hu)).1 (hown u hu)⟩
  · rintro ⟨hown, hsides⟩
    refine ⟨htables.2 ⟨fun u hu => ?_, hsides⟩, fun t ht => ?_⟩
    · exact (tablesOf_names_nodup (hmembers u hu)).2 (hown u hu).sides
    · obtain ⟨u, hu, ht⟩ := List.mem_flatMap.1 ht
      exact (tablesOf_columns_nodup (hmembers u hu)).2 ⟨(hown u hu).objectId, (hown u hu).columns⟩
        t ht

theorem sidesApart_of_isPlain (h : ∀ u ∈ units, IsPlain u.name.toList) : SidesApart units := by
  have hplain : ∀ u ∈ units, IsPlain (ident u.name).toList := by
    intro u hu
    rw [CodeUnit.name, (isIdentifier_ident _).ident_eq]
    exact h u hu
  refine ⟨fun u hu v hv m hm => tableName_ne_sideName (hplain u hu), ?_⟩
  intro u hu v hv hne m hm n hn he
  exact hne (sideName_injective (hplain u hu) (hplain v hv) he).1

theorem membersApart_of_bareLetters
    (h : MembersApart (fun s => bareLetters (ident s).toList) u) : MembersApart tableName u where
  objectId m hm he := h.objectId m hm (bareLetters_of_tableName he)
  columns m hm n hn he := h.columns m hm n hn (bareLetters_of_tableName he)
  sides m hm n hn he := h.sides m hm n hn (bareLetters_of_tableName he)

end

/-! ## Schemas of batches -/

section

variable {r : Registry} {stems : Stems} {ids : IdTable} {cancel : Cancellation} {u : CodeUnit}

/-- Lowered simulation objects have tables. -/
theorem isTabled_iff (h : u ∈ (lowerAll r stems ids cancel).units) :
    isTabled u = true ↔ u.family = .simObject := by
  obtain ⟨-, -, ops, t, hl⟩ := mem_units h
  rcases lowerClass_sorts hl with ⟨hk, he⟩ | ⟨hk, he⟩ | ⟨-, he⟩ | ⟨-, _, he⟩
  · rw [he]; simp [isTabled, enumerationUnit, family, hk]
  · rw [he]; simp [isTabled, aliasUnit, family, hk]
  · rw [he]; simp [isTabled, structUnit]
  · rw [he]; simp [isTabled, Plan.unit]

theorem data_names_nodup (h : u ∈ (lowerAll r stems ids cancel).units) :
    (u.data.map (·.name)).Nodup := by
  obtain ⟨-, -, ops, t, hl⟩ := mem_units h
  rcases lowerClass_sorts hl with ⟨-, he⟩ | ⟨-, he⟩ | ⟨-, he⟩ | ⟨-, _, he⟩
  · rw [he]; exact List.nodup_nil
  · rw [he]; exact List.nodup_nil
  · rw [he]; exact dataOf_names_nodup r u.classifier stems.feature
  · rw [he]; exact dataOf_names_nodup r u.classifier stems.feature

end

/-- What holds of the names in a script for `units`. -/
structure SchemaNames (d : Dialect) (units : List CodeUnit) (text : String) : Prop where
  /-- The script creates the tables of the units that have some. -/
  text_eq : text = scriptHeader d ++
    String.join ((units.filter isTabled).map fun u => (classTables d u.name u.data).text)
  tabled_iff : ∀ u ∈ units, isTabled u = true ↔ u.family = .simObject
  /-- The tables of classes differ, always. -/
  classes : ((units.filter isTabled).map fun u => tableName u.name).Nodup
  /-- All names differ iff members and side tables stay apart. -/
  differ_iff : NamesDiffer ((units.filter isTabled).flatMap (tablesOf d)) ↔
    (∀ u ∈ units.filter isTabled, MembersApart tableName u) ∧ SidesApart (units.filter isTabled)
  /-- Members stay apart if their identifiers differ in more than case and `_`. -/
  members : ∀ u ∈ units.filter isTabled,
    MembersApart (fun s => bareLetters (ident s).toList) u → MembersApart tableName u
  /-- Side tables stay apart if the names of units have no `__` and no `_` at the end. -/
  sides : (∀ u ∈ units.filter isTabled, IsPlain u.name.toList) → SidesApart (units.filter isTabled)

/-- **The names in the schema of a batch**, whatever the dialect. -/
theorem lowerAll_schema_names {r : Registry} {stems : Stems} {ids : IdTable}
    {cancel : Cancellation} {d : Dialect} {text : String}
    (h : script d (lowerAll r stems ids cancel).units = .ok text) :
    SchemaNames d (lowerAll r stems ids cancel).units text := by
  obtain ⟨hclasses, htext⟩ := script_eq_ok.1 h
  refine {
    text_eq := htext
    tabled_iff := fun u hu => isTabled_iff hu
    classes := hclasses
    differ_iff := namesDiffer_tables_iff hclasses fun u hu =>
      data_names_nodup (List.mem_filter.1 hu).1
    members := fun u _ => membersApart_of_bareLetters
    sides := sidesApart_of_isPlain }

/-- The units of a registry under the default stems and the hash in use. -/
def defaultUnits (r : Registry) : List CodeUnit :=
  (lowerAll r (.ofTexts "" "") { hash := Digest.XxHash.hash } .never).units

/-! A ship has a call sign and a log with many lines.  In a harbour with tugs all names differ. -/

def ship : List Element := [
  .classifier { id := "ship", name := "Ship", stereotype := "SimObject" },
  .attribute { id := "sign", name := "callSign", parent := "ship",
               typed := { typeName := "string" } },
  .attribute { id := "log", name := "log", parent := "ship",
               typed := { typeName := "string", multiplicity := .zeroMany } }]

def harbour : Registry := Registry.prepare { elements := ship ++ [
  .classifier { id := "tug", name := "HarbourTug", stereotype := "SimObject" },
  .attribute { id := "power", name := "power", parent := "tug",
               typed := { typeName := "double" } }] }

theorem harbour_names_differ :
    ∃ text, script .sqlite (defaultUnits harbour) = .ok text ∧
      NamesDiffer (((defaultUnits harbour).filter isTabled).flatMap (tablesOf .sqlite)) := by
  have hscript : script .sqlite (defaultUnits harbour) = .ok _ :=
    script_eq_ok.2 ⟨by decide +kernel, rfl⟩
  have hnames := lowerAll_schema_names (r := harbour) hscript
  refine ⟨_, hscript, hnames.differ_iff.2 ⟨fun u hu => hnames.members u hu ?_, hnames.sides ?_⟩⟩
  · revert u hu; decide +kernel
  · decide +kernel

/-! In a museum the ship has a second call sign, in another spelling, and there is a class for
    logs. -/

def museum : Registry := Registry.prepare { elements := ship ++ [
  .attribute { id := "old", name := "call_sign", parent := "ship",
               typed := { typeName := "string" } },
  .classifier { id := "logs", name := "Ship__Log", stereotype := "SimObject" }] }

/-- The script for `museum` has a table with two columns `call_sign`, and two tables `ship__log`. -/
theorem museum_names_meet :
    ∃ text, script .sqlite (defaultUnits museum) = .ok text ∧
      (((defaultUnits museum).filter isTabled).flatMap (tablesOf .sqlite)).map
        (fun t => (t.name, t.columns.map (·.name))) = [
          ("ship", ["object_id", "call_sign", "call_sign"]),
          ("ship__log", ["object_id", "key", "value"]), ("ship__log", ["object_id"])] ∧
      ¬ NamesDiffer (((defaultUnits museum).filter isTabled).flatMap (tablesOf .sqlite)) := by
  refine ⟨_, script_eq_ok.2 ⟨?_, rfl⟩, ?_, ?_⟩ <;> decide +kernel

end Schema
end ObjectLowering
