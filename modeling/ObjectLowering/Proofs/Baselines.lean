/-
  Baselines: fingerprints that are kept in a file.

  * `read_render`: what is written of a fingerprint is read back, in ascending
    order of names.
  * `readBaseline_writeBaseline`: so is the file, once it could be written.
  * `idsReply_after_write`: the model that a baseline was written for matches
    it.
  * `baselines_reliable`: what follows for comparisons, and for runs of the
    command one after the other.
-/
import ObjectLowering.Command.Console
import ObjectLowering.Proofs.ContractMetadata
import ObjectLowering.Proofs.Drift
import ObjectLowering.Proofs.Loading

namespace ObjectLowering

namespace Data

variable {α β : Type}

/-! ## Entries in order -/

theorem lookup_map_values (g : α → β) (es : List (String × α)) (name : String) :
    (es.map fun e => (e.1, g e.2)).lookup name = (es.lookup name).map g := by
  induction es with
  | nil => rfl
  | cons e es ih =>
    obtain ⟨n, v⟩ := e
    rw [List.map_cons, lookup_cons_ite, lookup_cons_ite, ih]
    split_ifs <;> rfl

/-- Names that are listed once are found in the same way among the entries. -/
theorem lookup_entriesOf_of_nodup {es : List (String × α)} (h : (es.map (·.1)).Nodup)
    (name : String) : (entriesOf es).lookup name = es.lookup name := by
  refine Option.ext fun v => ?_
  rw [lookup_entriesOf_iff h, lookup_eq_some_iff_mem h]

namespace Json

/-- A document may end with blanks. -/
theorem read_printIndented_blanks {v : Value} (h : IsExact v) {indent blanks : String}
    (hindent : IsIndent indent) (hblanks : IsIndent blanks)
    (hend : ∀ c ∈ blanks.toList.head?, endsNumber c = true) :
    read (printIndented indent v ++ blanks) = some v := by
  have hvalue := h.readsBack indent ((printIndented indent v ++ blanks).toList.length + 1)
    blanks.toList hindent (by simp; omega) hend
  rw [← String.toList_append] at hvalue
  have hskip : skip blanks.toList = [] := by
    have hall := skip_append hblanks []
    rwa [List.append_nil] at hall
  rw [read, readWith]
  simp only [hvalue, hskip]
  rfl

end Json

end Data

namespace Report

open Data Json Lowering Text

namespace Fingerprint

/-! ## Reading what was written -/

/-- Classes, and the ids of every class, are in ascending order of their names. -/
structure Ordered (f : Fingerprint) : Prop where
  classes : ((f.classes.getD []).map (·.1)).Pairwise (· < ·)
  ids : ∀ e ∈ f.classes.getD [], ((e.2.getD []).map (·.1)).Pairwise (· < ·)

/-- The fingerprint with everything in ascending order. -/
def ordered (f : Fingerprint) : Fingerprint :=
  { f with classes := f.classes.map fun es => (entriesOf es).map fun e => (e.1, e.2.map entriesOf) }

/-- Two fingerprints hold the same, in whatever order; what is absent in one is absent in the
    other. -/
structure Same (f g : Fingerprint) : Prop where
  version : f.version = g.version
  classes : Option.Rel (fun es fs => ∀ name, Option.Rel (Option.Rel fun ids ids' : IdTexts =>
    ∀ key, ids.lookup key = ids'.lookup key) (es.lookup name) (fs.lookup name)) f.classes g.classes

section
variable {f g : Fingerprint} {units : List CodeUnit}

theorem Ordered.distinct (h : f.Ordered) : f.Distinct :=
  ⟨h.classes.imp Std.ne_of_lt, fun e he => (h.ids e he).imp Std.ne_of_lt⟩

theorem ordered_ordered (f : Fingerprint) : f.ordered.Ordered := by
  obtain ⟨version, classes⟩ := f
  cases classes with
  | none => exact ⟨List.Pairwise.nil, nofun⟩
  | some es =>
    constructor
    · change (((entriesOf es).map fun e => (e.1, e.2.map entriesOf)).map (·.1)).Pairwise (· < ·)
      rw [List.map_map]
      exact entriesOf_sorted es
    · intro e he
      obtain ⟨⟨name, ids⟩, -, rfl⟩ := List.mem_map.1 he
      cases ids with
      | none => exact List.Pairwise.nil
      | some ids => exact entriesOf_sorted ids

/-- A fingerprint in order stays as it is. -/
theorem Ordered.ordered_eq (h : f.Ordered) : f.ordered = f := by
  obtain ⟨version, classes⟩ := f
  cases classes with
  | none => rfl
  | some es =>
    have hclasses : entriesOf es = es := entriesOf_of_sorted h.classes
    have hids : es.map (fun e => (e.1, e.2.map entriesOf)) = es := by
      refine (List.map_congr_left fun e he => ?_).trans (List.map_id es)
      obtain ⟨name, ids⟩ := e
      cases ids with
      | none => rfl
      | some ids => exact congrArg (fun ids => (name, some ids)) (entriesOf_of_sorted (h.ids _ he))
    rw [ordered, Option.map_some, hclasses, hids]

/-- Putting a listing in order changes nothing else. -/
theorem Distinct.same_ordered (h : f.Distinct) : Same f f.ordered := by
  obtain ⟨version, classes⟩ := f
  refine ⟨rfl, ?_⟩
  cases classes with
  | none => exact .none
  | some es =>
    have hnodup : (es.map (·.1)).Nodup := h.classes
    refine .some fun name => ?_
    have hlookup : ((entriesOf es).map fun e => (e.1, e.2.map entriesOf)).lookup name =
        (es.lookup name).map (·.map entriesOf) := by
      rw [lookup_map_values, lookup_entriesOf_of_nodup hnodup]
    rw [hlookup]
    cases hids : es.lookup name with
    | none => exact .none
    | some ids =>
      refine .some ?_
      cases ids with
      | none => exact .none
      | some ids =>
        have hmem := (lookup_eq_some_iff_mem hnodup).1 hids
        exact .some fun key => (lookup_entriesOf_of_nodup (h.ids _ hmem) key).symm

theorem Same.agrees (h : Same f g) : f.Agrees g := by
  have hids : ∀ {x y : Option (Option IdTexts)}, Option.Rel (Option.Rel fun ids ids' : IdTexts =>
      ∀ key, ids.lookup key = ids'.lookup key) x y →
        ((x.map (·.getD [])).isSome ↔ (y.map (·.getD [])).isSome) ∧
          ∀ key, (x.map (·.getD [])).bind (·.lookup key) =
            (y.map (·.getD [])).bind (·.lookup key) := by
    intro x y hxy
    cases hxy with
    | none => exact ⟨Iff.rfl, fun _ => rfl⟩
    | some hids =>
      cases hids with
      | none => exact ⟨Iff.rfl, fun _ => rfl⟩
      | some hlookup => exact ⟨Iff.rfl, hlookup⟩
  obtain ⟨version, classes⟩ := f
  obtain ⟨version', classes'⟩ := g
  intro name
  cases h.classes with
  | none => exact ⟨Iff.rfl, fun _ => rfl⟩
  | some hclasses => exact hids (hclasses name)

/-! ### The data of a fingerprint -/

theorem isExact_toValue (f : Fingerprint) : IsExact f.toValue := by
  have hentries : ∀ {α : Type} (item : α → Value), (∀ x, IsExact (item x)) →
      ∀ es, IsExact (entriesValue item es) := by
    intro α item hitem es
    cases es with
    | none => exact .null
    | some es =>
      refine .record fun e he => ?_
      obtain ⟨x, -, rfl⟩ := List.mem_map.1 he
      exact hitem x.2
  refine .record fun e he => ?_
  simp only [List.mem_cons, List.not_mem_nil, or_false] at he
  rcases he with rfl | rfl
  · exact .int _
  · exact hentries _ (hentries _ .text) _

theorem toValue_ordered (f : Fingerprint) : f.ordered.toValue = f.toValue := by
  obtain ⟨version, classes⟩ := f
  cases classes with
  | none => rfl
  | some es =>
    have hsorted : (((entriesOf es).map fun e => (e.1, e.2.map entriesOf)).map (·.1)).Pairwise
        (· < ·) := (ordered_ordered ⟨version, some es⟩).classes
    have hitem : ∀ ids : Option IdTexts, entriesValue Value.text (ids.map entriesOf) =
        entriesValue Value.text ids := by
      intro ids
      cases ids with
      | none => rfl
      | some ids => rw [Option.map_some, entriesValue, entriesValue,
          entriesOf_of_sorted (entriesOf_sorted ids)]
    have hclasses : entriesValue (entriesValue Value.text)
        (some ((entriesOf es).map fun e => (e.1, e.2.map entriesOf))) =
          entriesValue (entriesValue Value.text) (some es) := by
      rw [entriesValue, entriesValue, entriesOf_of_sorted hsorted, List.map_map]
      refine congrArg Value.record (List.map_congr_left fun e _ => ?_)
      exact congrArg (Prod.mk e.1) (hitem e.2)
    rw [toValue, toValue, ordered, Option.map_some, hclasses]

/-- The fields of a fingerprint. -/
def fieldNames : List String := ["version", "classes"]

theorem foldEq_fieldNames :
    ∀ a ∈ fieldNames, ∀ b ∈ fieldNames, foldEq a b = (a == b) := by decide +kernel

/-- **A fingerprint is read from its data** if it is in order. -/
theorem Ordered.reader_toValue (h : f.Ordered) (hversion : Strict.isWord f.version = true) :
    reader {} f.toValue = some f := by
  obtain ⟨version, classes⟩ := f
  have hids : ∀ ids : Option IdTexts, ((ids.getD []).map (·.1)).Pairwise (· < ·) →
      Strict.entries Strict.text "" none (entriesValue Value.text ids) = some ids := by
    intro ids hsorted
    cases ids with
    | none => rfl
    | some ids =>
      have hsame : entriesOf ids = ids := entriesOf_of_sorted hsorted
      rw [entriesValue, hsame]
      exact Strict.entries_record (fun e _ => rfl) hsorted
  have hclasses : Strict.entries (Strict.entries Strict.text "") none none
      (entriesValue (entriesValue Value.text) classes) = some classes := by
    cases classes with
    | none => rfl
    | some es =>
      have hsame : entriesOf es = es := entriesOf_of_sorted h.classes
      rw [entriesValue, hsame]
      exact Strict.entries_record (fun e he => hids e.2 (h.ids e he)) h.classes
  rw [reader, toValue, Strict.record_eq_byName]
  · simp_all [Strict.int]
  · intro f hf g hg
    refine foldEq_fieldNames f.1 ?_ g.1 ?_
    · revert f
      simp [fieldNames]
    · revert g
      simp [fieldNames]

/-- **What is written is read back**, in order. -/
theorem read_render (hversion : f.version = fingerprintVersion) :
    read f.render = .ok f.ordered := by
  have hindent : IsIndent "" := by simp [IsIndent]
  have hvalue : Json.read f.render = some f.toValue :=
    read_printIndented_blanks (isExact_toValue f) hindent (by simp [IsIndent, isSpace])
      (by simp [endsNumber, Json.isDigit])
  have hread : reader {} f.toValue = some f.ordered := by
    rw [← toValue_ordered]
    refine (ordered_ordered f).reader_toValue ?_
    rw [ordered, hversion]
    decide
  rw [read, hvalue, Option.bind_some, hread]
  exact if_pos hversion

/-! ### Fingerprints of units -/

theorem ordered_ofUnits (units : List CodeUnit) : (ofUnits units).Ordered := by
  refine ⟨entriesOf_sorted _, ?_⟩
  rintro ⟨name, ids⟩ he
  obtain ⟨u, -, rfl⟩ := mem_classes.1 he
  exact entriesOf_sorted _

end

end Fingerprint

end Report

/-! ## Runs on a model -/

namespace Run

open Config Files Model Report Text

variable {s : Settings} {w : Surroundings} {files : Workspace} {r : Registry} {f : Fingerprint}
  {source : String}

/-- Where the model is read. -/
def modelPlace (s : Settings) : Location :=
  locationOf (if s.modelFormat = "ea" ∧ s.model.source ≠ "" then s.model.source else s.model.path)

/-- A repository that can be loaded is a file of tables. -/
theorem read_of_load (h : (repositoryTables files source).load = .ok r) :
    ∃ t, files.read (locationOf source) = .ok (.tables t) ∧
      repositoryTables files source = t := by
  unfold repositoryTables at h ⊢
  split at h
  · next t ht => exact ⟨t, ht, rfl⟩
  · cases h

theorem loadRepository_ok (h : (loadRepository s.model w).2 = .ok r) :
    (connection s.model w).source ≠ "" ∧ w.isCanceled = false ∧
      (repositoryTables w.files (connection s.model w).source).load = .ok r := by
  have hload := mapError_eq_ok.1 h
  unfold Connection.load at hload
  dsimp only at hload
  split_ifs at hload with hsource
  refine ⟨hsource, ?_⟩
  cases hcanceled : w.isCanceled with
  | true =>
    simp only [connection, hcanceled] at hload
    cases hload
  | false =>
    simp only [connection, hcanceled] at hload
    exact ⟨rfl, hload⟩

/-- A model is loaded again from files that hold it. -/
theorem loadModel_of_read (h : (loadModel s w).2 = .ok r)
    (hread : ∀ c, w.files.read (modelPlace s) = .ok c → files.read (modelPlace s) = .ok c) :
    (loadModel s { w with files }).2 = .ok r := by
  unfold loadModel at h ⊢
  split_ifs at h ⊢ with hformat
  · obtain ⟨hsource, hcanceled, hload⟩ := loadRepository_ok h
    obtain ⟨t, ht, htables⟩ := read_of_load hload
    have hplace : modelPlace s = locationOf (connection s.model w).source := by
      rw [modelPlace, connection]
      dsimp only
      split_ifs <;> simp_all
    have hagain : repositoryTables files (connection s.model w).source =
        repositoryTables w.files (connection s.model w).source := by
      rw [htables, repositoryTables, ← hplace, hread _ (hplace ▸ ht)]
    have hsame : connection s.model { w with files } = connection s.model w := by
      unfold connection at hagain ⊢
      dsimp only at hagain ⊢
      rw [hagain]
    rw [loadRepository]
    dsimp only
    rw [hsame]
    exact h
  · have hplace : modelPlace s = locationOf s.model.path :=
      congrArg locationOf (if_neg fun hea => hformat hea.1)
    dsimp only at h ⊢
    unfold loadDocument at h ⊢
    split_ifs at h ⊢ with hpath
    split at h
    · cases h
    · next content hcontent =>
      rw [← hplace] at hcontent ⊢
      rw [hread content hcontent]
      exact h

/-- Lowering goes by the model that is loaded. -/
theorem lowerSource_of_loadModel (h : (loadModel s { w with files }).2 = (loadModel s w).2) :
    (lowerSource s { w with files }).batch = (lowerSource s w).batch ∧
      (lowerSource s { w with files }).log = (lowerSource s w).log := by
  unfold lowerSource
  dsimp only
  rw [h]
  cases (loadModel s w).2 with
  | error e => exact ⟨rfl, rfl⟩
  | ok r =>
    dsimp only
    cases (prepareModel r).2 with
    | error e => exact ⟨rfl, rfl⟩
    | ok r => exact ⟨rfl, rfl⟩

/-- A fingerprint is that of the units of a model, which was loaded. -/
theorem currentFingerprint_ok (h : currentFingerprint (lowerSource s w) = .ok f) :
    (∃ units, f = .ofUnits units) ∧ (∃ r, (loadModel s w).2 = .ok r) ∧
      (lowerSource s w).files = w.files := by
  unfold currentFingerprint at h
  split at h
  · cases h
  · next b hbatch =>
    obtain ⟨r, hload, -⟩ := lowerSource_batch hbatch
    split at h
    · cases h
    · cases h
      exact ⟨⟨_, rfl⟩, ⟨r, hload⟩, files_of_lowerSource hbatch⟩

end Run

namespace Command

open Config Files Model Report Run Text

section
variable {files : Workspace} {path : String} {f g : Fingerprint} {s : Settings} {w : Surroundings}
  {flags : Reading}

/-- **A baseline that could be written is read back.** -/
theorem readBaseline_writeBaseline (hversion : f.version = fingerprintVersion)
    (h : (writeBaseline files path f).failure = none) :
    readBaseline (writeBaseline files path f).files path = .ok f.ordered := by
  unfold writeBaseline at h ⊢
  split at h
  · cases h
  · next made hmade =>
    split at h
    · cases h
    · next written hwritten =>
      simp only [readBaseline, Tree.read_write hwritten, Content.text?, Option.getD_some,
        Fingerprint.read_render hversion]

/-- Writing a baseline leaves the files alone that are not in its place or below. -/
theorem read_writeBaseline {q : Location} {c : Content} (hq : ¬ locationOf path <+: q)
    (hread : files.read q = .ok c) : (writeBaseline files path f).files.read q = .ok c := by
  unfold writeBaseline
  split
  · exact hread
  · next made hmade =>
    have hmade := Tree.read_of_makeDirectory hmade hread
    split
    · exact hmade
    · next written hwritten =>
      refine Tree.read_of_write hwritten ?_ (fun hmem => hq (mem_ancestors.1 hmem).1) hmade
      rintro rfl
      exact hq (List.prefix_refl _)

theorem compareBaseline_ok (hread : readBaseline files path = .ok g) (hdrift : g.drift f = []) :
    compareBaseline files path f =
      { files, output := "fingerprint matches " ++ path ++ " " ++ classCount f } := by
  rw [compareBaseline, hread]
  dsimp only
  rw [hdrift]

/-- The path of the baseline. -/
def baselinePath (s : Settings) (flags : Reading) : String :=
  if (flags.value? "baseline").getD "" = "" then s.report.fingerprint
  else (flags.value? "baseline").getD ""

/-- The command on a model that is lowered without a failure. -/
theorem idsReply_eq (hpath : baselinePath s flags ≠ "")
    (hclean : currentFingerprint (lowerSource s w) = .ok f) : idsReply s w flags =
      { (if flags.isOn "write" then writeBaseline w.files (baselinePath s flags) f
          else compareBaseline w.files (baselinePath s flags) f) with
        log := (lowerSource s w).log } := by
  unfold baselinePath at hpath ⊢
  unfold idsReply
  dsimp only
  rw [if_neg hpath, hclean, (currentFingerprint_ok hclean).2.2]

theorem baselinePath_ne (hdone : (idsReply s w flags).failure = none) :
    baselinePath s flags ≠ "" := by
  intro hempty
  have hreply : idsReply s w flags = { files := w.files, failure := some .noBaseline } :=
    if_pos hempty
  rw [hreply] at hdone
  cases hdone

/-- **The model that a baseline was written for matches it**, if the file is still what was written
    and the model is still the same. -/
theorem idsReply_after_write {flags' : Reading} {files' : Workspace}
    (hwrite : flags.isOn "write" = true) (hcompare : flags'.isOn "write" = false)
    (hpath : baselinePath s flags' = baselinePath s flags)
    (hclean : currentFingerprint (lowerSource s w) = .ok f)
    (hdone : (idsReply s w flags).failure = none)
    (hfile : files'.read (locationOf (baselinePath s flags)) =
      (idsReply s w flags).files.read (locationOf (baselinePath s flags)))
    (hmodel : (loadModel s { w with files := files' }).2 = (loadModel s w).2) :
    idsReply s { w with files := files' } flags' =
      { files := files', log := (lowerSource s w).log
        output := "fingerprint matches " ++ baselinePath s flags ++ " " ++ classCount f } := by
  have hgiven := baselinePath_ne hdone
  obtain ⟨⟨units, rfl⟩, -, -⟩ := currentFingerprint_ok hclean
  have hordered := Fingerprint.ordered_ofUnits units
  rw [idsReply_eq hgiven hclean, if_pos hwrite] at hdone hfile
  dsimp only at hdone hfile
  have hread : readBaseline files' (baselinePath s flags) = .ok (.ofUnits units) := by
    have hversion : (Fingerprint.ofUnits units).version = fingerprintVersion := rfl
    have hback := readBaseline_writeBaseline hversion hdone
    rw [hordered.ordered_eq] at hback
    unfold readBaseline at hback ⊢
    rwa [hfile]
  obtain ⟨hbatch, hlog⟩ := lowerSource_of_loadModel hmodel
  have hagain : currentFingerprint (lowerSource s { w with files := files' }) =
      .ok (.ofUnits units) := by
    rw [← hclean]
    unfold currentFingerprint
    rw [hbatch]
  have hnone : Fingerprint.drift (.ofUnits units) (.ofUnits units) = [] :=
    (Fingerprint.drift_eq_nil hordered.distinct).2 (.refl _)
  rw [idsReply_eq (hpath ▸ hgiven) hagain, hpath, hcompare, if_neg (by decide),
    compareBaseline_ok hread hnone, hlog]

/-- Writing the baseline of a model leaves the model as it is, if this is not in its place or
    below. -/
theorem loadModel_after_write (hclean : currentFingerprint (lowerSource s w) = .ok f)
    (hwrite : flags.isOn "write" = true) (hdone : (idsReply s w flags).failure = none)
    (hplace : ¬ locationOf (baselinePath s flags) <+: modelPlace s) :
    (loadModel s { w with files := (idsReply s w flags).files }).2 = (loadModel s w).2 := by
  obtain ⟨-, ⟨r, hr⟩, -⟩ := currentFingerprint_ok hclean
  rw [idsReply_eq (baselinePath_ne hdone) hclean, if_pos hwrite, hr]
  dsimp only
  exact loadModel_of_read hr fun c hread => read_writeBaseline hplace hread

/-- What baselines can be relied on for. -/
structure Reliance : Prop where
  /-- A baseline that could be written is read back, and compares as what was written. -/
  roundTrip : ∀ files path f, Fingerprint.Distinct f → f.version = fingerprintVersion →
    (writeBaseline files path f).failure = none →
      ∃ g, readBaseline (writeBaseline files path f).files path = .ok g ∧ f.Same g ∧
        (f.Ordered → g = f) ∧ ∀ c, g.drift c = f.drift c
  /-- A comparison tells exactly what was removed or changed. -/
  comparison : ∀ b c, Fingerprint.Distinct b → Fingerprint.Comparison b c
  /-- Nothing drifts from itself. -/
  refl : ∀ b, Fingerprint.Distinct b → b.drift b = []
  /-- What does not drift in two steps does not drift in both together. -/
  trans : ∀ b c d, Fingerprint.Distinct b → Fingerprint.Distinct c → b.drift c = [] →
    c.drift d = [] → b.drift d = []
  /-- The model that a baseline was written for matches it, as long as the file and the model are
      what they were. -/
  afterWrite : ∀ s w flags flags' f files, flags.isOn "write" = true →
    flags'.isOn "write" = false → baselinePath s flags' = baselinePath s flags →
      currentFingerprint (lowerSource s w) = .ok f → (idsReply s w flags).failure = none →
        files.read (locationOf (baselinePath s flags)) =
          (idsReply s w flags).files.read (locationOf (baselinePath s flags)) →
        (loadModel s { w with files }).2 = (loadModel s w).2 →
          (idsReply s { w with files } flags').failure = none ∧
            (idsReply s { w with files } flags').output =
              "fingerprint matches " ++ baselinePath s flags ++ " " ++ classCount f
  /-- Writing the baseline is no change to a model that is kept elsewhere. -/
  elsewhere : ∀ s w flags f, flags.isOn "write" = true →
    currentFingerprint (lowerSource s w) = .ok f → (idsReply s w flags).failure = none →
      ¬ locationOf (baselinePath s flags) <+: modelPlace s →
        (loadModel s { w with files := (idsReply s w flags).files }).2 = (loadModel s w).2

/-- **Baselines can be relied on**: what is written is read back, what is compared is told exactly,
    and the model that a baseline was written for matches it. -/
theorem baselines_reliable : Reliance where
  roundTrip files path f hdistinct hversion hdone := by
    have hsame := hdistinct.same_ordered
    refine ⟨f.ordered, readBaseline_writeBaseline hversion hdone, hsame,
      Fingerprint.Ordered.ordered_eq, fun c => ?_⟩
    exact (Fingerprint.drift_congr hdistinct (Fingerprint.ordered_ordered f).distinct hsame.agrees
      fun _ => ⟨Iff.rfl, fun _ => rfl⟩).symm
  comparison b c hb := Fingerprint.comparison hb c
  refl b hb := (Fingerprint.drift_eq_nil hb).2 (.refl b)
  trans b c d hb hc hbc hcd := (Fingerprint.drift_eq_nil hb).2
    (((Fingerprint.drift_eq_nil hb).1 hbc).trans ((Fingerprint.drift_eq_nil hc).1 hcd))
  afterWrite s w flags flags' f files hwrite hcompare hpath hclean hdone hfile hmodel := by
    rw [idsReply_after_write hwrite hcompare hpath hclean hdone hfile hmodel]
    exact ⟨rfl, rfl⟩
  elsewhere s w flags f hwrite hclean hdone hplace :=
    loadModel_after_write hclean hwrite hdone hplace

/-- A repository with one class, and the settings for it. -/
def buoys : Settings × Surroundings :=
  ({ model := { path := "buoy.qea", format := "ea" }, report := { fingerprint := "ids.json" } },
    { files := { nodes := [(["buoy.qea"], .file (.tables {
        objects := some [[.int 1, .text "Class", .text "Buoy", .null, .null, .text "SimObject"]]
        attributes := some [[.int 2, .int 1, .text "depth", .text "double"]] }))] } })

/-- The fingerprint of the repository. -/
def buoyPrint : Fingerprint where
  version := 1
  classes := some [("Buoy", some [("ATTR_DEPTH", "0xE54969025F72602F")])]

theorem currentFingerprint_buoys :
    currentFingerprint (lowerSource buoys.1 buoys.2) = .ok buoyPrint := by
  have hsome : (currentFingerprint (lowerSource buoys.1 buoys.2)).toOption = some buoyPrint := by
    decide +kernel
  cases h : currentFingerprint (lowerSource buoys.1 buoys.2) with
  | error e =>
    rw [h] at hsome
    cases hsome
  | ok f =>
    rw [h] at hsome
    exact congrArg Except.ok (Option.some.inj hsome)

/-- The words of a command that writes the baseline. -/
def writing : Reading := { values := [("write", switchedOn)] }

/-- The repository matches the baseline that was written for it. -/
theorem buoys_match_baseline : (idsReply buoys.1 { buoys.2 with
    files := (idsReply buoys.1 buoys.2 writing).files } {}).output =
      "fingerprint matches ids.json (1 classes)\n" := by
  have hwrite : writing.isOn "write" = true := by decide
  have hdone : (idsReply buoys.1 buoys.2 writing).failure = none := by
    rw [idsReply_eq (by decide) currentFingerprint_buoys, if_pos hwrite]
    rfl
  have hmodel := baselines_reliable.elsewhere buoys.1 buoys.2 writing _ hwrite
    currentFingerprint_buoys hdone (by decide)
  exact (baselines_reliable.afterWrite buoys.1 buoys.2 writing {} _ _ hwrite (by decide) rfl
    currentFingerprint_buoys hdone rfl hmodel).2.trans (by decide)

end

end Command

end ObjectLowering
