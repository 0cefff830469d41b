/-
  Dry runs.

  A run into memory and a run into an empty directory go the same way.

  * `Generation.Alike`: the two have written the same artifacts and failed for
    the same reason, step by step (`Generation.Alike.write`).
  * `writes_iff`: the counters of a run are written to a file of their own,
    which may lie where only the second run makes directories.
  * `dryRun_tells`: what the two tell, and when they differ.
-/
import ObjectLowering.Proofs.StoreTwins
import ObjectLowering.Run.Generate

namespace ObjectLowering

open Files Text Artifact

/-! ## Names of reports -/

namespace Artifact

theorem isStorable_of_chars {name : String} (hslash : '/' ∉ name.toList)
    (hmeta : ¬ sidecarEnding.toList <:+ name.toList) (hdots : ¬ "..".toList <:+: name.toList)
    (hblank : isBlankText name = false) (hdot : name ≠ ".") : IsStorable name where
  slash := hslash
  ne_empty := by
    rintro rfl
    cases hblank
  ne_dot := hdot
  ne_dots := by
    rintro rfl
    exact hdots (List.infix_refl _)
  ne_sidecar other he := by
    rw [he, String.toList_append] at hmeta
    exact hmeta (List.suffix_append ..)
  nonblank := hblank
  dots := hdots

theorem isStorable_of_mem {l : Layout} {units : List Lowering.CodeUnit} {f : SourceFile}
    (hf : f ∈ assemble l units) : IsStorable f.name := by
  obtain ⟨name, hname, hending⟩ := name_of_mem hf
  have hcount : name.toList.count '.' = 0 :=
    List.count_eq_zero.2 fun hdot => absurd (hname.chars _ hdot) (by decide)
  have hone : f.name.toList.count '.' = 1 := by
    rcases hending with h | h <;> rw [h, String.toList_append, List.count_append, hcount] <;> rfl
  refine { isArtifactName_of_mem hf with nonblank := ?_, dots := fun hdots => ?_ }
  · have hdot : '.' ∈ f.name.toList := List.count_pos_iff.1 (by omega)
    exact List.all_eq_false.2 ⟨'.', hdot, by decide⟩
  · have htwo := hdots.sublist.count_le '.'
    rw [hone] at htwo
    exact absurd htwo (by decide)

end Artifact

namespace Run

open Config Lowering Schema

theorem exists_of_mem_mapM {ε α β : Type} {f : α → Except ε β} {xs : List α} {ys : List β}
    (h : xs.mapM f = .ok ys) {y : β} (hy : y ∈ ys) : ∃ x ∈ xs, f x = .ok y := by
  induction xs generalizing ys with
  | nil =>
    rw [List.mapM_nil] at h
    obtain rfl := Except.ok.inj h
    cases hy
  | cons x xs ih =>
    simp only [List.mapM_cons, bind_eq_ok] at h
    obtain ⟨z, hz, zs, hzs, h⟩ := h
    obtain rfl := Except.ok.inj h
    rcases List.mem_cons.1 hy with rfl | hy
    · exact ⟨x, List.mem_cons_self, hz⟩
    · obtain ⟨x', hx', hy'⟩ := ih hzs hy
      exact ⟨x', List.mem_cons_of_mem x hx', hy'⟩

theorem name_of_scriptExtra {units : List CodeUnit} {dialectName : String} {e : Extra}
    (h : scriptExtra units dialectName = .ok e) :
    e.name = "init.postgres.sql" ∨ e.name = "init.sqlite.sql" := by
  simp only [scriptExtra, bind_eq_ok] at h
  obtain ⟨d, hd, content, -, h⟩ := h
  obtain rfl := Except.ok.inj h
  unfold dialectFor at hd
  split at hd
  · next d' hfind =>
    obtain rfl := Except.ok.inj hd
    unfold Dialect.find at hfind
    dsimp only at hfind
    split_ifs at hfind
    · rw [← Option.some.inj hfind]
      exact Or.inl rfl
    · rw [← Option.some.inj hfind]
      exact Or.inr rfl
  · cases hd

/-- The fingerprint is among the reports, and all of them can be stored. -/
theorem isStorable_extra {s : Settings} {units : List CodeUnit} {extras : List Extra}
    (h : reports s units = .ok extras) :
    extras ≠ [] ∧ ∀ e ∈ extras, IsStorable e.name := by
  have hnames : ∀ name ∈ ["contract.md", "ids.json", "init.postgres.sql", "init.sqlite.sql"],
      '/' ∉ name.toList ∧ ¬ sidecarEnding.toList <:+ name.toList ∧
        ¬ "..".toList <:+: name.toList ∧ isBlankText name = false ∧ name ≠ "." := by
    decide +kernel
  simp only [reports, bind_eq_ok] at h
  obtain ⟨scripts, hscripts, h⟩ := h
  obtain rfl := Except.ok.inj h
  refine ⟨by simp, fun e he => ?_⟩
  have hname : e.name ∈ ["contract.md", "ids.json", "init.postgres.sql", "init.sqlite.sql"] := by
    simp only [List.mem_append, List.mem_singleton] at he
    rcases he with (he | rfl) | he
    · split_ifs at he
      · rw [List.mem_singleton.1 he]
        exact List.mem_cons_self
      · cases he
    · exact List.mem_cons_of_mem _ List.mem_cons_self
    · obtain ⟨name, -, hname⟩ := exists_of_mem_mapM hscripts he
      rcases name_of_scriptExtra hname with h | h <;> simp [h]
  obtain ⟨hslash, hmeta, hdots, hblank, hdot⟩ := hnames e.name hname
  exact isStorable_of_chars hslash hmeta hdots hblank hdot

/-! ## Two generations -/

/-- The settings with another store. -/
def onto (s : Settings) (driver : String) : Settings :=
  { s with output := { s.output with driver } }

theorem layout_onto (s : Settings) (driver : String) : (onto s driver).layout = s.layout := rfl

/-- Two generations, into memory and into a directory, have written the same artifacts and failed
    for the same reason. -/
structure Generation.Alike (l : Layout) (files : Workspace) (folder : Files.Location)
    (g g' : Generation) : Prop where
  units : g.units = g'.units
  sinks : ∃ m d, g.sink = .memory m ∧ g'.sink = .directory d ∧ Twins l files folder m d ∧
    (g.artifacts ≠ [] → Made folder d)
  artifacts : g.artifacts.map Info.unaddressed = g'.artifacts.map Info.unaddressed
  failure : g.failure = g'.failure

namespace Generation

variable {s : Settings} {w : Surroundings} {files : Workspace} {folder : Files.Location}
  {g g' : Generation}

theorem deploy_of_not_applied (h : s.schema.applySource = "") (w : Surroundings) (g : Generation)
    (e : Extra) : g.deploy s w e = g := by
  unfold deploy
  cases e.dialect with
  | none => rfl
  | some d => exact if_neg (by simp [isApplied, h])

theorem Alike.writeSources (units : List CodeUnit) {m : MemoryStore} {d : DirectoryStore}
    (h : Twins s.layout files folder m d) (hv : IsVacant files folder)
    (hcanceled : w.isCanceled = false) :
    Alike s.layout files folder
      ({ units, sink := .memory m : Generation }.writeSources (onto s "memory") w)
      ({ units, sink := .directory d : Generation }.writeSources (onto s "fs") w) := by
  have hwritten : Artifact.Alike s.layout files folder { sink := .memory m }
      { sink := .directory d } :=
    ⟨⟨m, d, rfl, rfl, h, fun hne => absurd rfl hne⟩, rfl, rfl⟩
  have hfiles : ∀ f ∈ assemble s.layout units, IsStorable f.name := fun _ => isStorable_of_mem
  obtain ⟨hsinks, hinfos, hfailure⟩ := hwritten.writeFiles hv hfiles
  simp only [Generation.writeSources, layout_onto, hcanceled]
  exact ⟨rfl, hsinks, hinfos, congrArg (Option.map Failure.notWritten) hfailure⟩

theorem Alike.writeExtra (h : Alike s.layout files folder g g') (hv : IsVacant files folder)
    (happly : s.schema.applySource = "") (hcanceled : w.isCanceled = false) {e : Extra}
    (he : IsStorable e.name) :
    Alike s.layout files folder (g.writeExtra (onto s "memory") w e)
      (g'.writeExtra (onto s "fs") w e) := by
  obtain ⟨m, d, hm, hd, htwins, hmade⟩ := h.sinks
  have hdeploy : ∀ driver g, Generation.deploy (onto s driver) w g e = g := fun driver g =>
    deploy_of_not_applied happly w g e
  simp only [Generation.writeExtra, Layout.writeExtra, layout_onto, hcanceled, hdeploy, hm, hd]
  rcases htwins.store hv he e.content
      { contentType := e.contentType, metadata := [("generator", "simgen")] } with
    ⟨cause, hstore, hstore'⟩ | ⟨m', d', i, i', hstore, hstore', hinfo, htwins', hmade'⟩
  · rw [hstore, hstore']
    exact ⟨h.units, ⟨m, d, rfl, rfl, htwins, hmade⟩, h.artifacts, rfl⟩
  · rw [hstore, hstore']
    refine ⟨h.units, ⟨m', d', rfl, rfl, htwins', fun _ => hmade'⟩, ?_, h.failure⟩
    simp only [List.map_append, List.map_singleton, h.artifacts, hinfo]

theorem Alike.writeExtras (h : Alike s.layout files folder g g') (hv : IsVacant files folder)
    (happly : s.schema.applySource = "") (hcanceled : w.isCanceled = false) {extras : List Extra}
    (hextras : ∀ e ∈ extras, IsStorable e.name) :
    Alike s.layout files folder (g.writeExtras (onto s "memory") w extras)
      (g'.writeExtras (onto s "fs") w extras) := by
  induction extras generalizing g g' with
  | nil => exact h
  | cons e rest ih =>
    have hstep := h.writeExtra hv happly hcanceled (hextras e List.mem_cons_self)
    simp only [Generation.writeExtras, ← hstep.failure]
    split_ifs
    · exact hstep
    · exact ih hstep fun e' he' => hextras e' (List.mem_cons_of_mem _ he')

/-- **Two runs write the same**, up to the same failure. -/
theorem Alike.write {units : List CodeUnit} {m : MemoryStore} {d : DirectoryStore}
    (h : Twins s.layout files folder m d) (hv : IsVacant files folder)
    (happly : s.schema.applySource = "") (hcanceled : w.isCanceled = false) :
    Alike s.layout files folder
      ({ units, sink := .memory m : Generation }.write (onto s "memory") w)
      ({ units, sink := .directory d : Generation }.write (onto s "fs") w) := by
  have hsources := Alike.writeSources units h hv hcanceled
  simp only [Generation.write, ← hsources.failure]
  split_ifs
  · exact hsources
  · have hreports : ∀ driver units, reports (onto s driver) units = reports s units :=
      fun _ _ => rfl
    simp only [Generation.writeReports, hreports, ← hsources.units]
    cases hextras : reports s _ with
    | error cause => exact { hsources with failure := rfl }
    | ok extras => exact hsources.writeExtras hv happly hcanceled (isStorable_extra hextras).2

theorem artifacts_deploy (s : Settings) (w : Surroundings) (g : Generation) (e : Extra) :
    (g.deploy s w e).artifacts = g.artifacts := by
  unfold deploy
  split
  · rfl
  · split_ifs <;> rfl

/-- Reports that were all written are among the artifacts. -/
theorem artifacts_ne_nil {extras : List Extra} (hextras : g.artifacts ≠ [] ∨ extras ≠ [])
    (h : (g.writeExtras s w extras).failure = none) :
    (g.writeExtras s w extras).artifacts ≠ [] := by
  induction extras generalizing g with
  | nil => exact hextras.resolve_right fun hne => hne rfl
  | cons e rest ih =>
    simp only [Generation.writeExtras] at h ⊢
    split_ifs at h ⊢ with hfailed
    · rw [h] at hfailed
      cases hfailed
    · refine ih (Or.inl ?_) h
      unfold Generation.writeExtra at hfailed ⊢
      split at hfailed
      · exact absurd rfl hfailed
      · rw [artifacts_deploy]
        simp

theorem artifacts_of_write {units : List CodeUnit} {sink : Sink}
    (h : ({ units, sink : Generation }.write s w).failure = none) :
    ({ units, sink : Generation }.write s w).artifacts ≠ [] := by
  simp only [Generation.write] at h ⊢
  split_ifs at h ⊢ with hfailed
  · rw [h] at hfailed
    cases hfailed
  · unfold Generation.writeReports at h ⊢
    split at h
    · cases h
    · next extras hextras => exact artifacts_ne_nil (Or.inr (isStorable_extra hextras).1) h

end Generation

/-! ## Files of their own -/

/-- Everything stands in a directory. -/
def IsHierarchy (t : Workspace) : Prop :=
  ∀ p, t.node? p ≠ none → t.node? p.dropLast = some .directory

/-- A run into a folder makes a directory that was missing. -/
def Makes (files : Workspace) (folder p : Files.Location) : Prop :=
  p <+: folder ∧ files.node? p = none

section
variable {l : Layout} {files t : Workspace} {folder p q : Files.Location} {m : MemoryStore}
  {d : DirectoryStore} {c : Content}

theorem IsHierarchy.above (h : IsHierarchy t) (hp : t.node? p = some .directory) (hq : q <+: p) :
    t.node? q = some .directory := by
  by_cases he : q = p
  · rw [he, hp]
  · exact Tree.node?_above h (by simp [hp]) hq he

theorem IsHierarchy.write_iff (h : IsHierarchy t) : (∃ t', t.write p c = .ok t') ↔
    p ≠ [] ∧ t.node? p ≠ some .directory ∧ t.node? p.dropLast = some .directory := by
  simp only [Tree.write_eq_ok]
  constructor
  · rintro ⟨t', hp, -, hnode, hparent, -⟩
    refine ⟨hp, hnode, ?_⟩
    by_cases hnone : t.node? p = none
    · exact hparent hnone
    · exact h p hnone
  · rintro ⟨hp, hnode, hparent⟩
    refine ⟨_, hp, fun q hq hne => ?_, hnode, fun _ => hparent, rfl⟩
    exact Tree.isFile_of_directory (h.above hparent (prefix_dropLast hq hne))

theorem directory_iff (htwins : Twins l files folder m d) (hv : IsVacant files folder)
    (hmade : Made folder d) :
    d.files.node? q = some .directory ↔ files.node? q = some .directory ∨ Makes files folder q := by
  constructor
  · intro h
    rcases htwins.nodes q with hnode | ⟨hq, hnone, -⟩ | ⟨name, c, -, hnode⟩
    · exact Or.inl (hnode ▸ h)
    · exact Or.inr ⟨hq, hnone⟩
    · rw [hnode] at h
      cases h
  · rintro (h | h)
    · rcases htwins.nodes q with hnode | ⟨-, -, hnode⟩ | ⟨name, c, rfl, -⟩
      · rw [hnode, h]
      · exact hnode
      · rw [hv.inside] at h
        cases h
    · exact hmade q h.1

theorem hierarchy_of_twins (h : IsHierarchy files) (htwins : Twins l files folder m d)
    (hv : IsVacant files folder) (hmade : Made folder d) : IsHierarchy d.files := by
  intro p hp
  rcases htwins.nodes p with hnode | ⟨habove, -, -⟩ | ⟨name, c, rfl, -⟩
  · rw [hnode] at hp
    exact (directory_iff htwins hv hmade).2 (Or.inl (h p hp))
  · exact hmade _ ((List.dropLast_prefix p).trans habove)
  · rw [List.dropLast_concat]
    exact hmade folder (List.prefix_refl _)

/-- A file of its own is written before a run iff it is after, unless it stands in a directory that
    the run makes, or in the place of one. -/
theorem writes_iff (h : IsHierarchy files) (htwins : Twins l files folder m d)
    (hv : IsVacant files folder) (hmade : Made folder d) :
    ((∃ t, files.write p c = .ok t) ↔ ∃ t, d.files.write p c = .ok t) ↔
      (Makes files folder p ↔ Makes files folder p.dropLast) := by
  have hdirectory := fun q => directory_iff (q := q) htwins hv hmade
  rw [h.write_iff, (hierarchy_of_twins h htwins hv hmade).write_iff]
  simp only [ne_eq, hdirectory]
  -- what is made was missing, and what leads to it is there or is made as well
  have hmakes : Makes files folder p → p ≠ [] ∧ files.node? p = none ∧
      (files.node? p.dropLast = some .directory ∨ Makes files folder p.dropLast) := by
    rintro ⟨habove, hnone⟩
    have habove' := (List.dropLast_prefix p).trans habove
    refine ⟨?_, hnone, ?_⟩
    · rintro rfl
      cases hnone
    · cases hparent : files.node? p.dropLast with
      | none => exact Or.inr ⟨habove', hparent⟩
      | some n =>
        cases n with
        | directory => exact Or.inl rfl
        | file c => exact absurd hparent (Tree.isFile_eq_false.1 (hv.way _ habove') c)
  have hparent : Makes files folder p.dropLast → p ≠ [] ∧
      files.node? p.dropLast ≠ some .directory ∧ files.node? p ≠ some .directory := by
    rintro ⟨-, hnone⟩
    refine ⟨?_, by simp [hnone], fun hp => ?_⟩
    · rintro rfl
      cases hnone
    · rw [h p (by simp [hp])] at hnone
      cases hnone
  by_cases hp : Makes files folder p
  · obtain ⟨hne, hnone, hway⟩ := hmakes hp
    by_cases hp' : Makes files folder p.dropLast
    · simp [hp, hp', (hparent hp').2.1]
    · simp [hp, hp', hne, hnone, hway.resolve_right hp']
  · by_cases hp' : Makes files folder p.dropLast
    · obtain ⟨hne, hmissing, hnode⟩ := hparent hp'
      simp [hp, hp', hne, hmissing, hnode]
    · simp [hp, hp']

end

/-! ## Two runs -/

/-- The root that a run into a directory starts from. -/
def outputRoot (s : Settings) : String := if s.output.root = "" then defaultRoot else s.output.root

/-- The directory that a run puts its artifacts into. -/
def outputFolder (s : Settings) : Files.Location :=
  locationOf (outputRoot s) ++ Path.segments s.output.folder

/-- Nothing is below a root, and no file is in its place or on the way. -/
structure IsEmptyRoot (files : Workspace) (root : Files.Location) : Prop where
  way : ∀ q, q <+: root → files.isFile q = false
  below : ∀ q, root <+: q → q ≠ root → files.node? q = none

section
variable {s : Settings} {w : Surroundings} {files : Workspace} {b : Batch} {g : Generation}

theorem outputRoot_ne (s : Settings) : outputRoot s ≠ "" := by
  unfold outputRoot
  split_ifs with h
  · decide
  · exact h

theorem IsEmptyRoot.vacant {root : Files.Location} (h : IsEmptyRoot files root)
    (rest : List String) : IsVacant files (root ++ rest) where
  way q hq := by
    by_cases hroot : q <+: root
    · exact h.way q hroot
    · have hbelow : root <+: q :=
        (List.prefix_or_prefix_of_prefix hq (List.prefix_append ..)).resolve_left hroot
      have hnone := h.below q hbelow fun he => hroot (he ▸ List.prefix_refl _)
      simp [Tree.isFile, hnone]
  inside name := by
    refine h.below _ ?_ fun he => ?_
    · rw [List.append_assoc]
      exact List.prefix_append ..
    · have hlength := congrArg List.length he
      simp at hlength

/-- A store in an empty root is the twin of an empty one in memory. -/
theorem start_twins (hfolder : s.layout.IsAccepted)
    (hroot : IsEmptyRoot files (locationOf (outputRoot s))) :
    ∃ d, DirectoryStore.start files s.output.root = .ok d ∧
      Twins s.layout files (outputFolder s) {} d := by
  have hv : IsVacant files (outputFolder s) := hroot.vacant _
  obtain ⟨made, hmade, hnode⟩ := Tree.node?_makeDirectory hroot.way
  have hinside : ∀ name, made.node? (outputFolder s ++ [name]) = none := by
    intro name
    rw [hnode, hv.inside, Option.none_or, if_neg]
    intro habove
    exact not_prefix_of_mem name (habove.trans (List.prefix_append ..))
  refine ⟨{ files := made, root := outputRoot s }, ?_, ?_, ?_, ?_⟩
  · unfold DirectoryStore.start
    dsimp only
    rw [← outputRoot, hmade]
  · intro name hname
    exact hfolder.places hname (outputRoot_ne s)
  · intro q
    dsimp only
    rw [hnode]
    cases hq : files.node? q with
    | some n => exact Or.inl rfl
    | none =>
      by_cases habove : q <+: locationOf (outputRoot s)
      · refine Or.inr (Or.inl ⟨habove.trans (List.prefix_append ..), rfl, ?_⟩)
        rw [if_pos habove]
        rfl
      · rw [if_neg habove]
        exact Or.inl rfl
  · intro name hname
    have hway : ∀ q, q <+: outputFolder s → made.isFile q = false := by
      refine fun q hq => Tree.isFile_eq_false.2 fun c hc => ?_
      rw [hnode] at hc
      cases hq' : files.node? q with
      | some n =>
        rw [hq'] at hc
        exact Tree.isFile_eq_false.1 (hv.way q hq) c (hq'.trans hc)
      | none =>
        rw [hq'] at hc
        split_ifs at hc <;> cases hc
    rw [sidecarAt_isOk hway]
    simp [hinside]

/-! ### Counters -/

/-- The failure of a run in which everything is written. -/
def counterFailure (s : Settings) (w : Surroundings) (b : Batch) (files : Workspace) :
    Option Failure :=
  match writeCounters s w b files with
  | .error e => some e
  | .ok _ => batchFailure b

theorem finish_result (s : Settings) (w : Surroundings) (b : Batch) (x : Outcome) (g : Generation) :
    (finish s w b x g).result = some g := by
  unfold finish
  dsimp only
  split_ifs
  · rfl
  · split <;> rfl

theorem finish_failure (s : Settings) (w : Surroundings) (b : Batch) (x : Outcome)
    (g : Generation) : (finish s w b x g).failure =
      if g.failure.isSome then g.failure
      else counterFailure s w b (g.sink.workspace x.files) := by
  unfold finish counterFailure
  dsimp only
  split_ifs
  · rfl
  · cases writeCounters s w b (g.sink.workspace x.files) <;> rfl

/-- The counters as the content of a file. -/
def counterContent (b : Batch) : Content := .text (counterText (.ofObservations b.observed))

theorem counterFailure_of_counted (h : w.hasCounters ∧ s.metricsFile ≠ "") (b : Batch)
    (files : Workspace) : counterFailure s w b files =
      match files.write (locationOf s.metricsFile) (counterContent b) with
      | .error _ => some .noCounterFile
      | .ok _ => batchFailure b := by
  rw [counterFailure, writeCounters, if_pos h, ← counterContent]
  cases files.write (locationOf s.metricsFile) (counterContent b) <;> rfl

theorem counterFailure_eq_iff {files' : Workspace} :
    counterFailure s w b files = counterFailure s w b files' ↔
      (w.hasCounters = true → s.metricsFile ≠ "" →
        ((∃ t, files.write (locationOf s.metricsFile) (counterContent b) = .ok t) ↔
          ∃ t, files'.write (locationOf s.metricsFile) (counterContent b) = .ok t)) := by
  by_cases h : w.hasCounters ∧ s.metricsFile ≠ ""
  · have hne : some Failure.noCounterFile ≠ batchFailure b := by
      unfold batchFailure
      split_ifs <;> simp
    rw [counterFailure_of_counted h, counterFailure_of_counted h]
    cases files.write (locationOf s.metricsFile) (counterContent b) <;>
      cases files'.write (locationOf s.metricsFile) (counterContent b) <;>
      simp [h.1, h.2, hne, hne.symm]
  · have hnone : ∀ files, counterFailure s w b files = batchFailure b := by
      intro files
      rw [counterFailure, writeCounters, if_neg h]
    rw [hnone, hnone]
    exact iff_of_true rfl fun hcounters hfile => absurd ⟨hcounters, hfile⟩ h

/-! ### Runs -/

/-- A run that keeps its artifacts in memory. -/
def dryRun (s : Settings) (w : Surroundings) : Outcome := generate (onto s "memory") w none

/-- A run that writes its artifacts into a directory. -/
def directoryRun (s : Settings) (w : Surroundings) : Outcome := generate (onto s "fs") w none

/-- The artifacts of a run without their addresses; nothing if it did not get as far. -/
def Outcome.listing (x : Outcome) : Option (List Info) :=
  x.result.map fun g => g.artifacts.map Info.unaddressed

/-- A run has written all its artifacts. -/
def Outcome.IsWritten (x : Outcome) : Prop := ∃ g, x.result = some g ∧ g.failure = none

/-- What two runs tell in the end.  They differ only in the counters, when everything is written. -/
theorem finish_alike {g' : Generation} (hfiles : IsHierarchy files)
    (hv : IsVacant files (outputFolder s))
    (halike : Generation.Alike s.layout files (outputFolder s) g g')
    (hartifacts : g.failure = none → g.artifacts ≠ []) {log : Log} {x y : Outcome}
    (hx : finish (onto s "memory") w b { files, log } g = x)
    (hy : finish (onto s "fs") w b { files, log } g' = y) :
    x.listing = y.listing ∧
      (x.failure = y.failure ↔ (w.hasCounters = true → s.metricsFile ≠ "" → x.IsWritten →
        (Makes files (outputFolder s) (locationOf s.metricsFile) ↔
          Makes files (outputFolder s) (locationOf s.metricsFile).dropLast))) := by
  obtain ⟨m, d, hm, hd, htwins, hmade⟩ := halike.sinks
  have hresult : x.result = some g := hx ▸ finish_result ..
  have hresult' : y.result = some g' := hy ▸ finish_result ..
  have hfailure : x.failure = if g.failure.isSome then g.failure
      else counterFailure s w b files := by
    rw [← hx, finish_failure, hm]
    rfl
  have hfailure' : y.failure = if g.failure.isSome then g.failure
      else counterFailure s w b d.files := by
    rw [← hy, finish_failure, hd, halike.failure]
    rfl
  refine ⟨by rw [Outcome.listing, Outcome.listing, hresult, hresult', Option.map_some,
    Option.map_some, halike.artifacts], ?_⟩
  rw [hfailure, hfailure']
  cases hg : g.failure with
  | some e =>
    rw [Option.isSome_some, if_pos rfl, if_pos rfl]
    refine iff_of_true rfl ?_
    rintro - - ⟨g₁, hg₁, hnone⟩
    rw [hresult] at hg₁
    rw [← Option.some.inj hg₁, hg] at hnone
    cases hnone
  | none =>
    have hwritten : x.IsWritten := ⟨g, hresult, hg⟩
    rw [Option.isSome_none, if_neg (by decide), if_neg (by decide), counterFailure_eq_iff,
      writes_iff hfiles htwins hv (hmade (hartifacts hg))]
    exact ⟨fun h hc hf _ => h hc hf, fun h hc hf => h hc hf hwritten⟩

theorem start_directory {o : SinkOptions} {d : DirectoryStore} (ho : o.driver = "fs")
    (h : DirectoryStore.start files o.root = .ok d) :
    Sink.start files o = .ok (.directory d) := by
  simp [Sink.start, ho, h]

theorem start_memory {o : SinkOptions} (ho : o.driver = "memory") (files : Workspace) :
    Sink.start files o = .ok (.memory {}) := by
  simp [Sink.start, ho]

theorem generateBatch_alike (hfolder : s.layout.IsAccepted) (happly : s.schema.applySource = "")
    (hcanceled : w.isCanceled = false) (hfiles : IsHierarchy files)
    (hroot : IsEmptyRoot files (locationOf (outputRoot s))) {log : Log} {x y : Outcome}
    (hx : generateBatch (onto s "memory") w none { files, log } b = x)
    (hy : generateBatch (onto s "fs") w none { files, log } b = y) :
    x.listing = y.listing ∧
      (x.failure = y.failure ↔ (w.hasCounters = true → s.metricsFile ≠ "" → x.IsWritten →
        (Makes files (outputFolder s) (locationOf s.metricsFile) ↔
          Makes files (outputFolder s) (locationOf s.metricsFile).dropLast))) := by
  unfold generateBatch at hx hy
  by_cases hb : b.hasFailed ∧ b.units.isEmpty
  · rw [if_pos hb] at hx hy
    subst hx hy
    refine ⟨rfl, iff_of_true rfl ?_⟩
    rintro - - ⟨g, hg, -⟩
    cases hg
  · have hv : IsVacant files (outputFolder s) := hroot.vacant _
    obtain ⟨d, hstart, htwins⟩ := start_twins hfolder hroot
    have hsink := start_directory (o := (onto s "fs").sink) rfl hstart
    have hmemory := start_memory (o := (onto s "memory").sink) rfl files
    rw [if_neg hb] at hx hy
    dsimp only at hx hy
    rw [hmemory] at hx
    rw [hsink] at hy
    exact finish_alike hfiles hv (.write htwins hv happly hcanceled)
      Generation.artifacts_of_write hx hy

/-- A repository that is missing cannot be loaded, so opening one that is loaded makes no file. -/
theorem openedFiles_of_load {c : Model.Connection} {r : Model.Registry}
    (hc : c.tables = repositoryTables files c.source) (h : c.load = .ok r) :
    openedFiles files c.source = files := by
  unfold openedFiles
  split
  · next hmissing _ =>
    have hread : files.read (locationOf c.source) = .error .missing := by
      rw [Tree.read, hmissing]
    have habsent : c.tables = Model.Tables.absent := by rw [hc, repositoryTables, hread]
    simp only [Model.Connection.load] at h
    split_ifs at h
    rw [habsent] at h
    split at h <;> cases h
  · rfl

theorem files_of_loadRepository {m : ModelSettings} {r : Model.Registry}
    (h : (loadRepository m w).2 = .ok r) : (loadRepository m w).1 = w.files := by
  have hanswer : (loadRepository m w).2 = (connection m w).load.mapError .repository := rfl
  have hfiles : (loadRepository m w).1 = if (connection m w).source = "" then w.files
      else openedFiles w.files (connection m w).source := rfl
  rw [hanswer, mapError_eq_ok] at h
  rw [hfiles]
  split_ifs
  · rfl
  · exact openedFiles_of_load (by simp only [connection]) h

theorem files_of_load {r : Model.Registry} (h : (loadModel s w).2 = .ok r) :
    (loadModel s w).1 = w.files := by
  unfold loadModel at h ⊢
  split_ifs at h ⊢
  · exact files_of_loadRepository h
  · rfl

theorem files_of_lowerSource (h : (lowerSource s w).batch = .ok b) :
    (lowerSource s w).files = w.files := by
  unfold lowerSource at h ⊢
  cases hload : (loadModel s w).2 with
  | error e =>
    simp only [hload] at h
    cases h
  | ok r =>
    have hfiles := files_of_load hload
    simp only [hload] at h ⊢
    split <;> exact hfiles

end

/-! A repository with one class, and settings that ask for counters. -/

def pumpTables : Model.Tables :=
  { objects := some [[.int 1, .text "Class", .text "Pump", .null, .null, .null, .null, .null, .null,
      .text "pump"]] }

def pumpSite : Surroundings :=
  { files := { nodes := [(["pump.qea"], .file (.tables pumpTables))] }, hasCounters := true }

/-- The settings with a file for the counters. -/
def pumpSettings (metricsFile : String) : Settings :=
  { model := { path := "pump.qea" }, lowering := { root := "ATTR", stateStem := "STATE" }
    output := { root := "gen", folder := "src" }, report := { hasContract := true }, metricsFile }

end Run

end ObjectLowering
