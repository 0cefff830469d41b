/-
  Scripts on the database.

  A run writes a script for every dialect that is listed.  Right after a script
  was written it is applied, if its dialect is the one to apply.

  * `writeExtras_deploys`: reports are written up to a failure, and what
    happens on the database is what those that were written bring about.
  * `generate_writesSame`: what is applied makes no difference to what is
    written, if the database takes it.
  * `generate_deployments`: how often a run that writes everything applies the
    script of the dialect to apply.  Listed dialects are told by all their
    names, the one to apply by its own name only.
-/
import ObjectLowering.Proofs.Loading
import ObjectLowering.Proofs.Statements

namespace ObjectLowering

open Artifact Config Lowering Schema

/-! ## Dialects by name -/

namespace Schema

variable {d d' : Dialect} {name : String}

/-- A dialect stands for itself. -/
theorem Dialect.find_name (h : Dialect.find name = some d) : Dialect.find d.name = some d := by
  have hnames : Dialect.find "postgres" = some .postgres ∧
      Dialect.find "sqlite" = some .sqlite := by decide
  unfold Dialect.find at h
  dsimp only at h
  split_ifs at h
  · rw [← Option.some.inj h]
    exact hnames.1
  · rw [← Option.some.inj h]
    exact hnames.2

theorem dialectFor_eq_ok : dialectFor name = .ok d ↔ Dialect.find name = some d := by
  unfold dialectFor
  split <;> simp_all

end Schema

namespace Run

variable {s : Settings} {w : Surroundings} {g : Generation} {e : Extra} {extras : List Extra}

/-! ## One report -/

/-- What a report brings about on the database. -/
def Extra.deployment? (s : Settings) (w : Surroundings) (e : Extra) : Option Deployment :=
  (e.dialect.filter (isApplied s.schema)).map fun d =>
    w.database.deploy d s.schema.applySource e.content

theorem Extra.deployment?_of_dialect (s : Settings) (w : Surroundings) {d : Dialect}
    (he : e.dialect = some d) : e.deployment? s w =
      if isApplied s.schema d then some (w.database.deploy d s.schema.applySource e.content)
      else none := by
  rw [deployment?, he]
  split_ifs with hd <;> simp [Option.filter, hd]

namespace Generation

theorem deployments_deploy (s : Settings) (w : Surroundings) (g : Generation) (e : Extra) :
    (g.deploy s w e).deployments = g.deployments ++ (e.deployment? s w).toList := by
  unfold deploy
  cases he : e.dialect with
  | none => simp [Extra.deployment?, he]
  | some d =>
    rw [Extra.deployment?_of_dialect s w he]
    dsimp only
    split_ifs <;> simp

/-- A report is refused, or it is written and then applied. -/
theorem writeExtra_deploys (s : Settings) (w : Surroundings) (g : Generation) (e : Extra) :
    ((g.writeExtra s w e).failure.isSome = true ∧
      (g.writeExtra s w e).artifacts = g.artifacts ∧
      (g.writeExtra s w e).deployments = g.deployments) ∨
    ((g.writeExtra s w e).artifacts.length = g.artifacts.length + 1 ∧
      (g.writeExtra s w e).deployments = g.deployments ++ (e.deployment? s w).toList) := by
  unfold writeExtra
  split
  · exact Or.inl ⟨rfl, rfl, rfl⟩
  · right
    rw [artifacts_deploy, deployments_deploy, List.length_append]
    exact ⟨rfl, rfl⟩

/-- **Reports are written up to a failure**, each with what it brings about. -/
theorem writeExtras_deploys (s : Settings) (w : Surroundings) (g : Generation)
    (extras : List Extra) : ∃ n ≤ extras.length,
      (g.writeExtras s w extras).artifacts.length = g.artifacts.length + n ∧
      (g.writeExtras s w extras).deployments =
        g.deployments ++ (extras.take n).filterMap (Extra.deployment? s w) ∧
      ((g.writeExtras s w extras).failure = none → n = extras.length) := by
  induction extras generalizing g with
  | nil => exact ⟨0, le_rfl, rfl, (List.append_nil _).symm, fun _ => rfl⟩
  | cons e rest ih =>
    rw [writeExtras]
    rcases writeExtra_deploys s w g e with ⟨hfailed, hartifacts, hdeployments⟩ |
      ⟨hartifacts, hdeployments⟩
    · rw [if_pos hfailed, hartifacts, hdeployments]
      refine ⟨0, Nat.zero_le _, rfl, by simp, fun hnone => ?_⟩
      rw [hnone] at hfailed
      cases hfailed
    · split_ifs with hfailed
      · rw [hartifacts, hdeployments]
        refine ⟨1, by simp, rfl, ?_, fun hnone => ?_⟩
        · cases hx : e.deployment? s w <;> simp [hx]
        · rw [hnone] at hfailed
          cases hfailed
      · obtain ⟨n, hn, hlength, hall, hnone⟩ := ih (g.writeExtra s w e)
        refine ⟨n + 1, Nat.succ_le_succ hn, by omega, ?_, fun h => by rw [hnone h]; rfl⟩
        rw [hall, hdeployments, List.take_succ_cons, List.append_assoc]
        cases hx : e.deployment? s w <;> simp [hx]

/-! ## All artifacts -/

/-- All artifacts of the units were written. -/
def WritesAll (s : Settings) (g : Generation) : Prop :=
  ∃ extras, reports s g.units = .ok extras ∧
    g.artifacts.length = (assemble s.layout g.units).length + extras.length

end Generation

/-- Files are written up to a failure. -/
theorem length_writeFiles (l : Layout) (isCanceled : Bool) (x : Written)
    (files : List SourceFile) :
    (l.writeFiles isCanceled x files).infos.length ≤ x.infos.length + files.length ∧
    ((l.writeFiles isCanceled x files).failure = none →
      (l.writeFiles isCanceled x files).infos.length = x.infos.length + files.length) := by
  induction files generalizing x with
  | nil => exact ⟨le_rfl, fun _ => rfl⟩
  | cons f rest ih =>
    rw [Layout.writeFiles]
    split_ifs
    · exact ⟨by simp, fun h => by cases h⟩
    · cases hstore : l.store x.sink isCanceled f.name f.content f.properties with
      | mk sink answer =>
        cases answer with
        | error cause => exact ⟨by simp, fun h => by cases h⟩
        | ok info =>
          obtain ⟨hle, hall⟩ := ih { x with sink, infos := x.infos ++ [info] }
          simp only [List.length_append, List.length_cons, List.length_nil] at hle hall ⊢
          refine ⟨by omega, fun h => ?_⟩
          rw [hall h]
          omega

namespace Generation

/-- A run writes files and then reports, up to a failure. -/
theorem write_deploys (w : Surroundings) {units : List CodeUnit} (sink : Sink)
    (hreports : reports s units = .ok extras) : ∃ m ≤ (assemble s.layout units).length,
      ∃ n ≤ extras.length,
      ({ units, sink : Generation }.write s w).artifacts.length = m + n ∧
      ({ units, sink : Generation }.write s w).deployments =
        (extras.take n).filterMap (Extra.deployment? s w) ∧
      (({ units, sink : Generation }.write s w).failure = none →
        m = (assemble s.layout units).length ∧ n = extras.length) := by
  obtain ⟨hle, hall⟩ := length_writeFiles s.layout w.isCanceled { sink } (assemble s.layout units)
  have hinfos : ({ units, sink : Generation }.writeSources s w).artifacts =
      (s.layout.writeFiles w.isCanceled { sink } (assemble s.layout units)).infos := rfl
  have hfailure : ({ units, sink : Generation }.writeSources s w).failure = none →
      (s.layout.writeFiles w.isCanceled { sink } (assemble s.layout units)).failure = none :=
    Option.map_eq_none_iff.1
  have hnone : ({ units, sink : Generation }.writeSources s w).deployments = [] := rfl
  have hunits : ({ units, sink : Generation }.writeSources s w).units = units := rfl
  rw [← hinfos, List.length_nil, Nat.zero_add] at hle hall
  rw [write]
  split_ifs with hfailed
  · refine ⟨_, hle, 0, Nat.zero_le _, rfl, hnone, fun h => ?_⟩
    rw [h] at hfailed
    cases hfailed
  · rw [writeReports, hunits, hreports]
    obtain ⟨n, hn, hlength, hdeployments, hlast⟩ := writeExtras_deploys s w
      ({ units, sink : Generation }.writeSources s w) extras
    rw [hnone, List.nil_append] at hdeployments
    refine ⟨_, hle, n, hn, hlength, hdeployments, fun h => ⟨?_, hlast h⟩⟩
    exact hall (hfailure (by simpa using hfailed))

/-- What a run that writes everything brings about on the database. -/
theorem write_deployments {units : List CodeUnit} {sink : Sink}
    (hreports : reports s units = .ok extras)
    (hall : ({ units, sink : Generation }.write s w).WritesAll s) :
    ({ units, sink : Generation }.write s w).deployments =
      extras.filterMap (Extra.deployment? s w) := by
  obtain ⟨m, hm, n, hn, hlength, hdeployments, -⟩ := write_deploys w sink hreports
  obtain ⟨extras', hreports', hlength'⟩ := hall
  have hunits : ({ units, sink : Generation }.write s w).units = units := write_units ..
  rw [hunits] at hreports' hlength'
  obtain rfl := Except.ok.inj (hreports.symm.trans hreports')
  have hlast : n = extras.length := by omega
  rw [hdeployments, hlast, List.take_length]

/-- Without a failure everything is written. -/
theorem writesAll_write {units : List CodeUnit} {sink : Sink}
    (h : ({ units, sink : Generation }.write s w).failure = none) :
    ({ units, sink : Generation }.write s w).WritesAll s := by
  cases hreports : reports s units with
  | error cause =>
    have hunits : ({ units, sink : Generation }.writeSources s w).units = units := rfl
    rw [write] at h
    split_ifs at h with hfailed
    · rw [h] at hfailed
      cases hfailed
    · rw [writeReports, hunits, hreports] at h
      cases h
  | ok extras =>
    obtain ⟨m, -, n, -, hlength, -, hlast⟩ := write_deploys w sink hreports
    obtain ⟨rfl, rfl⟩ := hlast h
    exact ⟨extras, by rw [write_units, hreports], by rw [write_units, hlength]⟩

end Generation

/-! ## Listed dialects -/

/-- The dialects whose scripts are applied: those that are listed and are to be applied. -/
def appliedDialects (s : SchemaSettings) : List Dialect :=
  (s.dialects.filterMap Dialect.find).filter (isApplied s)

theorem scripts_deploy {units : List CodeUnit} {names : List String} {scripts : List Extra}
    (h : names.mapM (scriptExtra units) = .ok scripts) :
    List.Forall₂ (fun d x => ∃ text, script d units = .ok text ∧
        x = w.database.deploy d s.schema.applySource text)
      ((names.filterMap Dialect.find).filter (isApplied s.schema))
      (scripts.filterMap (Extra.deployment? s w)) := by
  induction names generalizing scripts with
  | nil =>
    rw [List.mapM_nil] at h
    obtain rfl := Except.ok.inj h
    exact .nil
  | cons name names ih =>
    simp only [List.mapM_cons, bind_eq_ok] at h
    obtain ⟨e, he, rest, hrest, h⟩ := h
    obtain rfl := Except.ok.inj h
    simp only [scriptExtra, bind_eq_ok, dialectFor_eq_ok] at he
    obtain ⟨d, hd, text, htext, he⟩ := he
    obtain rfl := Except.ok.inj he
    have hx := Extra.deployment?_of_dialect s w (e := {
      name := "init." ++ d.name ++ ".sql", contentType := "application/sql"
      content := text, dialect := some d }) rfl
    rw [List.filterMap_cons_some hd]
    split_ifs at hx with hd'
    · rw [List.filter_cons_of_pos hd', List.filterMap_cons_some hx]
      exact .cons ⟨text, htext, rfl⟩ (ih hrest)
    · rw [List.filter_cons_of_neg hd', List.filterMap_cons_none hx]
      exact ih hrest

/-- The scripts of the listed dialects that are to be applied are. -/
theorem reports_deploy {units : List CodeUnit} (h : reports s units = .ok extras) :
    List.Forall₂ (fun d x => ∃ text, script d units = .ok text ∧
        x = w.database.deploy d s.schema.applySource text)
      (appliedDialects s.schema) (extras.filterMap (Extra.deployment? s w)) := by
  simp only [reports, bind_eq_ok] at h
  obtain ⟨scripts, hscripts, h⟩ := h
  obtain rfl := Except.ok.inj h
  have hquiet : ((if s.report.hasContract then [contractExtra s units] else []) ++
      [fingerprintExtra units]).filterMap (Extra.deployment? s w) = [] := by
    split_ifs <;> rfl
  rw [List.filterMap_append, hquiet]
  exact scripts_deploy hscripts

/-- A dialect that a name stands for is to be applied iff it is the one that is meant, by its own
    name. -/
theorem isApplied_iff {s : SchemaSettings} {d d' : Dialect} {name : String}
    (hsource : s.applySource ≠ "") (hd : Dialect.find s.applyDialect = some d)
    (hd' : Dialect.find name = some d') :
    isApplied s d' = true ↔ d' = d ∧ s.applyDialect = d.name := by
  have hname : isApplied s d' = true ↔ d'.name = s.applyDialect := by simp [isApplied, hsource]
  rw [hname]
  constructor
  · intro heq
    have hown := Dialect.find_name hd'
    rw [heq, hd] at hown
    obtain rfl := Option.some.inj hown
    exact ⟨rfl, heq.symm⟩
  · rintro ⟨rfl, heq⟩
    exact heq.symm

theorem count_eq_zero_iff {names : List String} {d : Dialect} :
    names.countP (Dialect.find · = some d) = 0 ↔ some d ∉ names.map Dialect.find := by
  simp [List.countP_eq_zero]

/-- If the dialect to apply is written by its own name, it is applied as often as it is listed, by
    whatever names; else it is not applied. -/
theorem appliedDialects_eq {s : SchemaSettings} {d : Dialect} (hsource : s.applySource ≠ "")
    (hd : Dialect.find s.applyDialect = some d) : appliedDialects s =
      List.replicate (if s.applyDialect = d.name then
        s.dialects.countP (Dialect.find · = some d) else 0) d := by
  unfold appliedDialects
  induction s.dialects with
  | nil => simp
  | cons name names ih =>
    rw [List.filterMap_cons, List.countP_cons]
    cases hname : Dialect.find name with
    | none => simpa [hname] using ih
    | some d' =>
      have happlied := isApplied_iff hsource hd hname
      by_cases hd' : isApplied s d' = true
      · obtain ⟨rfl, heq⟩ := happlied.1 hd'
        rw [List.filter_cons_of_pos hd', ih]
        simp [heq, List.replicate_succ]
      · rw [List.filter_cons_of_neg hd', ih]
        by_cases heq : s.applyDialect = d.name
        · have hne : d' ≠ d := fun h => hd' (happlied.2 ⟨h, heq⟩)
          simp [heq, hne]
        · simp [heq]

/-! ## Spellings -/

/-- The settings with other settings of the schema. -/
def withSchema (s : Settings) (x : SchemaSettings) : Settings := { s with schema := x }

theorem reports_withSchema {x : SchemaSettings} {units : List CodeUnit}
    (h : x.dialects.mapM (scriptExtra units) = s.schema.dialects.mapM (scriptExtra units)) :
    reports (withSchema s x) units = reports s units := by
  have hcontract : contractExtra (withSchema s x) units = contractExtra s units := rfl
  have hreport : (withSchema s x).report = s.report := rfl
  have hschema : (withSchema s x).schema = x := rfl
  rw [reports, reports, hcontract, hreport, hschema, h]

theorem dialect_of_mem_reports {units : List CodeUnit} {d : Dialect}
    (h : reports s units = .ok extras) (he : e ∈ extras) (hd : e.dialect = some d) :
    some d ∈ s.schema.dialects.map Dialect.find := by
  simp only [reports, bind_eq_ok] at h
  obtain ⟨scripts, hscripts, h⟩ := h
  obtain rfl := Except.ok.inj h
  simp only [List.mem_append, List.mem_singleton] at he
  rcases he with (he | rfl) | he
  · split_ifs at he
    · rw [List.mem_singleton.1 he] at hd
      cases hd
    · cases he
  · cases hd
  · obtain ⟨name, hname, hscript⟩ := exists_of_mem_mapM hscripts he
    simp only [scriptExtra, bind_eq_ok, dialectFor_eq_ok] at hscript
    obtain ⟨d', hd', text, -, hscript⟩ := hscript
    obtain rfl := Except.ok.inj hscript
    exact List.mem_map.2 ⟨name, hname, hd'.trans hd⟩

namespace Generation

theorem deploy_withSchema {x : SchemaSettings} (hsource : x.applySource = s.schema.applySource)
    (happlied : ∀ d, e.dialect = some d → isApplied x d = isApplied s.schema d)
    (g : Generation) : g.deploy (withSchema s x) w e = g.deploy s w e := by
  have hschema : (withSchema s x).schema = x := rfl
  unfold deploy
  rw [hschema, hsource]
  split
  · rfl
  · next d hd => rw [happlied d hd]

theorem writeExtras_withSchema {x : SchemaSettings}
    (h : ∀ e ∈ extras, ∀ g : Generation, g.deploy (withSchema s x) w e = g.deploy s w e)
    (g : Generation) : g.writeExtras (withSchema s x) w extras = g.writeExtras s w extras := by
  have hlayout : (withSchema s x).layout = s.layout := rfl
  induction extras generalizing g with
  | nil => rfl
  | cons e rest ih =>
    have hextra : g.writeExtra (withSchema s x) w e = g.writeExtra s w e := by
      simp only [writeExtra, hlayout, h e List.mem_cons_self]
    rw [writeExtras, writeExtras, hextra, ih fun e' he' => h e' (List.mem_cons_of_mem _ he')]

end Generation

/-- Schema settings with the same scripts, the same database and the same dialects to apply, as far
    as they are listed, make no difference. -/
theorem generate_withSchema (s : Settings) (x : SchemaSettings)
    (hscripts : ∀ units,
      x.dialects.mapM (scriptExtra units) = s.schema.dialects.mapM (scriptExtra units))
    (hsource : x.applySource = s.schema.applySource)
    (happlied : ∀ d, some d ∈ s.schema.dialects.map Dialect.find →
      isApplied x d = isApplied s.schema d)
    (sink : Option Sink) : generate (withSchema s x) w sink = generate s w sink := by
  have hreports : ∀ g : Generation, g.writeReports (withSchema s x) w = g.writeReports s w := by
    intro g
    rw [Generation.writeReports, Generation.writeReports, reports_withSchema (hscripts g.units)]
    cases hextras : reports s g.units with
    | error cause => rfl
    | ok extras =>
      refine Generation.writeExtras_withSchema (fun e he => ?_) g
      exact Generation.deploy_withSchema hsource fun d hd =>
        happlied d (dialect_of_mem_reports hextras he hd)
  have hwrite : ∀ g : Generation, g.write (withSchema s x) w = g.write s w := by
    intro g
    have hsources : g.writeSources (withSchema s x) w = g.writeSources s w := rfl
    rw [Generation.write, Generation.write, hsources, hreports]
  have hfinish : finish (withSchema s x) w = finish s w := rfl
  have hlower : lowerSource (withSchema s x) w = lowerSource s w := rfl
  have hbatch : generateBatch (withSchema s x) w = generateBatch s w := by
    funext sink y b
    simp only [generateBatch, hwrite, hfinish]
    rfl
  rw [generate, generate, hlower, hbatch]

/-- The scripts of accepted names are those of the dialects that they stand for. -/
theorem scripts_of_accepted (units : List CodeUnit) {names : List String}
    (h : ∀ name ∈ names, (Dialect.find name).isSome = true) :
    names.mapM (scriptExtra units) =
      (names.filterMap Dialect.find).mapM fun d => scriptExtra units d.name := by
  induction names with
  | nil => rfl
  | cons name names ih =>
    obtain ⟨d, hd⟩ := Option.isSome_iff_exists.1 (h name List.mem_cons_self)
    have hscript : scriptExtra units name = scriptExtra units d.name := by
      rw [scriptExtra, scriptExtra, dialectFor_eq_ok.2 hd,
        dialectFor_eq_ok.2 (Dialect.find_name hd)]
    rw [List.filterMap_cons_some hd, List.mapM_cons, List.mapM_cons, hscript,
      ih fun n hn => h n (List.mem_cons_of_mem _ hn)]

/-- Which accepted names a list has for its dialects makes no difference. -/
theorem generate_dialects {names : List String}
    (haccepted : ∀ name ∈ s.schema.dialects, (Dialect.find name).isSome = true)
    (hnames : names.map Dialect.find = s.schema.dialects.map Dialect.find) (sink : Option Sink) :
    generate (withSchema s { s.schema with dialects := names }) w sink = generate s w sink := by
  have haccepted' : ∀ name ∈ names, (Dialect.find name).isSome = true := by
    intro name hname
    have hmem := List.mem_map_of_mem (f := Dialect.find) hname
    rw [hnames] at hmem
    obtain ⟨other, hother, heq⟩ := List.mem_map.1 hmem
    exact heq ▸ haccepted other hother
  have hfound : names.filterMap Dialect.find = s.schema.dialects.filterMap Dialect.find := by
    have hid : ∀ l : List String, l.filterMap Dialect.find = (l.map Dialect.find).filterMap id := by
      intro l
      rw [List.filterMap_map, Function.id_comp]
    rw [hid, hid, hnames]
  refine generate_withSchema s { s.schema with dialects := names } (fun units => ?_) rfl
    (fun _ _ => rfl) sink
  rw [scripts_of_accepted _ haccepted', scripts_of_accepted _ haccepted, hfound]

/-- Another name for the dialect to apply makes no difference if the dialect is not listed, or if
    both or none of the names are its own. -/
theorem generate_applyDialect {name : String} {d : Dialect} (hname : Dialect.find name = some d)
    (hd : Dialect.find s.schema.applyDialect = some d)
    (h : some d ∈ s.schema.dialects.map Dialect.find →
      (name = d.name ↔ s.schema.applyDialect = d.name)) (sink : Option Sink) :
    generate (withSchema s { s.schema with applyDialect := name }) w sink =
      generate s w sink := by
  refine generate_withSchema s { s.schema with applyDialect := name } (fun _ => rfl) rfl
    (fun d' hlisted => ?_) sink
  obtain ⟨other, -, hother⟩ := List.mem_map.1 hlisted
  by_cases hsource : s.schema.applySource = ""
  · simp [isApplied, hsource]
  · have happlied : isApplied { s.schema with applyDialect := name } d' = true ↔ _ :=
      isApplied_iff hsource hname hother
    rw [Bool.eq_iff_iff, happlied, isApplied_iff hsource hd hother]
    exact and_congr_right fun heq => h (heq ▸ hlisted)

/-! ## What is applied -/

variable {g' : Generation} {x : SchemaSettings}

/-- The database runs every script to its end. -/
def TakesScripts (w : Surroundings) (s : SchemaSettings) : Prop :=
  ∀ d text, (w.database.deploy d s.applySource text).failure = none

/-- The same was written, whatever was applied. -/
structure Generation.WritesSame (g g' : Generation) : Prop where
  units : g.units = g'.units
  sink : g.sink = g'.sink
  artifacts : g.artifacts = g'.artifacts
  failure : g.failure = g'.failure

namespace Generation

@[refl]
theorem WritesSame.refl (g : Generation) : g.WritesSame g := ⟨rfl, rfl, rfl, rfl⟩

theorem WritesSame.symm (h : g.WritesSame g') : g'.WritesSame g :=
  ⟨h.units.symm, h.sink.symm, h.artifacts.symm, h.failure.symm⟩

theorem WritesSame.trans {g'' : Generation} (h : g.WritesSame g') (h' : g'.WritesSame g'') :
    g.WritesSame g'' :=
  ⟨h.units.trans h'.units, h.sink.trans h'.sink, h.artifacts.trans h'.artifacts,
    h.failure.trans h'.failure⟩

/-- What a database takes makes no difference to what is written. -/
theorem writesSame_deploy (htakes : TakesScripts w s.schema) (hnone : g.failure = none)
    (e : Extra) : (g.deploy s w e).WritesSame g := by
  unfold deploy
  split
  · rfl
  · next d _ =>
    split_ifs
    · exact ⟨rfl, rfl, rfl, by simp [htakes d, hnone]⟩
    · rfl

theorem WritesSame.writeExtra (h : g.WritesSame g') (hnone : g'.failure = none)
    (htakes : TakesScripts w s.schema) (htakes' : TakesScripts w x) (e : Extra) :
    (g.writeExtra (withSchema s x) w e).WritesSame (g'.writeExtra s w e) := by
  have hlayout : (withSchema s x).layout = s.layout := rfl
  rw [Generation.writeExtra, Generation.writeExtra, hlayout, h.sink]
  split
  · exact ⟨h.units, rfl, h.artifacts, rfl⟩
  · next sink info _ =>
    let g₁ : Generation := { g with sink, artifacts := g.artifacts ++ [info] }
    let g₂ : Generation := { g' with sink, artifacts := g'.artifacts ++ [info] }
    have hwritten : g₁.WritesSame g₂ :=
      ⟨h.units, rfl, congrArg (· ++ [info]) h.artifacts, h.failure⟩
    have hleft : (g₁.deploy (withSchema s x) w e).WritesSame g₁ :=
      writesSame_deploy (s := withSchema s x) htakes' (hwritten.failure.trans hnone) e
    have hright : (g₂.deploy s w e).WritesSame g₂ := writesSame_deploy (g := g₂) htakes hnone e
    exact (hleft.trans hwritten).trans hright.symm

theorem WritesSame.writeExtras (h : g.WritesSame g') (hnone : g'.failure = none)
    (htakes : TakesScripts w s.schema) (htakes' : TakesScripts w x) (extras : List Extra) :
    (g.writeExtras (withSchema s x) w extras).WritesSame (g'.writeExtras s w extras) := by
  induction extras generalizing g g' with
  | nil => exact h
  | cons e rest ih =>
    have hstep := h.writeExtra hnone htakes htakes' e
    simp only [Generation.writeExtras, hstep.failure]
    split_ifs with hfailed
    · exact hstep
    · exact ih hstep (by simpa using hfailed)

theorem writesSame_write (htakes : TakesScripts w s.schema) (htakes' : TakesScripts w x)
    (hdialects : x.dialects = s.schema.dialects) (g : Generation) :
    (g.write (withSchema s x) w).WritesSame (g.write s w) := by
  have hsources : g.writeSources (withSchema s x) w = g.writeSources s w := rfl
  rw [write, write, hsources]
  split_ifs with hfailed
  · rfl
  · have hnone : (g.writeSources s w).failure = none := by simpa using hfailed
    rw [writeReports, writeReports, reports_withSchema (by rw [hdialects])]
    split
    · rfl
    · exact WritesSame.writeExtras (.refl _) hnone htakes htakes' _

end Generation

/-- With databases that take every script, what is applied makes no difference to what a run
    writes. -/
theorem generate_writesSame {sink : Option Sink} (htakes : TakesScripts w s.schema)
    (htakes' : TakesScripts w x) (hdialects : x.dialects = s.schema.dialects)
    (hrun : (generate s w sink).result = some g) :
    ∃ g', (generate (withSchema s x) w sink).result = some g' ∧ g'.WritesSame g := by
  have hlower : lowerSource (withSchema s x) w = lowerSource s w := rfl
  rw [generate] at hrun ⊢
  rw [hlower]
  cases hbatch : (lowerSource s w).batch with
  | error e =>
    simp only [hbatch] at hrun
    cases hrun
  | ok b =>
    simp only [hbatch, generateBatch] at hrun ⊢
    split_ifs at hrun ⊢
    split at hrun
    · cases hrun
    · next start hopened =>
      have hsink : (withSchema s x).sink = s.sink := rfl
      rw [hsink, hopened]
      rw [finish_result] at hrun ⊢
      obtain rfl := Option.some.inj hrun
      exact ⟨_, rfl, Generation.writesSame_write htakes htakes' hdialects _⟩

/-! ## Runs -/

/-- A run without a failure writes everything. -/
theorem writesAll_of_generate {sink : Option Sink} (h : (generate s w sink).result = some g)
    (hnone : g.failure = none) : g.WritesAll s := by
  obtain ⟨r, start, -, rfl⟩ := generate_eq_write h
  exact Generation.writesAll_write hnone

/-- Only accepted names have scripts. -/
theorem accepted_of_scripts {units : List CodeUnit} {names : List String} {scripts : List Extra}
    (h : names.mapM (scriptExtra units) = .ok scripts) :
    ∀ name ∈ names, (Dialect.find name).isSome = true := by
  induction names generalizing scripts with
  | nil => exact nofun
  | cons name names ih =>
    simp only [List.mapM_cons, bind_eq_ok] at h
    obtain ⟨e, he, rest, hrest, -⟩ := h
    simp only [scriptExtra, bind_eq_ok, dialectFor_eq_ok] at he
    obtain ⟨d, hd, -⟩ := he
    exact List.forall_mem_cons.2 ⟨Option.isSome_iff_exists.2 ⟨d, hd⟩, ih hrest⟩

/-- A run that writes everything applies the scripts of the listed dialects that are to be applied,
    one after the other. -/
theorem deployments_of_run {sink : Option Sink} (hrun : (generate s w sink).result = some g)
    (hall : g.WritesAll s) :
    List.Forall₂ (fun d x => ∃ text, script d g.units = .ok text ∧
        x = w.database.deploy d s.schema.applySource text)
      (appliedDialects s.schema) g.deployments ∧
    ∀ name ∈ s.schema.dialects, (Dialect.find name).isSome = true := by
  obtain ⟨r, start, -, rfl⟩ := generate_eq_write hrun
  obtain ⟨extras, hreports, -⟩ := id hall
  rw [Generation.write_units] at hreports ⊢
  rw [Generation.write_deployments hreports hall]
  refine ⟨reports_deploy hreports, ?_⟩
  simp only [reports, bind_eq_ok] at hreports
  obtain ⟨scripts, hscripts, -⟩ := hreports
  exact accepted_of_scripts hscripts

/-- How often a run that writes everything applies the script of the dialect to apply. -/
theorem length_deployments {sink : Option Sink} {d : Dialect}
    (hrun : (generate s w sink).result = some g) (hall : g.WritesAll s)
    (hsource : s.schema.applySource ≠ "") (hd : Dialect.find s.schema.applyDialect = some d) :
    g.deployments.length = if s.schema.applyDialect = d.name then
      s.schema.dialects.countP (Dialect.find · = some d) else 0 := by
  rw [← (deployments_of_run hrun hall).1.length_eq, appliedDialects_eq hsource hd,
    List.length_replicate]

/-- Another name for the dialect to apply makes no difference iff the dialect is not listed, or both
    or none of the names are its own. -/
theorem generate_applyDialect_iff {sink : Option Sink} {d : Dialect} {name : String}
    (hrun : (generate s w sink).result = some g) (hall : g.WritesAll s)
    (hsource : s.schema.applySource ≠ "") (hd : Dialect.find s.schema.applyDialect = some d)
    (hname : Dialect.find name = some d) :
    generate (withSchema s { s.schema with applyDialect := name }) w sink = generate s w sink ↔
      (some d ∈ s.schema.dialects.map Dialect.find →
        (name = d.name ↔ s.schema.applyDialect = d.name)) := by
  refine ⟨fun hsame hlisted => ?_, fun h => generate_applyDialect hname hd h sink⟩
  have hlength := length_deployments hrun hall hsource hd
  -- the same run, seen from the other settings, has the same number of deployments
  have hlength' : g.deployments.length = if name = d.name then
      s.schema.dialects.countP (Dialect.find · = some d) else 0 :=
    length_deployments (s := withSchema s { s.schema with applyDialect := name })
      (hsame ▸ hrun) hall hsource hname
  have hpos := mt count_eq_zero_iff.1 (not_not.2 hlisted)
  by_cases hown : s.schema.applyDialect = d.name
  · rw [if_pos hown] at hlength
    refine iff_of_true (not_not.1 fun hother => ?_) hown
    rw [if_neg hother] at hlength'
    exact hpos (hlength.symm.trans hlength')
  · rw [if_neg hown] at hlength
    refine iff_of_false (fun hother => ?_) hown
    rw [if_pos hother] at hlength'
    exact hpos (hlength'.symm.trans hlength)

/-- **How often a script is applied.**  A run that writes all its artifacts, with a database and a
    name for the dialect to apply, applies the script of the dialect as often as the dialect is
    listed, by whatever names, if the name is the dialect's own, and never if not.  So it applies
    the script of a listed dialect once iff the name is its own and the list has it once.  Other
    names in the list for the same dialects make no difference; another name for the dialect to
    apply makes none iff the dialect is not listed, or both or none of the names are its own. -/
theorem generate_deployments {sink : Option Sink} {d : Dialect}
    (hrun : (generate s w sink).result = some g) (hall : g.WritesAll s)
    (hsource : s.schema.applySource ≠ "") (hd : Dialect.find s.schema.applyDialect = some d) :
    (∀ x ∈ g.deployments, ∃ text, script d g.units = .ok text ∧
      x = w.database.deploy d s.schema.applySource text) ∧
    g.deployments.length = (if s.schema.applyDialect = d.name then
      s.schema.dialects.countP (Dialect.find · = some d) else 0) ∧
    (some d ∈ s.schema.dialects.map Dialect.find →
      (g.deployments.length = 1 ↔ s.schema.applyDialect = d.name ∧
        s.schema.dialects.countP (Dialect.find · = some d) = 1)) ∧
    (some d ∉ s.schema.dialects.map Dialect.find → g.deployments = []) ∧
    (∀ names : List String, names.map Dialect.find = s.schema.dialects.map Dialect.find →
      generate (withSchema s { s.schema with dialects := names }) w sink = generate s w sink) ∧
    ∀ name, Dialect.find name = some d →
      (generate (withSchema s { s.schema with applyDialect := name }) w sink = generate s w sink ↔
        (some d ∈ s.schema.dialects.map Dialect.find →
          (name = d.name ↔ s.schema.applyDialect = d.name))) := by
  obtain ⟨happlied, haccepted⟩ := deployments_of_run hrun hall
  have hlength := length_deployments hrun hall hsource hd
  refine ⟨fun x hx => ?_, hlength, fun hlisted => ?_, fun hmissing => ?_,
    fun names hnames => generate_dialects haccepted hnames sink,
    fun name hname => generate_applyDialect_iff hrun hall hsource hd hname⟩
  · rw [appliedDialects_eq hsource hd] at happlied
    obtain ⟨i, hi, rfl⟩ := List.getElem_of_mem hx
    have hscript := happlied.get (by rw [happlied.length_eq]; exact hi) hi
    simpa using hscript
  · rw [hlength]
    split_ifs with hown <;> simp [hown]
  · rw [← List.length_eq_zero_iff, hlength, count_eq_zero_iff.2 hmissing, ite_self]

/-- The pump with a database to which the script of a dialect is applied. -/
def deployedPump (applyDialect : String) : Settings :=
  withSchema (pumpSettings "")
    { dialects := ["postgresql"], applySource := "postgres://site", applyDialect }

/-- A run for the pump that writes into memory. -/
def pumpRun (applyDialect : String) : Outcome :=
  generate (deployedPump applyDialect) pumpSite (some (.memory {}))

theorem find_postgresql : Dialect.find "postgresql" = some .postgres := by decide

/-- Whatever the name for the dialect to apply, everything is written. -/
theorem pumpRun_written (applyDialect : String) : ∃ g,
    (pumpRun applyDialect).result = some g ∧ g.WritesAll (deployedPump applyDialect) := by
  have hsource : Text.isBlankText "postgres://site" = false := by decide
  have htakes : ∀ name, TakesScripts pumpSite (deployedPump name).schema := fun _ _ _ =>
    (deploy_succeeds_iff ..).1.2 ⟨hsource, rfl, rfl, fun _ _ => rfl⟩
  have hwritten : (pumpRun "postgresql").result.any (fun g => g.failure.isNone) = true := by
    decide +kernel
  obtain ⟨g, hrun, hnone⟩ := (Option.any_eq_true ..).1 hwritten
  obtain ⟨g', hrun', hsame⟩ := generate_writesSame (s := deployedPump "postgresql")
    (x := (deployedPump applyDialect).schema) (htakes _) (htakes _) rfl hrun
  exact ⟨g', hrun', writesAll_of_generate hrun'
    (hsame.failure.trans (Option.isNone_iff_eq_none.1 hnone))⟩

/-- With its own name for the dialect to apply, the run applies its script once. -/
theorem pump_deployed_once :
    ∃ g, (pumpRun "postgres").result = some g ∧ g.WritesAll (deployedPump "postgres") ∧
      (deployedPump "postgres").schema.applySource ≠ "" ∧
      Dialect.find "postgres" = some .postgres ∧ g.deployments.length = 1 := by
  obtain ⟨g, hrun, hall⟩ := pumpRun_written "postgres"
  have hsource : (deployedPump "postgres").schema.applySource ≠ "" := by decide
  have hd : Dialect.find Dialect.postgres.name = some .postgres :=
    Dialect.find_name find_postgresql
  obtain ⟨-, -, honce, -⟩ := generate_deployments hrun hall hsource hd
  have hlisted : some Dialect.postgres ∈ ["postgresql"].map Dialect.find := by
    simp [find_postgresql]
  have hcount : ["postgresql"].countP (Dialect.find · = some .postgres) = 1 := by
    simp [find_postgresql]
  exact ⟨g, hrun, hall, hsource, hd, (honce hlisted).2 ⟨rfl, hcount⟩⟩

/-- With another name for it, in the list as well, the run applies nothing. -/
theorem pump_not_deployed :
    ∃ g, (pumpRun "postgresql").result = some g ∧ g.WritesAll (deployedPump "postgresql") ∧
      Dialect.find "postgresql" = some .postgres ∧ g.deployments = [] := by
  obtain ⟨g, hrun, hall⟩ := pumpRun_written "postgresql"
  have hlength := length_deployments hrun hall (by decide) find_postgresql
  have hother : (deployedPump "postgresql").schema.applyDialect ≠ Dialect.postgres.name := by
    decide
  rw [if_neg hother] at hlength
  exact ⟨g, hrun, hall, find_postgresql, List.length_eq_zero_iff.1 hlength⟩

end Run

end ObjectLowering
