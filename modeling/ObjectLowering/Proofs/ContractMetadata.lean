/-
  The metadata in a contract.

  The block stands at the end of a document that may hold any text, markers of
  blocks included.  It is found by its markers all the same.

  * `cutLast?_last`, `cutFirst?_first`: a marker is found where one of its
    characters cannot occur elsewhere.
  * `summaryReader_summaryValue`: a summary is read from its own data.
  * `read_contract`: hence the metadata read from a contract are those of its
    units.
-/
import Mathlib.Data.List.Find
import ObjectLowering.Proofs.Entries
import ObjectLowering.Proofs.FileNames
import ObjectLowering.Proofs.JsonRoundTrip
import ObjectLowering.Proofs.Paths
import ObjectLowering.Report.Contract

namespace ObjectLowering

namespace Text

/-! ## Markers -/

theorem cutLast?_eq_none {p : Char} {ps cs : List Char} (h : p ∉ cs) :
    cutLast? (p :: ps) cs = none := by
  induction cs with
  | nil => rfl
  | cons c cs ih =>
    have hc : p ≠ c := fun he => h (he ▸ List.mem_cons_self)
    rw [cutLast?, ih fun hm => h (List.mem_cons_of_mem _ hm), afterFront?, if_neg hc]
    rfl

/-- A marker whose first character does not occur behind it is the last one. -/
theorem cutLast?_last {p : Char} {ps tail : List Char} (h : p ∉ ps ++ tail) (front : List Char) :
    cutLast? (p :: ps) (front ++ (p :: ps ++ tail)) = some (front, tail) := by
  induction front with
  | nil =>
    rw [List.nil_append, List.cons_append, cutLast?, cutLast?_eq_none h, ← List.cons_append,
      afterFront?_append]
    rfl
  | cons c front ih => rw [List.cons_append, cutLast?, ih]

/-- Two lists that agree have the same front before the first `c`. -/
theorem front_unique {c : Char} {xs ys as bs : List Char} (hx : c ∉ xs) (hy : c ∉ ys)
    (h : xs ++ c :: as = ys ++ c :: bs) : xs = ys := by
  have hfront : ∀ {zs : List Char}, c ∉ zs → ∀ ds, (zs ++ c :: ds).takeWhile (· != c) = zs := by
    intro zs hz ds
    have hclear : ∀ z ∈ zs, (z != c) = true := fun z hm => bne_iff_ne.2 fun he => hz (he ▸ hm)
    rw [List.takeWhile_append_of_pos hclear]
    simp
  rw [← hfront hx as, h, hfront hy bs]

/-- A marker with a character that does not occur before it is the first one. -/
theorem cutFirst?_first {c : Char} {as bs front : List Char} (has : c ∉ as) (hfront : c ∉ front)
    (tail : List Char) :
    cutFirst? (as ++ c :: bs) (front ++ (as ++ c :: bs ++ tail)) = some (front, tail) := by
  induction front with
  | nil =>
    obtain ⟨x, xs, hx⟩ : ∃ x xs, as ++ c :: bs ++ tail = x :: xs := by cases as <;> simp
    rw [List.nil_append, hx, cutFirst?, ← hx, afterFront?_append]
  | cons x front ih =>
    have hearly : afterFront? (as ++ c :: bs) (x :: (front ++ (as ++ c :: bs ++ tail))) = none := by
      rw [← Option.not_isSome_iff_eq_none, afterFront?_isSome]
      rintro ⟨rest, hrest⟩
      have hsame : as ++ c :: (bs ++ rest) = (x :: front ++ as) ++ c :: (bs ++ tail) := by
        simpa using hrest
      have hlate : c ∉ x :: front ++ as := fun hm => (List.mem_append.1 hm).elim hfront has
      have hlen := congrArg List.length (front_unique has hlate hsame)
      simp only [List.cons_append, List.length_cons, List.length_append] at hlen
      omega
    rw [List.cons_append, cutFirst?, hearly, ih fun hm => hfront (List.mem_cons_of_mem _ hm)]
    rfl

end Text

namespace Data

variable {α : Type}

/-! ## Entries in order -/

theorem putEntry_last {es : List (String × α)} {n : String} (h : ∀ e ∈ es, e.1 < n) (v : α) :
    putEntry n v es = es ++ [(n, v)] := by
  induction es with
  | nil => rfl
  | cons e es ih =>
    have he : e.1 < n := h e List.mem_cons_self
    rw [putEntry, if_neg ((Std.ne_of_lt he).symm), if_neg (Std.not_gt_of_lt he),
      ih fun x hx => h x (List.mem_cons_of_mem _ hx), List.cons_append]

/-- Entries in ascending order are those of themselves. -/
theorem entriesOf_of_sorted {es : List (String × α)} (h : (es.map (·.1)).Pairwise (· < ·)) :
    entriesOf es = es := by
  have hfold : ∀ (front back : List (String × α)),
      ((front ++ back).map (·.1)).Pairwise (· < ·) →
        back.foldl (fun es e => putEntry e.1 e.2 es) front = front ++ back := by
    intro front back hsorted
    induction back generalizing front with
    | nil => simp
    | cons e back ih =>
      obtain ⟨n, v⟩ := e
      have hlast : ∀ x ∈ front, x.1 < n := by
        intro x hx
        rw [List.map_append, List.pairwise_append] at hsorted
        exact hsorted.2.2 x.1 (List.mem_map_of_mem hx) n (by simp)
      have hmore := ih (front ++ [(n, v)]) (by simpa using hsorted)
      rw [List.foldl_cons]
      simpa [putEntry_last hlast] using hmore
  exact hfold [] es h

end Data

namespace Data.Strict

open Text

/-! ## Typed readers -/

theorem isWord_natCast {n : Nat} (h : n < signedLimit) : isWord n = true := by
  have hlow : -(signedLimit : Int) ≤ n := by omega
  have hhigh : (n : Int) < signedLimit := by exact_mod_cast h
  rw [isWord, Bool.and_eq_true]
  exact ⟨decide_eq_true hlow, decide_eq_true hhigh⟩

/-- Where folding merges no given name with another field, fields are found by their names. -/
theorem record_eq_byName {α : Type} {fields : List (String × Reader α)}
    {given : List (String × Value)}
    (h : ∀ f ∈ fields, ∀ g ∈ given, foldEq f.1 g.1 = (f.1 == g.1)) (old : α) :
    record fields old (.record given) = given.foldlM (fun r g =>
      (fields.find? fun f => f.1 == g.1).elim (some r) fun f => f.2 r g.2) old := by
  rw [record]
  induction given generalizing old with
  | nil => rfl
  | cons g given ih =>
    have hfind : fields.find? (fun f => foldEq f.1 g.1) = fields.find? fun f => f.1 == g.1 :=
      List.find?_congr fun f hf => h f hf g List.mem_cons_self
    have hmore := fun r => ih (fun f hf x hx => h f hf x (List.mem_cons_of_mem _ hx)) r
    simp only [List.foldlM_cons, hfind, hmore]
    cases fields.find? fun f => f.1 == g.1 <;> rfl

theorem texts_texts (old ts : List String) : texts old (.texts ts) = some ts := by
  have hitems : ∀ (xs : List String) (k : Nat),
      ((xs.map Value.text).zipIdx k).mapM (fun x => text (old.getD x.2 "") x.1) = some xs := by
    intro xs
    induction xs with
    | nil => intro k; rfl
    | cons x xs ih =>
      intro k
      rw [List.map_cons, List.zipIdx_cons, List.mapM_cons, ih (k + 1)]
      rfl
  exact hitems ts 0

/-- Entries in order that are read one by one are read as they are. -/
theorem entries_record {α : Type} {item : Reader α} {zero : α} {write : α → Value}
    {es : List (String × α)} (hitem : ∀ e ∈ es, item zero (write e.2) = some e.2)
    (hsorted : (es.map (·.1)).Pairwise (· < ·)) :
    entries item zero none (.record (es.map fun e => (e.1, write e.2))) = some (some es) := by
  have hfold : ∀ before : List (String × α),
      (es.map fun e => (e.1, write e.2)).foldlM (fun es f =>
        (item zero f.2).map fun y => putEntry f.1 y es) before =
      some (es.foldl (fun es e => putEntry e.1 e.2 es) before) := by
    induction es with
    | nil => intro before; rfl
    | cons e es ih =>
      intro before
      rw [List.map_cons, List.foldlM_cons, List.foldl_cons]
      simp only [hitem e List.mem_cons_self, Option.map_some]
      exact ih (fun x hx => hitem x (List.mem_cons_of_mem _ hx))
        (List.pairwise_cons.1 hsorted).2 (putEntry e.1 e.2 before)
  have hread : entries item zero none (.record (es.map fun e => (e.1, write e.2))) =
      some (some (entriesOf es)) := congrArg (Option.map some) (hfold [])
  rw [hread, entriesOf_of_sorted hsorted]

end Data.Strict

namespace Report

open Data Json Lowering Text

/-! ## Data of metadata -/

/-- The fields of a summary. -/
def summaryNames : List String := ["family", "ids", "references", "events", "diagnostics"]

/-- The fields of a block. -/
def metadataNames : List String := ["generator", "version", "classes"]

theorem foldEq_summaryNames :
    ∀ a ∈ summaryNames, ∀ b ∈ summaryNames, foldEq a b = (a == b) := by decide +kernel

theorem foldEq_metadataNames :
    ∀ a ∈ metadataNames, ∀ b ∈ metadataNames, foldEq a b = (a == b) := by decide +kernel

/-- The numbers of a summary are words. -/
def ClassSummary.Fits (c : ClassSummary) : Prop :=
  Strict.isWord c.ids = true ∧ Strict.isWord c.diagnostics = true

namespace Metadata

theorem isExact_texts (ts : List String) : IsExact (.texts ts) := by
  refine .list fun v hv => ?_
  obtain ⟨t, -, rfl⟩ := List.mem_map.1 hv
  exact .text t

theorem isExact_summaryValue (c : ClassSummary) : IsExact (summaryValue c) := by
  have hlist : ∀ (name : String) (ts : List String), ∀ f ∈ listField name ts, IsExact f.2 := by
    intro name ts f hf
    rw [listField] at hf
    split_ifs at hf
    · cases hf
    · rw [List.mem_singleton.1 hf]
      exact isExact_texts ts
  refine .record fun f hf => ?_
  simp only [List.mem_append, List.mem_cons, List.not_mem_nil, or_false] at hf
  rcases hf with (((rfl | rfl) | hf) | hf) | rfl
  · exact .text _
  · exact .int _
  · exact hlist _ _ f hf
  · exact hlist _ _ f hf
  · exact .int _

theorem isExact_toValue (m : Metadata) : IsExact m.toValue := by
  refine .record fun f hf => ?_
  simp only [List.mem_cons, List.not_mem_nil, or_false] at hf
  rcases hf with rfl | rfl | rfl
  · exact .text _
  · exact .int _
  · cases m.classes with
    | none => exact .null
    | some es =>
      refine .record fun f hf => ?_
      obtain ⟨e, -, rfl⟩ := List.mem_map.1 hf
      exact isExact_summaryValue e.2

/-- **A summary is read from its data**; an empty list is not among them. -/
theorem summaryReader_summaryValue {c : ClassSummary} (h : c.Fits) :
    summaryReader {} (summaryValue c) = some c := by
  obtain ⟨family, ids, references, events, diagnostics⟩ := c
  obtain ⟨hids, hdiagnostics⟩ := h
  rw [summaryReader, summaryValue, Strict.record_eq_byName]
  · cases references <;> cases events <;>
      simp_all [listField, Strict.text, Strict.int, Strict.texts_texts]
  · intro f hf g hg
    refine foldEq_summaryNames f.1 ?_ g.1 ?_
    · revert f
      simp [summaryNames]
    · revert g
      cases references <;> cases events <;> simp [listField, summaryNames]

/-- **Metadata are read from their data** if their classes are in order. -/
theorem reader_toValue {m : Metadata} (hversion : Strict.isWord m.version = true)
    (hfits : ∀ e ∈ m.classes.getD [], e.2.Fits)
    (hsorted : ((m.classes.getD []).map (·.1)).Pairwise (· < ·)) :
    reader {} m.toValue = some m := by
  obtain ⟨generator, version, classes⟩ := m
  rw [reader, toValue, Strict.record_eq_byName]
  · cases classes with
    | none => simp_all [Strict.text, Strict.int, Strict.entries]
    | some es =>
      have hentries := Strict.entries_record (fun e he => summaryReader_summaryValue (hfits e he))
        hsorted
      simp_all [Strict.text, Strict.int]
  · intro f hf g hg
    refine foldEq_metadataNames f.1 ?_ g.1 ?_
    · revert f
      simp [metadataNames]
    · revert g
      simp [metadataNames]

/-! ## Documents -/

/-- What follows the `<` of a block. -/
def startTail : List Char := "!--\nCONTRACT-METADATA\n".toList

theorem blockStart_toList : blockStart.toList = '<' :: startTail := by decide

theorem blockEnd_toList : blockEnd.toList = ['\n', '-', '-'] ++ '>' :: ['\n'] := by decide

/-- **The block at the end of a document is found and read**, whatever stands before it. -/
theorem read_append_block {m : Metadata} (hread : reader {} m.toValue = some m) (front : String) :
    read (front ++ m.block) = .ok m := by
  have hindent : IsIndent "" := by simp [IsIndent]
  have hquiet := (isExact_toValue m).isQuiet hindent
  set json := printIndented "" m.toValue with hjson
  have htext : (front ++ m.block).toList =
      front.toList ++ ('<' :: startTail ++ (json.toList ++ blockEnd.toList)) := by
    simp only [block, String.toList_append, blockStart_toList, List.append_assoc, ← hjson]
  have hstart : '<' ∉ startTail ++ (json.toList ++ blockEnd.toList) := by
    rw [List.mem_append, List.mem_append, not_or, not_or]
    exact ⟨by decide, fun hm => (hquiet _ hm).1 rfl, by decide⟩
  have hlast : cutLast? blockStart.toList (front ++ m.block).toList =
      some (front.toList, json.toList ++ blockEnd.toList) := by
    rw [htext, blockStart_toList]
    exact cutLast?_last hstart front.toList
  have hfirst : cutFirst? blockEnd.toList (json.toList ++ blockEnd.toList) =
      some (json.toList, []) := by
    have hcut : cutFirst? (['\n', '-', '-'] ++ '>' :: ['\n'])
        (json.toList ++ (['\n', '-', '-'] ++ '>' :: ['\n'] ++ [])) = some (json.toList, []) :=
      cutFirst?_first (by decide) (fun hm => (hquiet _ hm).2 rfl) []
    rw [List.append_nil] at hcut
    rw [blockEnd_toList]
    exact hcut
  have hvalue : Json.read (String.ofList json.toList) = some m.toValue := by
    rw [String.ofList_toList]
    exact read_printIndented (isExact_toValue m) hindent
  rw [read]
  simp only [hlast, hfirst, hvalue, Option.bind_some, hread]

/-! ## Contracts -/

theorem fits_ofUnits {units : List CodeUnit}
    (h : ∀ u ∈ units, u.ids.length < signedLimit ∧ u.diagnostics.length < signedLimit) :
    ∀ e ∈ (ofUnits units).classes.getD [], e.2.Fits := by
  rintro ⟨name, c⟩ he
  have hlookup := mem_entriesOf.1 he
  rw [lookup_entriesOf, ← List.map_reverse, lookup_map] at hlookup
  obtain ⟨u, hu, rfl⟩ := Option.map_eq_some_iff.1 hlookup
  obtain ⟨hids, hdiagnostics⟩ := h u (List.mem_reverse.1 (List.mem_of_find?_eq_some hu))
  exact ⟨Strict.isWord_natCast hids, Strict.isWord_natCast hdiagnostics⟩

/-- **The metadata of a contract can be read back**, whatever its title, names, types, events and
    diagnostics hold; of two units with one name the later counts. The lengths of lists are words,
    as they are in memory. -/
theorem read_contract (title stateText : String) (units : List CodeUnit)
    (h : ∀ u ∈ units, u.ids.length < signedLimit ∧ u.diagnostics.length < signedLimit) :
    Metadata.read (contract title stateText units) = .ok (ofUnits units) ∧
      ∀ name, ((ofUnits units).classes.getD []).lookup name =
        (units.reverse.find? fun u => u.name == name).map ClassSummary.ofUnit := by
  constructor
  · have hversion : Strict.isWord metadataVersion = true := by decide
    exact read_append_block (reader_toValue hversion (fits_ofUnits h) (entriesOf_sorted _)) _
  · intro name
    rw [ofUnits, Option.getD_some, lookup_entriesOf, ← List.map_reverse, lookup_map]

/-- A buoy whose diagnostic quotes a whole block. -/
def markedBuoy : CodeUnit :=
  { classifier := { id := "buoy", name := "Buoy" }, family := .simObject
    events := [blockStart], declaration := ""
    diagnostics := [{ code := .invalidMultiplicity, element := "buoy"
                      message := blockStart ++ "\x7b\x7d" ++ blockEnd }] }

/-- Markers in the title, an event and a diagnostic do not matter. -/
theorem read_contract_markedBuoy :
    Metadata.read (contract (blockStart ++ blockEnd) "" [markedBuoy]) =
      .ok { generator := "simgen", version := 1
            classes := some [("Buoy", { family := "simobject", events := [blockStart]
                                        diagnostics := 1 })] } := by
  rw [(read_contract (blockStart ++ blockEnd) "" [markedBuoy] (by decide)).1]
  exact congrArg Except.ok (by decide +kernel)

end Metadata
end Report
end ObjectLowering
