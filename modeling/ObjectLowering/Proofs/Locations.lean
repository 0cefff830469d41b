/-
  When member paths have keys of their own.

  The keys of two paths can be the same text.  The id table then compares
  the owners on record, and an owner is written as the name of a classifier
  and the name of a feature with a dot between them.

  * `Unambiguous`: no two paths with one key and one written owner end in
    features of different names.
  * `lowerClass_paths_distinct`: a simulation object that is lowered has no
    two paths with one key iff it is unambiguous; then its survey has all
    paths, and different paths have different ids.
  * Names of features without dots are enough (`unambiguous_of_names`); with
    dots, one of two paths can be lost (`motor_paths_share_key`).
-/
import ObjectLowering.Model.Prepare
import ObjectLowering.Proofs.Accessors

namespace ObjectLowering.Lowering

open Model Code Text

/-- Two paths with one key and one owner end in features of one name. -/
def Unambiguous (r : Registry) (c : Classifier) (stem : String) : Prop :=
  ∀ l l', Reached r c stem l → Reached r c stem l' → l.key = l'.key →
    l.member.claimOwner = l'.member.claimOwner → l.member.name = l'.member.name

/-- Paths with one key have the same names. -/
def KeysDistinct (r : Registry) (c : Classifier) (stem : String) : Prop :=
  ∀ l l', Reached r c stem l → Reached r c stem l' → l.key = l'.key → l.names = l'.names

theorem claimOwner_ne_empty (m : Member) : m.claimOwner ≠ "" := by
  intro h
  have := congrArg String.length h
  simp [Member.claimOwner] at this

section
variable {r : Registry} {c : Classifier} {stem : String} {l l' : Location} {tr : List Location}
  {x y : Member}

theorem KeysDistinct.unambiguous (h : KeysDistinct r c stem) : Unambiguous r c stem := by
  intro l l' hl hl' hk _
  have hnames := h l l' hl hl' hk
  simp only [Location.names, List.map_append, List.map_cons, List.map_nil] at hnames
  exact List.singleton_inj.1 (List.append_inj' hnames rfl).2

theorem eq_of_name_eq (hx : x ∈ dataOf r c stem) (hy : y ∈ dataOf r c stem) (h : x.name = y.name) :
    x = y := List.inj_on_of_nodup_map (dataOf_names_nodup r c stem) hx hy h

variable (hstem : IsIdentifier stem)
include hstem

/-- The key of a path is longer than the stem. -/
theorem Reached.length_lt (h : Reached r c stem l) : stem.length < l.key.length := by
  induction h with
  | top hm =>
    rw [Location.key, key_of_mem_dataOf hm]
    exact length_lt_keyOf hstem _
  | inside h _ hx _ ih =>
    rw [Location.key, key_of_mem_dataOf hx]
    exact ih.trans (length_lt_keyOf (h.isIdentifier hstem) _)

/-- Paths with one key and one last name are the same, if those they continue are in a trace. -/
theorem Reached.eq_of_key (hn : (tr.map Location.key).Nodup) (hl : Reached r c stem l)
    (hl' : Reached r c stem l') (hf : Follows tr l) (hf' : Follows tr l') (hk : l.key = l'.key)
    (hname : l.member.name = l'.member.name) : l = l' := by
  cases hl with
  | @top m hm =>
    cases hl' with
    | @top m' hm' => rw [eq_of_name_eq hm hm' hname]
    | @inside via' p' m' d' hp' _ hm' =>
      rw [Location.key, Location.key, key_of_mem_dataOf hm, key_of_mem_dataOf hm', ← hname] at hk
      have hstems := keyOf_injective hstem (hp'.isIdentifier hstem) hk
      exact absurd (hp'.length_lt hstem) (by rw [hstems]; exact Nat.lt_irrefl _)
  | @inside via p m d hp ho hm =>
    cases hl' with
    | @top m' hm' =>
      rw [Location.key, Location.key, key_of_mem_dataOf hm, key_of_mem_dataOf hm', hname] at hk
      have hstems := keyOf_injective (hp.isIdentifier hstem) hstem hk
      exact absurd (hp.length_lt hstem) (by rw [← hstems]; exact Nat.lt_irrefl _)
    | @inside via' p' m' d' hp' ho' hm' =>
      rw [Location.key, Location.key, key_of_mem_dataOf hm, key_of_mem_dataOf hm', ← hname] at hk
      have hparent : (⟨via, p⟩ : Location) = ⟨via', p'⟩ :=
        List.inj_on_of_nodup_map hn (hf via p rfl) (hf' via' p' rfl)
          (keyOf_injective (hp.isIdentifier hstem) (hp'.isIdentifier hstem) hk)
      obtain ⟨rfl, rfl⟩ := Location.mk.inj hparent
      rw [ho] at ho'
      obtain rfl := Option.some.inj ho'
      rw [eq_of_name_eq hm hm' hname]

/-- If owners of one key are written alike and the class is unambiguous, the walk visits all paths:
    a path that it passed over would be the one that has its key. -/
theorem Reached.mem_trace
    (hw : DepthFirst Location.key (Location.inner r c.id) [] (paths [] (dataOf r c stem)) tr)
    (hun : Unambiguous r c stem)
    (howner : ∀ l l', Reached r c stem l → Reached r c stem l' → Follows tr l → Follows tr l' →
      l.key = l'.key → l.member.claimOwner = l'.member.claimOwner)
    (h : Reached r c stem l) : l ∈ tr := by
  have visited : ∀ l, Reached r c stem l → Follows tr l → l.key ∈ tr.map Location.key → l ∈ tr := by
    intro l hl hf hk
    obtain ⟨p, hp, hpk⟩ := List.mem_map.1 hk
    have hpr : Reached r c stem p := reached_of_mem_trace hw hp
    have hpf := follows_of_mem_trace hw hp
    have hname := hun p l hpr hl hpk (howner p l hpr hl hpf hf hpk)
    rw [← hpr.eq_of_key hstem hw.keys.1 hl hpf hf hpk hname]
    exact hp
  obtain ⟨hfirst, hnext⟩ := hw.met
  simp only [List.append_nil] at hfirst hnext
  induction h with
  | @top m hm hf =>
    refine visited _ (.top hm hf) (fun v p hv => ?_) (hfirst _ (mem_paths.2 ⟨rfl, hm, hf⟩))
    simp at hv
  | @inside via m x d h ho hx hf ih =>
    refine visited _ (.inside h ho hx hf) (fun v p hv => ?_)
      (hnext _ ih _ (mem_inner.2 ⟨rfl, hf, d, ho, hx⟩))
    obtain ⟨rfl, hp⟩ := List.append_inj' hv rfl
    rw [← List.singleton_inj.1 hp]
    exact ih

end

/-! ## Names without dots -/

/-- The data features among what belongs to an element. -/
def ownedFeatures (o : Owned) : List Feature :=
  o.attributes.map Feature.attribute ++ o.ends.map Feature.associationEnd

section
variable {r : Registry} {c : Classifier} {stem : String}

theorem feature_of_mem_dataOf {m : Member} (h : m ∈ dataOf r c stem) :
    ∃ id, m.feature ∈ ownedFeatures (r.owned id) := by
  obtain ⟨d, f, hd, hf, rfl⟩ := mem_membersOf_flatten.1 (mem_dataOf.1 h)
  have hmem : d ∈ declarations r c := by
    rw [← map_fst_firstWins [] (declarations r c)]
    exact List.mem_map.2 ⟨_, hd, rfl⟩
  obtain ⟨a, -, hda⟩ := List.mem_flatMap.1 hmem
  refine ⟨a.classifier.id, ?_⟩
  simp only [Ancestor.declarations, List.mem_map, List.mem_append] at hda
  obtain ⟨x, (⟨y, hy, rfl⟩ | ⟨y, hy, rfl⟩) | ⟨y, hy, rfl⟩, rfl⟩ := hda
  · cases hf
    exact List.mem_append_left _ (List.mem_map_of_mem hy)
  · cases hf
    exact List.mem_append_right _ (List.mem_map_of_mem hy)
  · cases hf

theorem suffix_of_no_dot {a a' n n' : String} (hn : '.' ∉ n.toList) (hn' : '.' ∉ n'.toList)
    (h : a ++ "." ++ n = a' ++ "." ++ n') : n = n' := by
  have read : ∀ a n : String, '.' ∉ n.toList →
      (a ++ "." ++ n).toList.reverse.takeWhile (· != '.') = n.toList.reverse := by
    intro a n hn
    rw [String.toList_append, String.toList_append, List.reverse_append, List.reverse_append,
      List.takeWhile_append_of_pos]
    · simp
    · intro x hx
      rw [List.mem_reverse] at hx
      exact bne_iff_ne.2 fun he => hn (he ▸ hx)
  have hr := read a n hn
  rw [h, read a' n' hn'] at hr
  exact (String.toList_inj.1 (List.reverse_injective hr)).symm

/-- A class is unambiguous if no feature of the registry has a dot in its name. -/
theorem unambiguous_of_names (c : Classifier) (stem : String)
    (h : ∀ e ∈ r.links.entries, ∀ f ∈ ownedFeatures e.2, '.' ∉ f.name.toList) :
    Unambiguous r c stem := by
  have owned : ∀ id, ∀ f ∈ ownedFeatures (r.owned id), '.' ∉ f.name.toList := by
    intro id f hf
    rw [Registry.owned, Links.of] at hf
    cases ho : r.links.entries.lookup id with
    | none => rw [ho] at hf; cases hf
    | some o =>
      rw [ho] at hf
      obtain ⟨l₁, l₂, hl, -⟩ := List.lookup_eq_some_iff.1 ho
      exact h (id, o) (by simp [hl]) f hf
  have noDot : ∀ l, Reached r c stem l → '.' ∉ l.member.name.toList := by
    intro l hl
    cases hl with
    | top hm =>
      obtain ⟨id, hf⟩ := feature_of_mem_dataOf hm
      exact owned id _ hf
    | inside _ _ hx =>
      obtain ⟨id, hf⟩ := feature_of_mem_dataOf hx
      exact owned id _ hf
  intro l l' hl hl' _ ho
  exact suffix_of_no_dot (noDot l hl) (noDot l' hl') ho

end

/-! ## Paths and ids -/

section
variable {r : Registry} {stems : Stems} {c : Classifier} {t t' : IdTable} {l l' : Location}

/-- Once all claims of an unambiguous class are granted, its walk has visited all paths. -/
theorem Reached.mem_trace_of_granted {tr : List Location} (hstem : IsIdentifier stems.feature)
    (hgranted : t.Granted t' c.id (classClaims r stems c)) (hun : Unambiguous r c stems.feature)
    (hw : DepthFirst Location.key (Location.inner r c.id) []
      (paths [] (dataOf r c stems.feature)) tr)
    (hclaims : ∀ l, Reached r c stems.feature l → Follows tr l →
      (l.key, l.member.claimOwner) ∈ classClaims r stems c)
    (h : Reached r c stems.feature l) : l ∈ tr := by
  refine h.mem_trace hstem hw hun fun x y hx hy hfx hfy hk => ?_
  have hox := hclaims x hx hfx
  have hoy := hclaims y hy hfy
  rw [hk] at hox
  exact hgranted.owner_eq hox hoy (claimOwner_ne_empty _) (claimOwner_ne_empty _)

theorem exists_complete_trace (hstem : IsIdentifier stems.feature)
    (hgranted : t.Granted t' c.id (classClaims r stems c))
    (hun : Unambiguous r c stems.feature) :
    ∃ tr : List Location, (tr.map Location.key).Nodup ∧
      (Plan.of r stems c).survey.locations = tr.filter (fun l => !l.member.isNested) ∧
      ∀ l, Reached r c stems.feature l →
        l ∈ tr ∧ (l.key, l.member.claimOwner) ∈ classClaims r stems c := by
  obtain ⟨tr, hw, hlocations, hclaims⟩ := Plan.depthFirst r stems c
  refine ⟨tr, hw.keys.1, hlocations, fun l hl => ?_⟩
  have hmem : l ∈ tr := hl.mem_trace_of_granted hstem hgranted hun hw hclaims
  exact ⟨hmem, hclaims l hl (follows_of_mem_trace hw hmem)⟩

end

/-- **Member paths and their ids.** If a simulation object is lowered, whatever was lowered or
    claimed before, its paths have keys of their own exactly if it is unambiguous; an unambiguous
    one then has all its paths among the locations, and different ids for different paths.  An
    unambiguous one with two paths of one key is not lowered: the answer is a collision. -/
theorem lowerClass_paths_distinct {r : Registry} {hash : String → UInt64} {ops : List IdOperation}
    {feature state : String} {stems : Stems} {c : Classifier}
    (hs : stems = .ofTexts feature state) (hf : family r c = .simObject) :
    (∀ t u, lowerClass r stems (.run { hash } ops) c = (t, .ok u) →
      (KeysDistinct r c stems.feature ↔ Unambiguous r c stems.feature) ∧
      (Unambiguous r c stems.feature →
        (∀ l, Reached r c stems.feature l → l.member.isNested = false →
          l ∈ (Plan.of r stems c).survey.locations) ∧
        ∀ l l', Reached r c stems.feature l → Reached r c stems.feature l' → l.names ≠ l'.names →
          ∃ e ∈ u.ids, ∃ e' ∈ u.ids, e.key = l.key ∧ e'.key = l'.key ∧ e.id ≠ e'.id)) ∧
    (Unambiguous r c stems.feature → ¬ KeysDistinct r c stems.feature →
      ∃ t e, lowerClass r stems (.run { hash } ops) c = (t, .error e)) := by
  have hstem : IsIdentifier stems.feature := hs ▸ (isIdentifier_ofTexts feature state).1
  have hvalid := (IdTable.valid_empty hash).run ops
  have distinct : ∀ t u, lowerClass r stems (.run { hash } ops) c = (t, .ok u) →
      Unambiguous r c stems.feature → KeysDistinct r c stems.feature := by
    intro t u hl hun l l' hr hr' hk
    obtain ⟨-, hgranted⟩ := lowerClass_ok hf hvalid hl
    obtain ⟨tr, hkeys, -, hall⟩ := exists_complete_trace hstem hgranted hun
    rw [List.inj_on_of_nodup_map hkeys (hall l hr).1 (hall l' hr').1 hk]
  refine ⟨fun t u hl => ⟨⟨fun h => h.unambiguous, distinct t u hl⟩, fun hun => ⟨?_, ?_⟩⟩, ?_⟩
  · obtain ⟨-, hgranted⟩ := lowerClass_ok hf hvalid hl
    obtain ⟨tr, -, hlocations, hall⟩ := exists_complete_trace hstem hgranted hun
    intro l hr hn
    rw [hlocations]
    exact List.mem_filter.2 ⟨(hall l hr).1, by simp [hn]⟩
  · intro l l' hr hr' hne
    obtain ⟨hu, hgranted⟩ := lowerClass_ok hf hvalid hl
    obtain ⟨tr, -, -, hall⟩ := exists_complete_trace hstem hgranted hun
    have he := hgranted.listed _ (hall l hr).2
    have he' := hgranted.listed _ (hall l' hr').2
    have hids : u.ids = (t.scopeAt c.id).entries := by rw [hu, ← IdTable.entries_eq]; rfl
    rw [hids]
    refine ⟨_, he, _, he', rfl, rfl, fun hid => hne ?_⟩
    have hindex := hgranted.valid.index c.id _ he
    rw [hid, hgranted.valid.index c.id _ he'] at hindex
    exact distinct t u hl hun l l' hr hr' (Option.some.inj hindex).symm
  · intro hun hnot
    rcases lowerClass_cases hf stems (.run { hash } ops) with
      ⟨t, n, -, hok⟩ | ⟨t, n, claimant, collision, -, herr⟩
    · exact absurd (distinct t _ hok hun) hnot
    · exact ⟨t, _, herr⟩

theorem ship_paths_distinct :
    family harbour ship = .simObject ∧
    Unambiguous harbour ship (Stems.ofTexts "" "").feature ∧
    ∃ t u, lowerClass harbour (.ofTexts "" "") (.run { hash := Digest.XxHash.hash } []) ship =
      (t, .ok u) ∧ KeysDistinct harbour ship (Stems.ofTexts "" "").feature := by
  have hf : family harbour ship = .simObject := by decide +kernel
  have hun := unambiguous_of_names (r := harbour) ship (Stems.ofTexts "" "").feature
    (by decide +kernel)
  obtain ⟨t, u, hl⟩ := lowerClass_of_granted hf ship_granted
  exact ⟨hf, hun, t, u, hl, ((lowerClass_paths_distinct rfl hf).1 t u hl).1.2 hun⟩

/-! A motor with a port, whose type has a qualified name, and a speed named like that of the port.
    The owner of both speeds is written `Motor.Port.Speed`. -/

def motor : Classifier := { id := "motor", name := "Motor", stereotype := "SimObject" }

def motorPort : Classifier := { id := "port", name := "Motor.Port", kind := .dataType }

def workshop : Registry := Registry.prepare { elements := [
  .classifier motor,
  .classifier motorPort,
  .attribute { id := "p", name := "port", parent := "motor", typed := { type := "port" } },
  .attribute { id := "q", name := "Port.Speed", parent := "motor", typed := { typeName := "int" } },
  .attribute { id := "s", name := "Speed", parent := "port", typed := { typeName := "int" } }] }

/-- The motor is lowered although two of its paths have one key, and one of them is lost. -/
theorem motor_paths_share_key :
    (∃ t u, lowerClass workshop (.ofTexts "" "") (.run { hash := Digest.XxHash.hash } []) motor =
      (t, .ok u)) ∧
    ¬ KeysDistinct workshop motor (Stems.ofTexts "" "").feature ∧
    ∃ l, Reached workshop motor (Stems.ofTexts "" "").feature l ∧ l.member.isNested = false ∧
      l ∉ (Plan.of workshop (.ofTexts "" "") motor).survey.locations := by
  have hf : family workshop motor = .simObject := by decide +kernel
  have hgranted : (((IdTable.run { hash := Digest.XxHash.hash } []).withScope motor.id).claimAll
      motor.id (classClaims workshop (.ofTexts "" "") motor)).2.2 = none := by decide +kernel
  obtain ⟨p, hp, hpf, ho, s, hs, hsf, q, hq, hqf, hqn, hk, hne, hlost⟩ :
      ∃ p ∈ dataOf workshop motor (Stems.ofTexts "" "").feature, p.isForeign = false ∧
        opened motor.id [] p = some motorPort ∧
        ∃ s ∈ dataOf workshop motorPort p.key, s.isForeign = false ∧
        ∃ q ∈ dataOf workshop motor (Stems.ofTexts "" "").feature, q.isForeign = false ∧
          q.isNested = false ∧ q.key = s.key ∧ [q.name] ≠ [p.name, s.name] ∧
          (⟨[], q⟩ : Location) ∉ (Plan.of workshop (.ofTexts "" "") motor).survey.locations := by
    decide +kernel
  refine ⟨lowerClass_of_granted hf hgranted, fun h => hne ?_, ⟨[], q⟩, .top hq hqf, hqn, hlost⟩
  exact h ⟨[], q⟩ ⟨[p], s⟩ (.top hq hqf) (.inside (.top hp hpf) ho hs hsf) hk

end ObjectLowering.Lowering
