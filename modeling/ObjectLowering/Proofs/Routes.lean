/-
  The way on which a classifier inherits a member.

  A route leads from a classifier over bases and imported suppliers, and
  through no classifier twice.  Routes are ordered by where they part: the one
  that takes an earlier parent there comes first (`Earlier`).

  * `exists_first_of_search`: a depth-first search meets every classifier on
    the first of all routes to it.
  * So a member is foreign iff the first route to its owner leads through
    another family (`member_provenance`).  This is not to say that no route
    stays in the family: one that does may come later (`body_width_lost`).
-/
import ObjectLowering.Proofs.Collecting
import ObjectLowering.Proofs.Locations

namespace ObjectLowering.Lowering

open Model Code

/-! ## Routes -/

/-- What a classifier inherits from directly, in order: its bases, and the suppliers of a given
    family that it imports. -/
def parents (r : Registry) (root : Family) (x : Classifier) : List Classifier :=
  r.bases x.id ++ ((r.owned x.id).dependencies.filter (·.isImport)).filterMap fun d =>
    (r.classifier? d.supplier).filter fun s => family r s == root

/-- A list of classifiers that begins with one of `xs` and goes on with a parent each time. -/
def Ascends (r : Registry) (root : Family) : List Classifier → List Classifier → Prop
  | _, [] => True
  | xs, y :: p => y ∈ xs ∧ Ascends r root (parents r root y) p

/-- Where two lists part, the first has the classifier that stands earlier: among `xs` at the
    beginning, among the parents of the last common one later on. -/
def Earlier (r : Registry) (root : Family) :
    List Classifier → List Classifier → List Classifier → Prop
  | xs, y :: p, z :: q =>
    xs.idxOf y < xs.idxOf z ∨ y = z ∧ Earlier r root (parents r root y) p q
  | _, _, _ => False

/-- A route from one of `xs` to `z` that avoids some ids. -/
structure Route (r : Registry) (root : Family) (avoided : List String) (xs : List Classifier)
    (z : Classifier) (p : List Classifier) : Prop where
  ascends : Ascends r root xs p
  last : p.getLast? = some z
  nodup : (p.map (·.id)).Nodup
  avoids : ∀ x ∈ p, x.id ∉ avoided

/-- No route comes earlier. -/
structure FirstRoute (r : Registry) (root : Family) (avoided : List String) (xs : List Classifier)
    (z : Classifier) (p : List Classifier) : Prop extends Route r root avoided xs z p where
  first : ∀ q, Route r root avoided xs z q → ¬ Earlier r root xs q p

section
variable {r : Registry} {root : Family} {avoided : List String} {xs : List Classifier}
  {x y z : Classifier} {p q : List Classifier}

theorem next_classifiers (root : Family) (a : Ancestor) :
    (a.next r root).map (·.classifier) = parents r root a.classifier := by
  simp [Ancestor.next, parents, List.map_map, Function.comp_def]

theorem mem_parents : y ∈ parents r root x ↔ Inherits r root x y := by
  rw [← exists_mem_next (a := ⟨x, false⟩), ← next_classifiers root ⟨x, false⟩, List.mem_map]

/-- Two routes to one classifier are the same, or one is earlier. -/
theorem Route.trichotomy (hp : Route r root avoided xs z p) (hq : Route r root avoided xs z q) :
    p = q ∨ Earlier r root xs p q ∨ Earlier r root xs q p := by
  induction p generalizing xs q with
  | nil => cases hp.last
  | cons x p ih =>
    cases q with
    | nil => cases hq.last
    | cons y q =>
      obtain ⟨hx, hpa⟩ := hp.ascends
      obtain ⟨hy, hqa⟩ := hq.ascends
      by_cases hxy : x = y
      · subst hxy
        have hpn := List.nodup_cons.1 hp.nodup
        have hqn := List.nodup_cons.1 hq.nodup
        have hlast := hp.last
        have hlast' := hq.last
        -- a route that ends goes through its end once
        cases p with
        | nil =>
          cases q with
          | nil => exact Or.inl rfl
          | cons y' q =>
            obtain rfl : x = z := by simpa using hlast
            rw [List.getLast?_cons_cons] at hlast'
            exact absurd (List.mem_map_of_mem (List.mem_of_getLast? hlast')) hqn.1
        | cons x' p =>
          cases q with
          | nil =>
            obtain rfl : x = z := by simpa using hlast'
            rw [List.getLast?_cons_cons] at hlast
            exact absurd (List.mem_map_of_mem (List.mem_of_getLast? hlast)) hpn.1
          | cons y' q =>
            rw [List.getLast?_cons_cons] at hlast hlast'
            have hp' : Route r root avoided (parents r root x) z (x' :: p) :=
              ⟨hpa, hlast, hpn.2, fun w hw => hp.avoids w (List.mem_cons_of_mem _ hw)⟩
            have hq' : Route r root avoided (parents r root x) z (y' :: q) :=
              ⟨hqa, hlast', hqn.2, fun w hw => hq.avoids w (List.mem_cons_of_mem _ hw)⟩
            rcases ih hp' hq' with he | he | he
            · exact Or.inl (by rw [he])
            · exact Or.inr (Or.inl (Or.inr ⟨rfl, he⟩))
            · exact Or.inr (Or.inr (Or.inr ⟨rfl, he⟩))
      · have hne : xs.idxOf x ≠ xs.idxOf y := fun he => hxy ((List.idxOf_inj hx).1 he)
        rcases Nat.lt_or_gt_of_ne hne with hlt | hlt
        · exact Or.inr (Or.inl (Or.inl hlt))
        · exact Or.inr (Or.inr (Or.inl hlt))

/-- **There is one first route at most.** -/
theorem FirstRoute.unique (hp : FirstRoute r root avoided xs z p)
    (hq : FirstRoute r root avoided xs z q) : p = q := by
  rcases hp.toRoute.trichotomy hq.toRoute with h | h | h
  · exact h
  · exact absurd h (hq.first p hp.toRoute)
  · exact absurd h (hp.first q hq.toRoute)

end

/-! ## The search -/

section
variable {r : Registry} {root : Family} {avoided seen : List String} {xs : List Classifier}
  {x y z : Classifier} {p q : List Classifier}

/-- The classifier is the one of its id. -/
def Known (r : Registry) (x : Classifier) : Prop := r.classifier? x.id = some x

theorem known_of_mem_parents (h : y ∈ parents r root x) : Known r y :=
  (mem_parents.1 h).classifier?_eq

theorem Known.eq_of_id (hx : Known r x) (hy : Known r y) (h : x.id = y.id) : x = y := by
  rw [Known, h] at hx
  exact Option.some.inj (hx.symm.trans hy)

/-- All that was met leads to what was met, apart from what is to be avoided. -/
def Closed (r : Registry) (root : Family) (avoided seen : List String) : Prop :=
  ∀ x, Known r x → x.id ∈ seen → x.id ∉ avoided → ∀ y ∈ parents r root x, y.id ∈ seen

/-- A route that begins where the search was ends where the search was. -/
theorem Closed.last_seen (h : Closed r root avoided seen) (hx : Known r x) (hs : x.id ∈ seen)
    (ha : Ascends r root (parents r root x) p) (havoids : ∀ y ∈ x :: p, y.id ∉ avoided)
    (hz : (x :: p).getLast? = some z) : z.id ∈ seen := by
  induction p generalizing x with
  | nil =>
    obtain rfl : x = z := by simpa using hz
    exact hs
  | cons y p ih =>
    obtain ⟨hy, ha⟩ := ha
    rw [List.getLast?_cons_cons] at hz
    exact ih (known_of_mem_parents hy) (h x hx hs (havoids x (by simp)) y hy) ha
      (fun w hw => havoids w (List.mem_cons_of_mem _ hw)) hz

theorem Route.tail (h : Route r root avoided (x :: xs) z (y :: p)) (hne : y ≠ x) :
    Route r root avoided xs z (y :: p) :=
  { h with ascends := ⟨(List.mem_cons.1 h.ascends.1).resolve_left hne, h.ascends.2⟩ }

theorem Earlier.tail (h : Earlier r root (x :: xs) (y :: p) (z :: q)) (hy : y ≠ x) (hz : z ≠ x) :
    Earlier r root xs (y :: p) (z :: q) := by
  rcases h with h | h
  · rw [List.idxOf_cons_ne _ hy.symm, List.idxOf_cons_ne _ hz.symm] at h
    exact Or.inl (by omega)
  · exact Or.inr h

/-- A first route is one from more classifiers, if the new one in front was met and the end was
    not. -/
theorem FirstRoute.cons (hclosed : Closed r root avoided seen) (hx : Known r x)
    (hs : x.id ∈ seen) (hz : z.id ∉ seen) (hp : FirstRoute r root avoided xs z p) :
    FirstRoute r root avoided (x :: xs) z p := by
  -- no route to the end begins with the new one
  have hhead : ∀ q, Ascends r root (x :: xs) q ∨ Ascends r root xs q →
      q.getLast? = some z → (∀ y ∈ q, y.id ∉ avoided) → ∃ y q', q = y :: q' ∧ y ≠ x := by
    intro q ha hlast havoids
    cases q with
    | nil => cases hlast
    | cons y q =>
      refine ⟨y, q, rfl, ?_⟩
      rintro rfl
      have ha : Ascends r root (parents r root y) q := by rcases ha with ha | ha <;> exact ha.2
      exact hz (hclosed.last_seen hx hs ha havoids hlast)
  obtain ⟨y, p, rfl, hy⟩ := hhead p (Or.inr hp.ascends) hp.last hp.avoids
  refine ⟨⟨⟨List.mem_cons_of_mem _ hp.ascends.1, hp.ascends.2⟩, hp.last, hp.nodup, hp.avoids⟩,
    fun q hq he => ?_⟩
  obtain ⟨w, q, rfl, hw⟩ := hhead q (Or.inl hq.ascends) hq.last hq.avoids
  exact hp.first _ (hq.tail hw) (he.tail hw hy)

/-- A first route from the parents of `x` is one from `x` and others behind it. -/
theorem FirstRoute.up (hx : x.id ∉ avoided)
    (hp : FirstRoute r root (x.id :: avoided) (parents r root x) z p) :
    FirstRoute r root avoided (x :: xs) z (x :: p) := by
  have hne : p ≠ [] := by
    rintro rfl
    cases hp.last
  obtain ⟨y, p, rfl⟩ := List.exists_cons_of_ne_nil hne
  refine ⟨⟨⟨List.mem_cons_self, hp.ascends⟩, ?_, List.nodup_cons.2 ⟨fun hm => ?_, hp.nodup⟩, ?_⟩,
    fun q hq he => ?_⟩
  · rw [List.getLast?_cons_cons]
    exact hp.last
  · obtain ⟨w, hw, hid⟩ := List.mem_map.1 hm
    exact hp.avoids w hw (by simp [hid])
  · intro w hw
    rcases List.mem_cons.1 hw with rfl | hw
    · exact hx
    · exact fun hm => hp.avoids w hw (List.mem_cons_of_mem _ hm)
  · cases q with
    | nil => cases hq.last
    | cons w q =>
      rcases he with he | ⟨rfl, he⟩
      · simp at he
      · cases q with
        | nil => exact he
        | cons w' q =>
          have hn := List.nodup_cons.1 hq.nodup
          have hlast := hq.last
          rw [List.getLast?_cons_cons] at hlast
          refine hp.first _ ⟨hq.ascends.2, hlast, hn.2, fun v hv hm => ?_⟩ he
          rcases List.mem_cons.1 hm with hid | hm
          · exact hn.1 (List.mem_map.2 ⟨v, hv, hid⟩)
          · exact hq.avoids v (List.mem_cons_of_mem _ hv) hm

theorem firstRoute_self (hx : x.id ∉ avoided) : FirstRoute r root avoided (x :: xs) x [x] := by
  refine ⟨⟨⟨List.mem_cons_self, trivial⟩, rfl, List.nodup_singleton _, by simpa using hx⟩,
    fun q hq he => ?_⟩
  cases q with
  | nil => cases hq.last
  | cons w q =>
    rcases he with he | ⟨rfl, he⟩
    · simp at he
    · cases q <;> exact he

/-- A parent is foreign if the child is, or if it is of another family itself. -/
theorem isForeign_of_mem_next {a b : Ancestor} (h : b ∈ a.next r root) :
    b.isForeign = (a.isForeign || family r b.classifier != root) := by
  rw [Ancestor.next, List.mem_append] at h
  rcases h with h | h
  · obtain ⟨x, -, rfl⟩ := List.mem_map.1 h
    rfl
  · obtain ⟨x, hx, rfl⟩ := List.mem_map.1 h
    obtain ⟨d, -, hd⟩ := List.mem_filterMap.1 hx
    have hf := (Option.filter_eq_some_iff.1 hd).2
    simp [beq_iff_eq.1 hf]

/-- A search of the parents of a classifier closes what was met: the classifier and all that the
    search met lead to what is met now. -/
theorem Closed.search {a : Ancestor} {out : List Ancestor} (h : Closed r root avoided seen)
    (ha : Known r a.classifier)
    (hsearch : DepthFirst (fun a : Ancestor => a.classifier.id) (Ancestor.next r root)
      (a.classifier.id :: seen) (a.next r root) out) :
    Closed r root avoided (out.map (fun a => a.classifier.id) ++ a.classifier.id :: seen) := by
  have hmet := hsearch.met
  have hknown : ∀ b ∈ out, Known r b.classifier := hsearch.forall_mem
    (P := fun b => Known r b.classifier)
    (fun b hb => known_of_mem_parents (next_classifiers root a ▸ List.mem_map_of_mem hb))
    (fun b _ d hd => known_of_mem_parents (next_classifiers root b ▸ List.mem_map_of_mem hd))
  intro y hy hs hna z hz
  have expand : ∀ b : Ancestor, b.classifier = y →
      (∀ d ∈ b.next r root, d.classifier.id ∈
        out.map (fun a => a.classifier.id) ++ a.classifier.id :: seen) →
      z.id ∈ out.map (fun a => a.classifier.id) ++ a.classifier.id :: seen := by
    intro b hb hall
    rw [← hb, ← next_classifiers] at hz
    obtain ⟨d, hd, rfl⟩ := List.mem_map.1 hz
    exact hall d hd
  rcases List.mem_append.1 hs with hs | hs
  · obtain ⟨b, hb, hid⟩ := List.mem_map.1 hs
    exact expand b ((hknown b hb).eq_of_id hy hid) (hmet.2 b hb)
  · rcases List.mem_cons.1 hs with hs | hs
    · exact expand a (ha.eq_of_id hy hs.symm) hmet.1
    · exact List.mem_append_right _ (List.mem_cons_of_mem _ (h y hy hs hna z hz))

/-- **A depth-first search meets every classifier on the first route to it**, and marks it foreign
    if the route leads through another family.

    The search keeps away from the ids on its way, `avoided`; all other ids that it has met lead to
    ids that it has met. -/
theorem exists_first_of_search {todo out : List Ancestor} {f : Bool}
    (h : DepthFirst (fun a : Ancestor => a.classifier.id) (Ancestor.next r root) seen todo out)
    (hknown : ∀ a ∈ todo, Known r a.classifier) (havoided : avoided ⊆ seen)
    (hclosed : Closed r root avoided seen)
    (hforeign : ∀ a ∈ todo, a.isForeign = (f || family r a.classifier != root)) :
    ∀ a ∈ out, ∃ p, FirstRoute r root avoided (todo.map (·.classifier)) a.classifier p ∧
      a.isForeign = (f || p.any fun x => family r x != root) := by
  induction h generalizing avoided f with
  | nil => simp
  | @skip seen x todo out hx hsearch ih =>
    intro a ha
    obtain ⟨p, hp, hflag⟩ := ih (fun b hb => hknown b (List.mem_cons_of_mem _ hb)) havoided hclosed
      (fun b hb => hforeign b (List.mem_cons_of_mem _ hb)) a ha
    have hnew : a.classifier.id ∉ seen := hsearch.keys.2 _ (List.mem_map.2 ⟨a, ha, rfl⟩)
    exact ⟨p, hp.cons hclosed (hknown x List.mem_cons_self) hx hnew, hflag⟩
  | @visit seen x todo out₁ out₂ hx hin hsearch ih₁ ih₂ =>
    have hxk := hknown x List.mem_cons_self
    have hxf := hforeign x List.mem_cons_self
    have hxa : x.classifier.id ∉ avoided := fun hm => hx (havoided hm)
    intro a ha
    rcases List.mem_cons.1 ha with rfl | ha
    · exact ⟨[a.classifier], firstRoute_self hxa, by simp [hxf]⟩
    rcases List.mem_append.1 ha with ha | ha
    · obtain ⟨p, hp, hflag⟩ := @ih₁ (x.classifier.id :: avoided) x.isForeign
        (fun b hb => known_of_mem_parents (by
          rw [← next_classifiers]
          exact List.mem_map_of_mem hb))
        (List.cons_subset_cons _ havoided)
        (fun y hy hs hna z hz => by
          simp only [List.mem_cons, not_or] at hs hna ⊢
          exact Or.inr (hclosed y hy (hs.resolve_left hna.1) hna.2 z hz))
        (fun b hb => isForeign_of_mem_next hb) a ha
      rw [next_classifiers] at hp
      refine ⟨x.classifier :: p, hp.up hxa, ?_⟩
      rw [hflag, hxf, List.any_cons, Bool.or_assoc]
    · have hclosed' := hclosed.search hxk hin
      obtain ⟨p, hp, hflag⟩ := ih₂ (fun b hb => hknown b (List.mem_cons_of_mem _ hb))
        (fun k hk => List.mem_append_right _ (List.mem_cons_of_mem _ (havoided hk))) hclosed'
        (fun b hb => hforeign b (List.mem_cons_of_mem _ hb)) a ha
      have hnew := hsearch.keys.2 _ (List.mem_map.2 ⟨a, ha, rfl⟩)
      exact ⟨p, hp.cons hclosed' hxk (by simp) hnew, hflag⟩

end

/-! ## Members -/

/-- The classifier is reached from `c` over classifiers of its family only. -/
def InFamily (r : Registry) (c x : Classifier) : Prop :=
  Relation.ReflTransGen (fun x y => Inherits r (family r c) x y ∧ family r y = family r c) c x

section
variable {r : Registry} {c y z : Classifier} {stem : String} {m : Member} {p : List Classifier}

theorem exists_ancestor_of_mem_dataOf (h : m ∈ dataOf r c stem) :
    ∃ a ∈ ancestry r c, m.owner = a.classifier ∧ m.isForeign = a.isForeign := by
  obtain ⟨d, f, hd, -, rfl⟩ := mem_membersOf_flatten.1 (mem_dataOf.1 h)
  obtain ⟨a, ha, hda⟩ := List.mem_flatMap.1 (mem_declarations_of_mem_firstWins hd)
  obtain ⟨x, -, rfl⟩ := List.mem_map.1 hda
  exact ⟨a, ha, rfl, rfl⟩

theorem inFamily_of_ascends (hy : InFamily r c y)
    (ha : Ascends r (family r c) (parents r (family r c) y) p)
    (hp : ∀ x ∈ p, family r x = family r c) (hz : (y :: p).getLast? = some z) :
    InFamily r c z := by
  induction p generalizing y with
  | nil =>
    obtain rfl : y = z := by simpa using hz
    exact hy
  | cons x p ih =>
    rw [List.getLast?_cons_cons] at hz
    have hx : InFamily r c x := hy.tail ⟨mem_parents.1 ha.1, hp x List.mem_cons_self⟩
    exact ih hx ha.2 (fun w hw => hp w (List.mem_cons_of_mem _ hw)) hz

end

/-- How a classifier `c` comes by a member `m`: on the route `p`. -/
structure Provenance (r : Registry) (stems : Stems) (c : Classifier) (m : Member)
    (p : List Classifier) : Prop where
  /-- No route from `c` to the owner comes earlier. -/
  first : FirstRoute r (family r c) [] [c] m.owner p
  only : ∀ q, FirstRoute r (family r c) [] [c] m.owner q → q = p
  /-- The member is foreign iff this route leads through another family. -/
  foreign : m.isForeign = true ↔ ∃ x ∈ p, family r x ≠ family r c
  /-- If it is not, some route stays in the family. -/
  family : m.isForeign = false → InFamily r c m.owner
  /-- The converse holds iff the first route stays in the family whenever some route does. -/
  converse : (m.isForeign = true ↔ ¬ InFamily r c m.owner) ↔
    (InFamily r c m.owner → ∀ x ∈ p, Lowering.family r x = Lowering.family r c)
  /-- If the class is lowered and unambiguous, its accessors have a case for the member iff it is
      not foreign, nested structs apart. -/
  accessors : ∀ {hash : String → UInt64} {ops : List IdOperation} {feature state : String}
    {t : IdTable} {u : CodeUnit}, stems = .ofTexts feature state →
    Lowering.family r c = .simObject →
    lowerClass r stems (.run { hash } ops) c = (t, .ok u) → Unambiguous r c stems.feature →
    m.isNested = false →
    ((∃ a : Accessor, (⟨[], m⟩ : Location) ∈ a.locations (Plan.of r stems c).survey.locations) ↔
      m.isForeign = false)

/-- **Where members come from.** A member of a classifier is foreign iff the first of all routes to
    its owner leads through another family. -/
theorem member_provenance {r : Registry} {stems : Stems} {c : Classifier} {m : Member}
    (hc : Known r c) (hm : m ∈ dataOf r c stems.feature) : ∃ p, Provenance r stems c m p := by
  obtain ⟨a, ha, howner, hflag⟩ := exists_ancestor_of_mem_dataOf hm
  obtain ⟨p, hp, hforeign⟩ := exists_first_of_search (f := false)
    (ancestry_depthFirst r c) (by simpa using hc) (List.Subset.refl [])
    (fun x _ hx => by simp at hx) (by simp) a ha
  rw [← hflag, Bool.false_or] at hforeign
  rw [← howner] at hp
  have hany : m.isForeign = true ↔ ∃ x ∈ p, family r x ≠ family r c := by
    rw [hforeign, List.any_eq_true]
    simp
  have hall : m.isForeign = false ↔ ∀ x ∈ p, family r x = family r c := by
    rw [← Bool.not_eq_true, hany]
    simp
  have hfamily : m.isForeign = false → InFamily r c m.owner := by
    intro hf
    have hlast := hp.last
    have hasc := hp.ascends
    cases p with
    | nil => cases hlast
    | cons y p =>
      obtain rfl : y = c := by simpa using hasc.1
      exact inFamily_of_ascends .refl hasc.2
        (fun x hx => hall.1 hf x (List.mem_cons_of_mem _ hx)) hlast
  refine ⟨p, {
    first := hp
    only := fun q hq => hq.unique hp
    foreign := hany
    family := hfamily
    converse := ?_
    accessors := fun hs hsim hl hun hn => ⟨?_, fun hf => ?_⟩ }⟩
  · constructor
    · intro h hin x hx
      have hf : m.isForeign = false := Bool.eq_false_iff.2 fun ht => h.1 ht hin
      exact hall.1 hf x hx
    · intro h
      refine ⟨fun ht hin => ?_, fun hnot => ?_⟩
      · simp [hall.2 (h hin)] at ht
      · cases hf : m.isForeign with
        | true => rfl
        | false => exact absurd (hfamily hf) hnot
  · rintro ⟨a, ha⟩
    have hreached := reached_of_mem_locations (List.mem_of_mem_filter ha)
    generalize hl : (⟨[], m⟩ : Location) = l at hreached
    cases hreached with
    | top _ hf =>
      obtain ⟨-, rfl⟩ := Location.mk.inj hl
      exact hf
    | inside => simp at hl
  · have hmem := ((lowerClass_paths_distinct hs hsim).1 _ _ hl).2 hun
    obtain ⟨a, ha⟩ := Accessor.exists_covers ⟨[], m⟩
    exact ⟨a, List.mem_filter.2 ⟨hmem.1 _ (.top hm hf) hn, ha⟩⟩

/-! A body has a frame and a shape as bases, and the shape, a plain class, imports the frame.  It
    makes a difference which base is named first. -/

def body : Classifier := { id := "body", name := "Body", stereotype := "SimObject" }

def frame : Classifier := { id := "frame", name := "Frame", stereotype := "SimObject" }

def shape : Classifier := { id := "shape", name := "Shape" }

/-- The body with its bases in a given order. -/
def bodyWith (first second : String) : Registry := Registry.prepare { elements := [
  .classifier body,
  .classifier shape,
  .classifier frame,
  .generalization { id := "g1", parent := "body", general := first },
  .generalization { id := "g2", parent := "body", general := second },
  .dependency { id := "d1", parent := "shape", stereotype := "Import", supplier := "frame" },
  .attribute { id := "b1", name := "mass", parent := "body", typed := { typeName := "double" } },
  .attribute { id := "s1", name := "area", parent := "shape", typed := { typeName := "double" } },
  .attribute
    { id := "f1", name := "width", parent := "frame", typed := { typeName := "double" } }] }

theorem body_width_kept :
    Known (bodyWith "frame" "shape") body ∧
    ∃ m ∈ dataOf (bodyWith "frame" "shape") body (Stems.ofTexts "" "").feature, m.name = "width" ∧
      m.isForeign = false ∧ InFamily (bodyWith "frame" "shape") body m.owner ∧
      (∃ p, FirstRoute (bodyWith "frame" "shape") (family (bodyWith "frame" "shape") body) [] [body]
        m.owner p) ∧
      (Plan.of (bodyWith "frame" "shape") (.ofTexts "" "") body).labels .getValue =
        ["ATTR_MASS", "ATTR_WIDTH"] := by
  have hc : Known (bodyWith "frame" "shape") body := by
    unfold Known
    decide +kernel
  obtain ⟨m, hm, hname, hf⟩ : ∃ m ∈ dataOf (bodyWith "frame" "shape") body
      (Stems.ofTexts "" "").feature, m.name = "width" ∧ m.isForeign = false := by decide +kernel
  obtain ⟨p, hp⟩ := member_provenance hc hm
  exact ⟨hc, m, hm, hname, hf, hp.family hf, ⟨p, hp.first⟩, by decide +kernel⟩

/-- With the shape first, the width is foreign although the frame is a base of the body and both are
    simulation objects; the accessors have no case for it. -/
theorem body_width_lost :
    (∃ m ∈ dataOf (bodyWith "shape" "frame") body (Stems.ofTexts "" "").feature, m.name = "width" ∧
      m.isForeign = true ∧ InFamily (bodyWith "shape" "frame") body m.owner) ∧
    (∃ t u, lowerClass (bodyWith "shape" "frame") (.ofTexts "" "")
      (.run { hash := Digest.XxHash.hash } []) body = (t, .ok u)) ∧
    (Plan.of (bodyWith "shape" "frame") (.ofTexts "" "") body).labels .getValue =
      ["ATTR_MASS"] := by
  have hf : family (bodyWith "shape" "frame") body = .simObject := by decide +kernel
  have hgranted : (((IdTable.run { hash := Digest.XxHash.hash } []).withScope body.id).claimAll
      body.id (classClaims (bodyWith "shape" "frame") (.ofTexts "" "") body)).2.2 = none := by
    decide +kernel
  obtain ⟨m, hm, hname, hforeign, howner⟩ : ∃ m ∈ dataOf (bodyWith "shape" "frame") body
      (Stems.ofTexts "" "").feature, m.name = "width" ∧ m.isForeign = true ∧ m.owner = frame := by
    decide +kernel
  have hparent : frame ∈ parents (bodyWith "shape" "frame")
      (family (bodyWith "shape" "frame") body) body := by decide +kernel
  have hfamily : family (bodyWith "shape" "frame") frame =
      family (bodyWith "shape" "frame") body := by
    decide +kernel
  refine ⟨⟨m, hm, hname, hforeign, ?_⟩, lowerClass_of_granted hf hgranted, by decide +kernel⟩
  rw [howner]
  exact .single ⟨mem_parents.1 hparent, hfamily⟩

end ObjectLowering.Lowering
