/-
  What a document stands for, place by place.

  A place is a node of the document or an entry of one of its short forms.
  Its address says how to get there from the top; its source is the text that
  an id is generated from, made of indices, kinds and names.  Names may hold
  any character, so a source does not show where its parts end; the indices in
  front of them do.

  * `Node.Holds.unique`: places with one source are one place.
  * `pairwise_places`: listing a node in front of its short forms, and these in
    front of its children, is listing addresses in lexicographic order.
  * `foldlM_addTo`: which entries can all be registered.
  * `registry_census`: what a document registers, and when it does.
-/
import ObjectLowering.Model.Document
import ObjectLowering.Proofs.Ownership
import ObjectLowering.Proofs.Stores

namespace ObjectLowering.Model

/-! ## Places -/

/-- The short forms of a node. -/
inductive Form where
  | extend
  | imports
  | activities
  | actions
deriving DecidableEq, Repr

namespace Form

/-- The short forms in the order of their elements. -/
def all : List Form := [extend, imports, activities, actions]

/-- The place of a form in this order. -/
def rank : Form → Nat
  | extend => 0
  | imports => 1
  | activities => 2
  | actions => 3

/-- The name of a form in the sources of ids. -/
def name : Form → String
  | extend => "extends"
  | imports => "imports"
  | activities => "do"
  | actions => "actions"

/-- The entries of a form. -/
def texts (n : NodeFields) : Form → List String
  | extend => n.extend
  | imports => n.imports
  | activities => n.activities
  | actions => n.actions

/-- The element that an entry of a form stands for. -/
def element (x : Identity) (text : String) : Form → Element
  | extend => .generalization { x with general := text, visibility := "public" }
  | imports => .dependency { x with supplier := text, stereotype := importStereotype }
  | activities => .action { x with body := text }
  | actions => .action { x with body := text }

end Form

/-- A step from a node: to an entry of a short form, or to a child. -/
inductive Step where
  | short (form : Form) (i : Nat)
  | child (i : Nat)
deriving DecidableEq, Repr

/-- Entries of short forms come before children. -/
inductive Step.Before : Step → Step → Prop where
  | entry {f : Form} {i j : Nat} (h : i < j) : Before (.short f i) (.short f j)
  | form {f g : Form} {i j : Nat} (h : f.rank < g.rank) : Before (.short f i) (.short g j)
  | short {f : Form} {i j : Nat} : Before (.short f i) (.child j)
  | child {i j : Nat} (h : i < j) : Before (.child i) (.child j)

/-- What stands at a place. -/
inductive Item where
  | node (fields : NodeFields)
  | short (form : Form) (text : String)

/-- A place of a document. -/
structure Place where
  /-- The steps from the top. -/
  address : List Step
  /-- The text that an id is generated from. -/
  source : String
  /-- The id of the node around it. -/
  owner : String
  item : Item

namespace Place

/-- The id that a document gives, if it gives one. -/
def explicitId? (p : Place) : Option String :=
  match p.item with
  | .node n => if n.id = "" then none else some n.id
  | .short _ _ => none

/-- The id of what stands at a place. -/
def id (p : Place) : String := p.explicitId?.getD (generatedId p.source)

/-- The element of a place. A node of unknown kind has none. -/
def element? (p : Place) : Option Element :=
  match p.item with
  | .node n => n.element? {
      id := p.id, name := n.name, parent := p.owner, stereotype := n.stereotype, tags := n.tags }
  | .short form text => some (form.element { id := p.id, parent := p.owner } text)

/-- A place that is reached by one step more at the front. -/
def under (step : Step) (p : Place) : Place := { p with address := step :: p.address }

/-- One place comes before another, depth first. -/
def Before (p q : Place) : Prop := List.Lex Step.Before p.address q.address

end Place

/-- A place at a node or inside, when the node stands at `position`. -/
inductive Node.Holds : (owner position : String) → Node → Place → Prop where
  | here {owner position : String} {n : NodeFields} {children : List Node} :
    Holds owner position (.mk n children) ⟨[], n.pathAt position, owner, .node n⟩
  | short {owner position : String} {n : NodeFields} {children : List Node} {form : Form} {i : Nat}
    {text : String} (h : (form.texts n)[i]? = some text) :
    Holds owner position (.mk n children)
      ⟨[.short form i], n.pathAt position ++ "/" ++ form.name ++ "/" ++ toString i,
        n.idAt (n.pathAt position), .short form text⟩
  | inside {owner position : String} {n : NodeFields} {children : List Node} {i : Nat} {c : Node}
    {p : Place} (hc : children[i]? = some c)
    (h : Holds (n.idAt (n.pathAt position)) (n.pathAt position ++ "/" ++ toString i) c p) :
    Holds owner position (.mk n children) (p.under (.child i))

/-- A place of a document: at one of its nodes, or inside. -/
def Document.Holds (d : Document) (p : Place) : Prop :=
  ∃ (i : Nat) (c : Node) (q : Place),
    d.nodes[i]? = some c ∧ c.Holds "" ("/" ++ toString i) q ∧ p = q.under (.child i)

/-! ## Sources -/

theorem isDigit_of_mem_toString {i : Nat} {c : Char} (h : c ∈ (toString i).toList) :
    c.isDigit = true := by
  rw [Nat.toString_eq_ofList_toDigits, String.toList_ofList] at h
  exact Nat.isDigit_of_mem_toDigits (by decide) (by decide) h

theorem toString_head (i : Nat) : ∃ c cs, (toString i).toList = c :: cs ∧ c.isDigit = true := by
  have hne : (toString i).toList ≠ [] := by
    rw [Nat.toString_eq_ofList_toDigits, String.toList_ofList]
    exact Nat.toDigits_ne_nil
  obtain ⟨c, cs, hcs⟩ := List.exists_cons_of_ne_nil hne
  exact ⟨c, cs, hcs, isDigit_of_mem_toString (i := i) (hcs ▸ List.mem_cons_self)⟩

theorem toString_injective : Function.Injective (toString : Nat → String) := by
  intro i j h
  have hdigits := congrArg (fun s : String => Nat.ofDigitChars 10 s.toList 0) h
  simpa [Nat.toString_eq_ofList_toDigits] using hdigits

/-- Indices are told apart by the colon behind them. -/
theorem index_inj {i j : Nat} {s t : List Char}
    (h : (toString i).toList ++ ':' :: s = (toString j).toList ++ ':' :: t) : i = j := by
  have hfront : ∀ (k : Nat) (u : List Char),
      ((toString k).toList ++ ':' :: u).takeWhile Char.isDigit = (toString k).toList := by
    intro k u
    rw [List.takeWhile_append_of_pos fun c hc => isDigit_of_mem_toString hc]
    simp
  have htake := congrArg (List.takeWhile Char.isDigit) h
  rw [hfront, hfront] at htake
  exact toString_injective (String.toList_injective htake)

/-- The names of forms begin with letters. -/
theorem Form.name_ne_index (f : Form) (i : Nat) (s t : List Char) :
    f.name.toList ++ s ≠ (toString i).toList ++ t := by
  intro h
  obtain ⟨c, cs, hc, hdigit⟩ := toString_head i
  rw [hc] at h
  have hletter : f.name.toList.head?.any Char.isDigit = false := by
    cases f <;> rfl
  obtain ⟨d, ds, hd⟩ : ∃ d ds, f.name.toList = d :: ds := by
    cases f <;> exact ⟨_, _, rfl⟩
  rw [hd] at h hletter
  rw [(List.cons.inj h).1] at hletter
  simp [hdigit] at hletter

/-- Entries of short forms are told apart by their forms and indices. -/
theorem short_inj {f g : Form} {i j : Nat}
    (h : f.name.toList ++ '/' :: (toString i).toList = g.name.toList ++ '/' :: (toString j).toList) :
    f = g ∧ i = j := by
  have hfg : f = g := by
    -- the names of the forms begin with different letters
    have hhead := congrArg List.head? h
    cases f <;> cases g <;> first | rfl | exact absurd hhead (by simp [Form.name])
  subst hfg
  have htail := List.append_cancel_left h
  exact ⟨rfl, toString_injective (String.toList_injective (List.cons.inj htail).2)⟩

theorem toList_pathAt (n : NodeFields) (position : String) : (n.pathAt position).toList =
    position.toList ++ ':' :: (n.kind.toList ++ ':' :: n.name.toList) := by
  simp [NodeFields.pathAt]

namespace Node

variable {owner owner' position : String} {n : Node} {p q : Place}

/-- Sources go on from the position of the node. -/
theorem Holds.source_front (h : n.Holds owner position p) :
    ∃ t, p.source.toList = position.toList ++ ':' :: t := by
  induction h with
  | here => exact ⟨_, toList_pathAt _ _⟩
  | short h =>
    simp only [String.toList_append, toList_pathAt, List.append_assoc, List.cons_append]
    exact ⟨_, rfl⟩
  | @inside owner position n children i c p hc _ ih =>
    obtain ⟨t, ht⟩ := ih
    simp only [String.toList_append, toList_pathAt, List.append_assoc, List.cons_append] at ht
    exact ⟨_, ht⟩

/-- The source of a place inside a node shows the child that it is in. -/
theorem Holds.source_inside {path : String} {i : Nat}
    (h : n.Holds owner (path ++ "/" ++ toString i) p) :
    ∃ t, p.source.toList = path.toList ++ '/' :: ((toString i).toList ++ ':' :: t) := by
  obtain ⟨t, ht⟩ := h.source_front
  refine ⟨t, ht.trans ?_⟩
  simp

/-- What the source of a place has behind the path of a node around it. -/
def Shows (tail : List Char) : List Step → Prop
  | [] => tail = []
  | .short f i :: _ => tail = '/' :: (f.name.toList ++ '/' :: (toString i).toList)
  | .child i :: _ => ∃ t, tail = '/' :: ((toString i).toList ++ ':' :: t)

theorem Shows.head_eq {tail : List Char} {a b : List Step} (ha : Shows tail a) (hb : Shows tail b) :
    a.head? = b.head? := by
  rcases a with _ | ⟨f | i, a⟩ <;> rcases b with _ | ⟨g | j, b⟩ <;> simp only [Shows] at ha hb
  · rfl
  · simp [ha] at hb
  · obtain ⟨t, ht⟩ := hb
    simp [ha] at ht
  · simp [ha] at hb
  · obtain ⟨rfl, rfl⟩ := short_inj (List.cons.inj (ha.symm.trans hb)).2
    rfl
  · obtain ⟨t, ht⟩ := hb
    exact absurd (List.cons.inj (ha.symm.trans ht)).2 (f.name_ne_index _ _ _)
  · obtain ⟨t, ht⟩ := ha
    simp [hb] at ht
  · obtain ⟨t, ht⟩ := ha
    exact absurd (List.cons.inj (hb.symm.trans ht)).2 (g.name_ne_index _ _ _)
  · obtain ⟨t, ht⟩ := ha
    obtain ⟨u, hu⟩ := hb
    rw [index_inj (List.cons.inj (ht.symm.trans hu)).2]
    rfl

theorem Holds.shows {fields : NodeFields} {children : List Node}
    (h : (Node.mk fields children).Holds owner position p) :
    ∃ tail, p.source.toList = (fields.pathAt position).toList ++ tail ∧ Shows tail p.address := by
  cases h with
  | here => exact ⟨[], (List.append_nil _).symm, rfl⟩
  | @short _ _ _ _ form i _ _ =>
    refine ⟨'/' :: (form.name.toList ++ '/' :: (toString i).toList), ?_, rfl⟩
    simp only [String.toList_append, List.append_assoc]
    rfl
  | inside _ h =>
    obtain ⟨t, ht⟩ := h.source_inside
    exact ⟨_, ht, t, rfl⟩

/-- **Places with one source are one place.** -/
theorem Holds.unique (hp : n.Holds owner position p) (hq : n.Holds owner position q)
    (h : p.source = q.source) : p = q := by
  have hfirst : ∀ {owner position : String} {n : Node} {p q : Place}, n.Holds owner position p →
      n.Holds owner position q → p.source = q.source → p.address.head? = q.address.head? := by
    intro owner position n p q hp hq h
    cases n with
    | mk fields children =>
      obtain ⟨s, hs, hsp⟩ := hp.shows
      obtain ⟨t, ht, htq⟩ := hq.shows
      rw [h, ht, List.append_cancel_left_eq] at hs
      exact hsp.head_eq (hs ▸ htq)
  induction hp generalizing q with
  | here =>
    have hhead := hfirst .here hq h
    cases hq with
    | here => rfl
    | short => cases hhead
    | inside => cases hhead
  | short htext =>
    have hhead := hfirst (.short htext) hq h
    cases hq with
    | here => cases hhead
    | short htext' =>
      cases hhead
      rw [Option.some.inj (htext.symm.trans htext')]
    | inside => cases hhead
  | inside hc hin ih =>
    have hhead := hfirst (.inside hc hin) hq h
    cases hq with
    | here => cases hhead
    | short => cases hhead
    | inside hc' hin' =>
      cases hhead
      obtain rfl := Option.some.inj (hc.symm.trans hc')
      rw [ih hin' h]

end Node

theorem Document.Holds.unique {d : Document} {p q : Place} (hp : d.Holds p) (hq : d.Holds q)
    (h : p.source = q.source) : p = q := by
  obtain ⟨i, c, p, hc, hp, rfl⟩ := hp
  obtain ⟨j, c', q, hc', hq, rfl⟩ := hq
  obtain ⟨t, ht⟩ := hp.source_front
  obtain ⟨u, hu⟩ := hq.source_front
  have hlist := ht.symm.trans ((congrArg String.toList h).trans hu)
  rw [String.toList_append, String.toList_append, List.append_assoc, List.append_assoc] at hlist
  obtain rfl := index_inj (List.append_cancel_left hlist)
  obtain rfl := Option.some.inj (hc.symm.trans hc')
  rw [hp.unique hq h]

/-! ## Listing places -/

/-- The places of the short forms of a node. -/
def NodeFields.shortPlaces (n : NodeFields) (owner path : String) : List Place :=
  Form.all.flatMap fun form => (form.texts n).mapIdx fun i text =>
    ⟨[.short form i], path ++ "/" ++ form.name ++ "/" ++ toString i, owner, .short form text⟩

namespace Node

mutual

/-- The places at a node and inside, depth first. -/
def places (owner position : String) : Node → List Place
  | .mk n children =>
    let path := n.pathAt position
    ⟨[], path, owner, .node n⟩ :: (n.shortPlaces (n.idAt path) path ++
      listPlaces (n.idAt path) (path ++ "/") 0 children)

/-- The places at nodes listed under one parent and inside them, numbered from `i` on. -/
def listPlaces (owner position : String) (i : Nat) : List Node → List Place
  | [] => []
  | c :: rest =>
    (c.places owner (position ++ toString i)).map (Place.under (.child i)) ++
      listPlaces owner position (i + 1) rest

end

end Node

/-- The places of a document, depth first. -/
def Document.places (d : Document) : List Place := Node.listPlaces "" "/" 0 d.nodes

theorem mem_shortPlaces {n : NodeFields} {owner path : String} {p : Place} :
    p ∈ n.shortPlaces owner path ↔ ∃ form i text, (form.texts n)[i]? = some text ∧
      p = ⟨[.short form i], path ++ "/" ++ form.name ++ "/" ++ toString i, owner,
        .short form text⟩ := by
  have hall : ∀ form : Form, form ∈ Form.all := by
    intro form
    cases form <;> decide
  simp only [NodeFields.shortPlaces, List.mem_flatMap, List.mem_mapIdx]
  constructor
  · rintro ⟨form, -, i, hi, rfl⟩
    exact ⟨form, i, _, List.getElem?_eq_getElem hi, rfl⟩
  · rintro ⟨form, i, text, htext, rfl⟩
    obtain ⟨hi, rfl⟩ := List.getElem?_eq_some_iff.1 htext
    exact ⟨form, hall form, i, hi, rfl⟩

namespace Node

mutual

/-- The list of places is complete. -/
theorem mem_places {p : Place} : ∀ (n : Node) (owner position : String),
    p ∈ n.places owner position ↔ n.Holds owner position p
  | .mk n children, owner, position => by
    have hinside := mem_listPlaces (p := p) children (n.idAt (n.pathAt position))
      (n.pathAt position ++ "/") 0
    rw [places, List.mem_cons, List.mem_append, mem_shortPlaces, hinside]
    constructor
    · rintro (rfl | ⟨form, i, text, htext, rfl⟩ | ⟨j, c, q, hc, hq, rfl⟩)
      · exact .here
      · exact .short htext
      · rw [Nat.zero_add] at hq ⊢
        exact .inside hc hq
    · intro h
      cases h with
      | here => exact Or.inl rfl
      | short htext => exact Or.inr (Or.inl ⟨_, _, _, htext, rfl⟩)
      | @inside _ _ _ _ i c q hc hq =>
        refine Or.inr (Or.inr ⟨i, c, q, hc, ?_, ?_⟩)
        · rwa [Nat.zero_add]
        · rw [Nat.zero_add]

theorem mem_listPlaces {p : Place} : ∀ (ns : List Node) (owner position : String) (i : Nat),
    p ∈ listPlaces owner position i ns ↔ ∃ (j : Nat) (c : Node) (q : Place), ns[j]? = some c ∧
      c.Holds owner (position ++ toString (i + j)) q ∧ p = q.under (.child (i + j))
  | [], owner, position, i => by simp [listPlaces]
  | n :: rest, owner, position, i => by
    have hrest := mem_listPlaces (p := p) rest owner position (i + 1)
    rw [listPlaces, List.mem_append, List.mem_map, hrest]
    constructor
    · rintro (⟨q, hq, rfl⟩ | ⟨j, c, q, hc, hq, rfl⟩)
      · exact ⟨0, n, q, rfl, (mem_places n owner _).1 hq, rfl⟩
      · rw [Nat.add_right_comm, Nat.add_assoc] at hq ⊢
        exact ⟨j + 1, c, q, hc, hq, rfl⟩
    · rintro ⟨j, c, q, hc, hq, rfl⟩
      cases j with
      | zero =>
        obtain rfl := Option.some.inj hc
        exact Or.inl ⟨q, (mem_places n owner _).2 hq, rfl⟩
      | succ j =>
        refine Or.inr ⟨j, c, q, hc, ?_, ?_⟩
        · rwa [Nat.add_right_comm, Nat.add_assoc]
        · rw [Nat.add_right_comm, Nat.add_assoc]

end

end Node

theorem Document.mem_places {d : Document} {p : Place} : p ∈ d.places ↔ d.Holds p := by
  rw [Document.places, Node.mem_listPlaces]
  simp only [Nat.zero_add]
  rfl

/-! ### Order -/

theorem pairwise_shortPlaces (n : NodeFields) (owner path : String) :
    (n.shortPlaces owner path).Pairwise Place.Before := by
  rw [NodeFields.shortPlaces, List.pairwise_flatMap]
  constructor
  · intro form _
    rw [List.pairwise_iff_getElem]
    intro i j hi hj hij
    rw [List.getElem_mapIdx, List.getElem_mapIdx]
    exact .rel (.entry hij)
  · have hranks : Form.all.Pairwise fun f g => f.rank < g.rank := by decide
    refine hranks.imp fun {f g} hfg p hp q hq => ?_
    obtain ⟨i, hi, rfl⟩ := List.mem_mapIdx.1 hp
    obtain ⟨j, hj, rfl⟩ := List.mem_mapIdx.1 hq
    exact .rel (.form hfg)

theorem Place.Before.under {p q : Place} (h : p.Before q) (step : Step) :
    (p.under step).Before (q.under step) := .cons h

namespace Node

mutual

/-- **Places are listed in the order of their addresses.** -/
theorem pairwise_places : ∀ (n : Node) (owner position : String),
    (n.places owner position).Pairwise Place.Before
  | .mk n children, owner, position => by
    rw [places, List.pairwise_cons, List.pairwise_append]
    refine ⟨fun p hp => ?_, pairwise_shortPlaces _ _ _, pairwise_listPlaces _ _ _ _,
      fun p hp q hq => ?_⟩
    · rcases List.mem_append.1 hp with hp | hp
      · obtain ⟨form, i, text, -, rfl⟩ := mem_shortPlaces.1 hp
        exact .nil
      · obtain ⟨j, c, q, -, -, rfl⟩ := (mem_listPlaces _ _ _ _).1 hp
        exact .nil
    · obtain ⟨form, i, text, -, rfl⟩ := mem_shortPlaces.1 hp
      obtain ⟨j, c, q, -, -, rfl⟩ := (mem_listPlaces _ _ _ _).1 hq
      exact .rel .short

theorem pairwise_listPlaces : ∀ (ns : List Node) (owner position : String) (i : Nat),
    (listPlaces owner position i ns).Pairwise Place.Before
  | [], owner, position, i => by
    rw [listPlaces]
    exact .nil
  | n :: rest, owner, position, i => by
    rw [listPlaces, List.pairwise_append, List.pairwise_map]
    refine ⟨(pairwise_places n owner _).imp fun h => h.under _, pairwise_listPlaces rest _ _ _,
      fun p hp q hq => ?_⟩
    obtain ⟨p, -, rfl⟩ := List.mem_map.1 hp
    obtain ⟨j, c, q, -, -, rfl⟩ := (mem_listPlaces _ _ _ _).1 hq
    exact .rel (.child (by omega))

end

end Node

theorem Place.Before.irrefl (p : Place) : ¬ p.Before p := by
  refine List.lex_irrefl (fun step h => ?_) p.address
  cases h with
  | entry h => exact Nat.lt_irrefl _ h
  | form h => exact Nat.lt_irrefl _ h
  | child h => exact Nat.lt_irrefl _ h

theorem Document.places_nodup (d : Document) : d.places.Nodup := by
  refine (Node.pairwise_listPlaces d.nodes "" "/" 0).imp fun {p q} h he => ?_
  subst he
  exact Place.Before.irrefl p h

/-! ### Owners -/

theorem Place.id_node (fields : NodeFields) (address : List Step) (path owner : String) :
    Place.id ⟨address, path, owner, .node fields⟩ = fields.idAt path := by
  rw [Place.id, NodeFields.idAt]
  simp only [Place.explicitId?]
  split_ifs <;> rfl

/-- The id of a place is that of the node that is one step up. -/
def Place.OwnedBy (p q : Place) : Prop :=
  (∃ step, p.address = q.address ++ [step]) ∧ (∃ fields, q.item = .node fields) ∧ p.owner = q.id

theorem Place.OwnedBy.under {p q : Place} (h : p.OwnedBy q) (step : Step) :
    (p.under step).OwnedBy (q.under step) := by
  obtain ⟨⟨last, hlast⟩, hnode, howner⟩ := h
  exact ⟨⟨last, congrArg (step :: ·) hlast⟩, hnode, howner⟩

/-- A place is the node itself, or is owned by a node inside. -/
theorem Node.Holds.owned {n : Node} {owner position : String} {p : Place}
    (h : n.Holds owner position p) :
    p.address = [] ∧ p.owner = owner ∨ ∃ q, n.Holds owner position q ∧ p.OwnedBy q := by
  induction h with
  | here => exact Or.inl ⟨rfl, rfl⟩
  | @short _ _ fields _ form i _ _ =>
    exact Or.inr ⟨_, .here, ⟨.short form i, rfl⟩, ⟨fields, rfl⟩, (Place.id_node _ _ _ _).symm⟩
  | @inside _ _ fields _ i _ p hc _ ih =>
    right
    rcases ih with ⟨haddress, howner⟩ | ⟨q, hq, howned⟩
    · refine ⟨_, .here, ⟨.child i, ?_⟩, ⟨fields, rfl⟩, howner.trans (Place.id_node _ _ _ _).symm⟩
      exact congrArg (Step.child i :: ·) haddress
    · exact ⟨q.under (.child i), .inside hc hq, howned.under _⟩

theorem Document.Holds.owned {d : Document} {p : Place} (h : d.Holds p) :
    p.address.length = 1 ∧ p.owner = "" ∨ ∃ q, d.Holds q ∧ p.OwnedBy q := by
  obtain ⟨i, c, p, hc, hp, rfl⟩ := h
  rcases hp.owned with ⟨haddress, howner⟩ | ⟨q, hq, howned⟩
  · exact Or.inl ⟨congrArg (·.length + 1) haddress, howner⟩
  · exact Or.inr ⟨q.under (.child i), ⟨i, c, q, hc, hq, rfl⟩, howned.under _⟩

/-! ## Elements -/

theorem Place.id_of_element? {p : Place} {e : Element} (h : p.element? = some e) :
    e.id = p.id ∧ e.identity.parent = p.owner := by
  obtain ⟨address, source, owner, item⟩ := p
  cases item with
  | node n =>
    obtain ⟨⟨kind, final⟩, -, rfl⟩ := Option.map_eq_some_iff.1 h
    cases kind <;> exact ⟨rfl, rfl⟩
  | short form text =>
    obtain rfl := Option.some.inj h
    cases form <;> exact ⟨rfl, rfl⟩

theorem map_shortElements (n : NodeFields) (owner path : String) :
    (n.shortElements owner path).map some = (n.shortPlaces owner path).map Place.element? := by
  simp only [NodeFields.shortElements, NodeFields.shortPlaces, Form.all, List.flatMap_cons,
    List.flatMap_nil, List.map_append, List.mapIdx_eq_zipIdx_map, List.map_map, List.append_assoc,
    List.append_nil]
  rfl

theorem map_ownEntries (n : NodeFields) (owner path : String) :
    (n.ownEntries owner path).map (·.content.toOption) =
      Place.element? ⟨[], path, owner, .node n⟩ ::
        (n.shortPlaces (n.idAt path) path).map Place.element? := by
  rw [NodeFields.ownEntries, List.map_cons, List.map_map, ← map_shortElements]
  congr 1
  rw [Place.element?, Place.id_node]
  dsimp only
  cases n.element? _ <;> rfl

namespace Node

mutual

/-- The entries of a node stand for its places, in the same order. -/
theorem map_entries : ∀ (n : Node) (owner position : String),
    (n.entries owner position).map (·.content.toOption) =
      (n.places owner position).map Place.element?
  | .mk n children, owner, position => by
    rw [entries, places, List.map_append, map_ownEntries, map_listEntries, List.map_cons,
      List.map_append]
    rfl

theorem map_listEntries : ∀ (ns : List Node) (owner position : String) (i : Nat),
    (listEntries owner position i ns).map (·.content.toOption) =
      (listPlaces owner position i ns).map Place.element?
  | [], owner, position, i => by
    rw [listEntries, listPlaces]
    rfl
  | n :: rest, owner, position, i => by
    rw [listEntries, listPlaces, List.map_append, List.map_append, map_entries, map_listEntries,
      List.map_map]
    rfl

end

end Node

theorem Document.map_entries (d : Document) :
    d.entries.map (·.content.toOption) = d.places.map Place.element? :=
  Node.map_listEntries d.nodes "" "/" 0

/-! ## Registering -/

theorem dash_mem_generatedId (path : String) : '-' ∈ (generatedId path).toList := by
  rw [generatedId, Digest.Uuid.text, String.intercalate_cons_cons]
  simp

theorem generatedId_ne_empty (path : String) : generatedId path ≠ "" := by
  intro h
  have hdash := dash_mem_generatedId path
  rw [h] at hdash
  simp at hdash

/-- An id that is not empty and not taken is what it takes. -/
theorem Registry.add_isOk {r r' : Registry} {e : Element} : r.add e = .ok r' ↔
    e.id ≠ "" ∧ e.id ∉ r.elements.map Element.id ∧
      r' = { r with elements := r.elements ++ [e] } := by
  constructor
  · intro h
    refine ⟨fun hid => ?_, add_eq_ok h⟩
    rw [add, if_pos hid] at h
    cases h
  · rintro ⟨hid, hnew, rfl⟩
    have hnone : r.lookup e.id = none := by
      refine List.find?_eq_none.2 fun x hx he => hnew ?_
      exact List.mem_map.2 ⟨x, hx, beq_iff_eq.1 he⟩
    rw [add, if_neg hid, hnone]

theorem Entry.addTo_isOk {r r' : Registry} {entry : Entry} : entry.addTo r = .ok r' ↔
    ∃ x, entry.content.toOption = some x ∧ r.add x = .ok r' := by
  rw [addTo]
  cases entry.content with
  | error kind => simp [Except.toOption]
  | ok x =>
    dsimp only
    cases hadd : r.add x <;> simp [Except.toOption, hadd]

/-- Which entries can all be registered. -/
theorem foldlM_addTo {es : List Entry} {r r' : Registry} :
    es.foldlM Entry.addTo r = .ok r' ↔ ∃ xs : List Element,
      es.map (·.content.toOption) = xs.map some ∧ (∀ x ∈ xs, x.id ≠ "") ∧
      (xs.map Element.id).Nodup ∧ (∀ x ∈ xs, x.id ∉ r.elements.map Element.id) ∧
      r' = { r with elements := r.elements ++ xs } := by
  induction es generalizing r with
  | nil =>
    rw [List.foldlM_nil]
    constructor
    · rintro ⟨⟩
      exact ⟨[], rfl, by simp⟩
    · rintro ⟨xs, hmap, -, -, -, rfl⟩
      obtain rfl := List.map_eq_nil_iff.1 hmap.symm
      rw [List.append_nil]
      rfl
  | cons entry es ih =>
    rw [List.foldlM_cons, bind_eq_ok]
    constructor
    · rintro ⟨r₁, hentry, hes⟩
      obtain ⟨x, hx, hadd⟩ := Entry.addTo_isOk.1 hentry
      obtain ⟨hid, hnew, rfl⟩ := Registry.add_isOk.1 hadd
      obtain ⟨xs, hmap, hids, hnodup, hxs, rfl⟩ := ih.1 hes
      simp only [List.map_append, List.mem_append, List.map_singleton, List.mem_singleton,
        not_or] at hxs
      refine ⟨x :: xs, ?_, ?_, ?_, ?_, ?_⟩
      · rw [List.map_cons, List.map_cons, hmap, hx]
      · exact List.forall_mem_cons.2 ⟨hid, hids⟩
      · refine List.nodup_cons.2 ⟨fun hm => ?_, hnodup⟩
        obtain ⟨y, hy, he⟩ := List.mem_map.1 hm
        exact (hxs y hy).2 he
      · exact List.forall_mem_cons.2 ⟨hnew, fun y hy => (hxs y hy).1⟩
      · rw [List.append_assoc]
        rfl
    · rintro ⟨xs, hmap, hids, hnodup, hxs, rfl⟩
      obtain ⟨x, xs, rfl, hx, hes⟩ := List.map_eq_cons_iff.1 hmap.symm
      rw [List.map_cons, List.nodup_cons] at hnodup
      refine ⟨{ r with elements := r.elements ++ [x] }, ?_, ih.2 ⟨xs, hes.symm, ?_, hnodup.2, ?_, ?_⟩⟩
      · exact Entry.addTo_isOk.2 ⟨x, hx.symm, Registry.add_isOk.2
          ⟨hids x List.mem_cons_self, hxs x List.mem_cons_self, rfl⟩⟩
      · exact fun y hy => hids y (List.mem_cons_of_mem _ hy)
      · intro y hy
        simp only [List.map_append, List.mem_append, List.map_singleton, List.mem_singleton, not_or]
        refine ⟨hxs y (List.mem_cons_of_mem _ hy), fun he => hnodup.1 ?_⟩
        exact List.mem_map.2 ⟨y, hy, he⟩
      · rw [List.append_assoc]
        rfl

theorem Document.registry_eq_ok {d : Document} {r : Registry} : d.registry = .ok r ↔
    d.places.map Place.element? = r.elements.map some ∧ (∀ e ∈ r.elements, e.id ≠ "") ∧
      (r.elements.map Element.id).Nodup ∧ r = { elements := r.elements } := by
  rw [Document.registry, foldlM_addTo, Document.map_entries]
  constructor
  · rintro ⟨xs, hmap, hids, hnodup, -, rfl⟩
    exact ⟨hmap, hids, hnodup, rfl⟩
  · rintro ⟨hmap, hids, hnodup, hr⟩
    exact ⟨r.elements, hmap, hids, hnodup, by simp, hr⟩

/-! ## The census -/

/-- What a document needs: every kind is known, and no explicit id is repeated or equal to a
    generated one. -/
structure Document.Sound (d : Document) : Prop where
  kinds : ∀ p n, d.Holds p → p.item = .node n → n.kind?.isSome = true
  explicit : ∀ p q id, d.Holds p → d.Holds q → p.explicitId? = some id → q.explicitId? = some id →
    p = q
  generated : ∀ p q id, d.Holds p → d.Holds q → p.explicitId? = some id → q.explicitId? = none →
    id ≠ generatedId q.source

/-- No two sources of places of a document yield one generated id. -/
def Document.NoCollision (d : Document) : Prop :=
  ∀ p q, d.Holds p → d.Holds q → generatedId p.source = generatedId q.source → p.source = q.source

/-- A list of all places of a document, in the order in which they are registered. -/
structure Document.Census (d : Document) (ps : List Place) : Prop where
  complete : ∀ p, p ∈ ps ↔ d.Holds p
  /-- Depth first, a node in front of its short forms and these in front of its children. -/
  ordered : ps.Pairwise Place.Before
  /-- No text is the source of two ids. -/
  sources : (ps.map Place.source).Nodup
  owned : ∀ p ∈ ps, p.address.length = 1 ∧ p.owner = "" ∨ ∃ q ∈ ps, p.OwnedBy q
  /-- One element is registered for each place, with the id of the place and the id of the node
      around it. -/
  registered : ∀ r, d.registry = .ok r → List.Forall₂ (fun p e =>
    p.element? = some e ∧ e.id = p.id ∧ e.identity.parent = p.owner) ps r.elements
  succeeds : d.NoCollision → ((∃ r, d.registry = .ok r) ↔ d.Sound)

theorem Place.element?_isSome {p : Place} : p.element?.isSome = true ↔
    ∀ n, p.item = .node n → n.kind?.isSome = true := by
  obtain ⟨address, source, owner, item⟩ := p
  cases item with
  | node n =>
    simp [element?, NodeFields.element?]
  | short form text => simp [element?]

theorem Place.id_ne_empty (p : Place) : p.id ≠ "" := by
  rw [id]
  cases h : p.explicitId? with
  | none => exact generatedId_ne_empty _
  | some id =>
    obtain ⟨address, source, owner, item⟩ := p
    cases item with
    | node n =>
      simp only [explicitId?] at h
      split_ifs at h with hid
      exact Option.some.inj h ▸ hid
    | short form text => cases h

theorem Place.id_of_explicit {p : Place} {id : String} (h : p.explicitId? = some id) :
    p.id = id := by
  rw [Place.id, h, Option.getD_some]

theorem Place.id_of_generated {p : Place} (h : p.explicitId? = none) :
    p.id = generatedId p.source := by
  rw [Place.id, h, Option.getD_none]

/-- When no two sources collide, it is up to the explicit ids that places have ids of their own. -/
theorem Document.NoCollision.ids_nodup {d : Document} (hd : d.NoCollision) :
    (d.places.map Place.id).Nodup ↔
      (∀ p q id, d.Holds p → d.Holds q → p.explicitId? = some id → q.explicitId? = some id →
        p = q) ∧
      ∀ p q id, d.Holds p → d.Holds q → p.explicitId? = some id → q.explicitId? = none →
        id ≠ generatedId q.source := by
  rw [List.nodup_map_iff_inj_on d.places_nodup]
  constructor
  · intro h
    refine ⟨fun p q id hp hq hpid hqid => ?_, fun p q id hp hq hpid hqid he => ?_⟩
    · refine h p (mem_places.2 hp) q (mem_places.2 hq) ?_
      rw [Place.id_of_explicit hpid, Place.id_of_explicit hqid]
    · have hpq := h p (mem_places.2 hp) q (mem_places.2 hq) (by
        rw [Place.id_of_explicit hpid, Place.id_of_generated hqid, he])
      rw [hpq, hqid] at hpid
      cases hpid
  · rintro ⟨hexplicit, hgenerated⟩ p hp q hq h
    rw [mem_places] at hp hq
    cases hpid : p.explicitId? with
    | some id =>
      rw [Place.id_of_explicit hpid] at h
      cases hqid : q.explicitId? with
      | some id' =>
        rw [Place.id_of_explicit hqid] at h
        exact hexplicit p q id hp hq hpid (h ▸ hqid)
      | none =>
        rw [Place.id_of_generated hqid] at h
        exact absurd h (hgenerated p q id hp hq hpid hqid)
    | none =>
      rw [Place.id_of_generated hpid] at h
      cases hqid : q.explicitId? with
      | some id =>
        rw [Place.id_of_explicit hqid] at h
        exact absurd h.symm (hgenerated q p id hq hp hqid hpid)
      | none =>
        rw [Place.id_of_generated hqid] at h
        exact hp.unique hq (hd p q hp hq h)

theorem forall₂_element? {ps : List Place} {es : List Element}
    (h : ps.map Place.element? = es.map some) :
    List.Forall₂ (fun p e => p.element? = some e) ps es := by
  rw [← List.forall₂_eq_eq_eq, List.forall₂_map_left_iff, List.forall₂_map_right_iff] at h
  exact h

/-- The elements of places have the ids of the places. -/
theorem map_id {ps : List Place} {es : List Element}
    (h : List.Forall₂ (fun p e => p.element? = some e) ps es) :
    es.map Element.id = ps.map Place.id := by
  induction h with
  | nil => rfl
  | cons he _ ih => rw [List.map_cons, List.map_cons, ih, (Place.id_of_element? he).1]

/-- When no two sources collide, registering can fail for kinds and explicit ids only. -/
theorem Document.NoCollision.succeeds {d : Document} (hd : d.NoCollision) :
    (∃ r, d.registry = .ok r) ↔ d.Sound := by
  constructor
  · rintro ⟨r, hr⟩
    obtain ⟨hmap, -, hnodup, -⟩ := registry_eq_ok.1 hr
    have hkind : ∀ p, d.Holds p → p.element?.isSome = true := by
      intro p hp
      obtain ⟨e, -, he⟩ := List.mem_map.1 (hmap ▸ List.mem_map_of_mem (mem_places.2 hp))
      rw [← he, Option.isSome_some]
    rw [map_id (forall₂_element? hmap)] at hnodup
    obtain ⟨hexplicit, hgenerated⟩ := hd.ids_nodup.1 hnodup
    exact ⟨fun p n hp => Place.element?_isSome.1 (hkind p hp) n, hexplicit, hgenerated⟩
  · intro h
    have hmap : d.places.map Place.element? = (d.places.filterMap Place.element?).map some := by
      rw [List.map_filterMap_some_eq_filter_map_isSome, List.filter_eq_self.2]
      intro x hx
      obtain ⟨p, hp, rfl⟩ := List.mem_map.1 hx
      exact Place.element?_isSome.2 fun n => h.kinds p n (mem_places.1 hp)
    have hids := map_id (forall₂_element? hmap)
    refine ⟨⟨_, false, {}, []⟩, registry_eq_ok.2 ⟨hmap, fun e he => ?_, ?_, rfl⟩⟩
    · obtain ⟨p, -, hp⟩ := List.mem_filterMap.1 he
      exact (Place.id_of_element? hp).1 ▸ p.id_ne_empty
    · exact hids ▸ hd.ids_nodup.2 ⟨h.explicit, h.generated⟩

/-- **What a document registers, and when it does.** -/
theorem registry_census (d : Document) : ∃ ps, d.Census ps := by
  refine ⟨d.places, fun p => Document.mem_places, Node.pairwise_listPlaces _ _ _ _, ?_, ?_, ?_,
    Document.NoCollision.succeeds⟩
  · rw [List.nodup_map_iff_inj_on d.places_nodup]
    intro p hp q hq h
    exact (Document.mem_places.1 hp).unique (Document.mem_places.1 hq) h
  · intro p hp
    refine (Document.mem_places.1 hp).owned.imp_right ?_
    rintro ⟨q, hq, howned⟩
    exact ⟨q, Document.mem_places.2 hq, howned⟩
  · intro r hr
    refine (forall₂_element? (Document.registry_eq_ok.1 hr).1).imp fun p e he => ?_
    exact ⟨he, Place.id_of_element? he⟩

/-- A class with a base. -/
def barge : NodeFields where
  id := "barge"
  kind := "Class"
  name := "Barge"
  extend := ["ship"]

/-- Generated ids with their namespace written out. -/
theorem generatedId_eq (path : String) : generatedId path = (Digest.Uuid.ofName ⟨[159, 122, 188, 163,
    163, 57, 84, 53, 166, 240, 107, 242, 116, 46, 233, 142]⟩ path).text := by
  have hspace : modelNamespace.bytes = [159, 122, 188, 163, 163, 57, 84, 53, 166, 240, 107, 242, 116,
      46, 233, 142] := by decide +kernel
  rw [generatedId, ← hspace]

theorem barge_ids : generatedId "/0:Class:Barge" ≠ generatedId "/0:Class:Barge/extends/0" := by
  have hclass : generatedId "/0:Class:Barge" = "196d1a00-638f-57bb-b2a5-dde8d4a0e836" := by
    rw [generatedId_eq]
    decide +kernel
  have hbase : generatedId "/0:Class:Barge/extends/0" = "191e514b-3722-52f3-8ca2-7812da22ae1d" := by
    rw [generatedId_eq]
    decide +kernel
  rw [hclass, hbase]
  decide

theorem barge_sound :
    Document.NoCollision ⟨[.mk barge []]⟩ ∧ Document.Sound ⟨[.mk barge []]⟩ ∧
      ∃ r, Document.registry ⟨[.mk barge []]⟩ = .ok r := by
  obtain ⟨ps, hps⟩ := registry_census ⟨[.mk barge []]⟩
  have hplaces : ∀ p, Document.Holds ⟨[.mk barge []]⟩ p →
      p = ⟨[.child 0], "/0:Class:Barge", "", .node barge⟩ ∨
        p = ⟨[.child 0, .short .extend 0], "/0:Class:Barge/extends/0", "barge",
          .short .extend "ship"⟩ := by
    intro p hp
    rw [← Document.mem_places] at hp
    rcases List.mem_cons.1 hp with rfl | hp
    · exact Or.inl rfl
    · obtain rfl := List.mem_singleton.1 hp
      exact Or.inr rfl
  have hd : Document.NoCollision ⟨[.mk barge []]⟩ := by
    intro p q hp hq h
    rcases hplaces p hp with rfl | rfl <;> rcases hplaces q hq with rfl | rfl
    · rfl
    · exact absurd h barge_ids
    · exact absurd h.symm barge_ids
    · rfl
  have hsound : Document.Sound ⟨[.mk barge []]⟩ := by
    constructor
    · intro p n hp hn
      rcases hplaces p hp with rfl | rfl <;> cases hn
      decide
    · intro p q id hp hq hpid hqid
      rcases hplaces p hp with rfl | rfl <;> rcases hplaces q hq with rfl | rfl
      · rfl
      · cases hqid
      · cases hpid
      · rfl
    · intro p q id hp hq hpid hqid he
      rcases hplaces p hp with rfl | rfl
      · obtain rfl := Option.some.inj hpid
        have hdash := dash_mem_generatedId q.source
        rw [← he] at hdash
        revert hdash
        decide
      · cases hpid
  exact ⟨hd, hsound, (hps.succeeds hd).2 hsound⟩

end ObjectLowering.Model
