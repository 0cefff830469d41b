/-
  The nodes of YAML documents.

  Nodes are read by descent, one function for each kind of collection.  A
  collection may leave out keys, values and items; an empty plain scalar
  stands in their place.  An alias holds the node that it stands for, so it
  cannot stand inside of that node.
-/
import ObjectLowering.Data.Yaml.TokenStream

namespace ObjectLowering.Data.Yaml

/-- A node of a document. -/
inductive Node where
  /-- The tag is empty if none is given. -/
  | scalar (tag : String) (isPlain : Bool) (text : String)
  | sequence (items : List Node)
  | mapping (entries : List (Node × Node))
  | alias (name : String) (target : Node)

/-- The scalar that stands for what is left out. -/
def Node.empty : Node := .scalar "" true ""

/-- A document that is being read. -/
structure Source where
  tokens : TokenStream
  /-- What handles of tags stand for. -/
  handles : List (String × String) := []
  /-- The anchors, latest first; the node of one is missing while it is being read. -/
  anchors : List (String × Option Node) := []

namespace Source

/-- The next token. -/
def peek? (d : Dialect) (s : Source) : Option (Token × Source) :=
  (s.tokens.peek? d).map fun (t, tokens) => (t, { s with tokens })

/-- The document behind the next token. -/
def skip (s : Source) : Source := { s with tokens := s.tokens.skip }

/-! ## Anchors and tags -/

/-- What stands in front of a node. -/
structure Properties where
  anchor : Option String := none
  tag : String := ""

/-- The tag that a handle and a suffix stand for. -/
def tag? (s : Source) (handle suffix : String) : Option String :=
  if handle = "" then some suffix else (s.handles.lookup handle).map (· ++ suffix)

/-- Reads an anchor and a tag, in either order, up to the token behind them. -/
def properties? (d : Dialect) (s : Source) : Option (Properties × Token × Source) := do
  let (t, s) ← s.peek? d
  match t with
  | .anchor name =>
    let (t, s) ← s.skip.peek? d
    match t with
    | .tag handle suffix =>
      let tag ← s.tag? handle suffix
      let (t, s) ← s.skip.peek? d
      some ({ anchor := some name, tag }, t, s)
    | t => some ({ anchor := some name }, t, s)
  | .tag handle suffix =>
    let tag ← s.tag? handle suffix
    let (t, s) ← s.skip.peek? d
    match t with
    | .anchor name =>
      let (t, s) ← s.skip.peek? d
      some ({ anchor := some name, tag }, t, s)
    | t => some ({ tag }, t, s)
  | t => some ({}, t, s)

/-- Notes that the node of an anchor starts. -/
def openAnchor (s : Source) (p : Properties) : Source :=
  match p.anchor with
  | some name => { s with anchors := (name, none) :: s.anchors }
  | none => s

/-- Notes the node of an anchor that was opened when there were `before` of them. -/
def closeAnchor (s : Source) (p : Properties) (before : Nat) (n : Node) : Source :=
  match p.anchor with
  | some name => { s with anchors := s.anchors.set (s.anchors.length - 1 - before) (name, some n) }
  | none => s

/-! ## Nodes -/

mutual

/-- Reads a node. In a block, block collections may start; `indentless` lets a sequence start at
    the column of the mapping around it. -/
def readNode (d : Dialect) : Nat → Bool → Bool → Source → Option (Node × Source)
  | 0, _, _, _ => none
  | fuel + 1, block, indentless, s => do
    let (t, s) ← s.peek? d
    match t with
    | .alias name =>
      match s.anchors.lookup name with
      | some (some target) => some (.alias name target, s.skip)
      | _ => none
    | _ =>
      let (p, t, s) ← s.properties? d
      let before := s.anchors.length
      let (n, s) ← readContent d fuel block indentless p t (s.openAnchor p)
      some (n, s.closeAnchor p before n)

/-- Reads what follows the properties of a node, from its first token on. -/
def readContent (d : Dialect) :
    Nat → Bool → Bool → Properties → Token → Source → Option (Node × Source)
  | 0, _, _, _, _, _ => none
  | fuel + 1, block, indentless, p, t, s =>
    match t with
    | .scalar isPlain text => some (.scalar p.tag isPlain text, s.skip)
    | .flowSequenceStart =>
      (readFlowItems d fuel true s.skip).map fun (ns, s) => (.sequence ns, s)
    | .flowMappingStart =>
      (readFlowEntries d fuel true s.skip).map fun (es, s) => (.mapping es, s)
    | t =>
      if indentless && t == .item then
        (readIndentless d fuel s).map fun (ns, s) => (.sequence ns, s)
      else if block && t == .sequenceStart then
        (readItems d fuel s.skip).map fun (ns, s) => (.sequence ns, s)
      else if block && t == .mappingStart then
        (readEntries d fuel s.skip).map fun (es, s) => (.mapping es, s)
      else if p.anchor.isSome || p.tag != "" then some (.scalar p.tag true "", s)
      else none

/-- Reads a block node, or leaves it out in front of one of some tokens. -/
def readUnless (d : Dialect) :
    Nat → List Token → Bool → Bool → Source → Option (Node × Source)
  | 0, _, _, _, _ => none
  | fuel + 1, ends, block, indentless, s => do
    let (t, s) ← s.peek? d
    if ends.contains t then some (.empty, s) else readNode d fuel block indentless s

/-- Reads the items of a block sequence up to its end. -/
def readItems (d : Dialect) : Nat → Source → Option (List Node × Source)
  | 0, _ => none
  | fuel + 1, s => do
    let (t, s) ← s.peek? d
    match t with
    | .item =>
      let (n, s) ← readUnless d fuel [.item, .blockEnd] true false s.skip
      let (ns, s) ← readItems d fuel s
      some (n :: ns, s)
    | .blockEnd => some ([], s.skip)
    | _ => none

/-- Reads the items of a sequence at the column of the mapping around it. -/
def readIndentless (d : Dialect) : Nat → Source → Option (List Node × Source)
  | 0, _ => none
  | fuel + 1, s => do
    let (t, s) ← s.peek? d
    match t with
    | .item =>
      let (n, s) ← readUnless d fuel [.item, .key, .value, .blockEnd] true false s.skip
      let (ns, s) ← readIndentless d fuel s
      some (n :: ns, s)
    | _ => some ([], s)

/-- Reads the entries of a block mapping up to its end. -/
def readEntries (d : Dialect) : Nat → Source → Option (List (Node × Node) × Source)
  | 0, _ => none
  | fuel + 1, s => do
    let (t, s) ← s.peek? d
    match t with
    | .key =>
      let (k, s) ← readUnless d fuel [.key, .value, .blockEnd] true true s.skip
      let (v, s) ← readValue d fuel [.key, .value, .blockEnd] true s
      let (es, s) ← readEntries d fuel s
      some ((k, v) :: es, s)
    | .blockEnd => some ([], s.skip)
    | _ => none

/-- Reads the value behind a key; it is left out in front of one of some tokens. -/
def readValue (d : Dialect) : Nat → List Token → Bool → Source → Option (Node × Source)
  | 0, _, _, _ => none
  | fuel + 1, ends, block, s => do
    let (t, s) ← s.peek? d
    if t = .value then readUnless d fuel ends block block s.skip else some (.empty, s)

/-- Reads the items of a flow sequence up to its end; `first` says that none was read yet. -/
def readFlowItems (d : Dialect) : Nat → Bool → Source → Option (List Node × Source)
  | 0, _, _ => none
  | fuel + 1, first, s => do
    let (t, s) ← s.peek? d
    if t = .flowSequenceEnd then some ([], s.skip)
    else
      if !first ∧ t ≠ .comma then none
      let (t, s) ← (if first then s else s.skip).peek? d
      if t = .flowSequenceEnd then some ([], s.skip)
      else
        let (n, s) ← if t = .key then readPair d fuel s.skip else readNode d fuel false false s
        let (ns, s) ← readFlowItems d fuel false s
        some (n :: ns, s)

/-- Reads a mapping of one entry as an item of a flow sequence, behind its key mark. A token that
    stands in place of the key is passed over. -/
def readPair (d : Dialect) : Nat → Source → Option (Node × Source)
  | 0, _ => none
  | fuel + 1, s => do
    let (t, s) ← s.peek? d
    let (k, s) ← if [.value, .comma, .flowSequenceEnd].contains t then some (Node.empty, s.skip)
      else readNode d fuel false false s
    let (v, s) ← readValue d fuel [.comma, .flowSequenceEnd] false s
    some (.mapping [(k, v)], s)

/-- Reads the entries of a flow mapping up to its end; `first` says that none was read yet. -/
def readFlowEntries (d : Dialect) : Nat → Bool → Source → Option (List (Node × Node) × Source)
  | 0, _, _ => none
  | fuel + 1, first, s => do
    let (t, s) ← s.peek? d
    if t = .flowMappingEnd then some ([], s.skip)
    else
      if !first ∧ t ≠ .comma then none
      let (t, s) ← (if first then s else s.skip).peek? d
      if t = .flowMappingEnd then some ([], s.skip)
      else if t = .key then
        let (k, s) ← readUnless d fuel [.value, .comma, .flowMappingEnd] false false s.skip
        let (v, s) ← readValue d fuel [.comma, .flowMappingEnd] false s
        let (es, s) ← readFlowEntries d fuel false s
        some ((k, v) :: es, s)
      else
        let (k, s) ← readNode d fuel false false s
        let (es, s) ← readFlowEntries d fuel false s
        some ((k, .empty) :: es, s)

end

/-! ## Documents -/

/-- The handles that every document has. -/
def defaultHandles : List (String × String) := [("!", "!"), ("!!", "tag:yaml.org,2002:")]

/-- Reads the directives in front of a document: a version that is understood, at most once, and
    each handle at most once. -/
def readDirectives (d : Dialect) : Nat → Bool → Source → Option Source
  | 0, _, _ => none
  | fuel + 1, hasVersion, s => do
    let (t, s) ← s.peek? d
    match t with
    | .version major minor =>
      if hasVersion ∨ (major, minor) ≠ (1, 1) then none
      else readDirectives d fuel true s.skip
    | .handle name stem =>
      if (s.handles.lookup name).isSome then none
      else readDirectives d fuel hasVersion { s.skip with handles := s.handles ++ [(name, stem)] }
    | _ => some { s with handles := s.handles ++ defaultHandles }

/-- The tokens that stand between documents. -/
def isBetweenDocuments : Token → Bool
  | .version .. | .handle .. | .documentStart | .documentEnd | .textEnd => true
  | _ => false

/-- Reads the first document of a text up to the token behind it; a text without tokens has
    none. -/
def readDocument (d : Dialect) (text : String) : Option (Option Node) := do
  let tokens ← TokenStream.ofText? text
  let fuel := 8 * tokens.size + 32
  let (t, s) ← { tokens : Source }.peek? d
  if t = .textEnd then some none
  else
    let isImplicit := !isBetweenDocuments t || t == .documentEnd
    let s ← readDirectives d fuel false s
    let (t, s) ← s.peek? d
    if !isImplicit ∧ t ≠ .documentStart then none
    let (t, s) ← (if isImplicit then s else s.skip).peek? d
    let (n, s) ← if !isImplicit && isBetweenDocuments t then some (Node.empty, s)
      else readNode d fuel true false s
    let _ ← s.peek? d
    some (some n)

end Source

end ObjectLowering.Data.Yaml
