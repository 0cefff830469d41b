/-
  The tokens of a YAML text, one after the other.

  A mapping key is known as one only when the `:` behind it is found.  Until
  then its tokens wait in a queue, and the place in front of them, where the
  marks for a mapping and its key may have to go, is kept as a `PossibleKey`.
  Tokens are read no further than needed, so what follows a document is not
  looked at.

  * `TokenStream.fetch?` reads one more token into the queue.
  * `TokenStream.peek?` gives the next token once nothing can be put in front
    of it, and `TokenStream.skip` takes it.
-/
import ObjectLowering.Data.Yaml.Dialect
import ObjectLowering.Data.Yaml.Scalar
import ObjectLowering.Data.Yaml.Token

namespace ObjectLowering.Data.Yaml

/-- A place where a mapping key may have started. -/
structure PossibleKey where
  /-- The number of the token that the key would start with. -/
  number : Nat
  /-- There has to be a key, since nothing else can stand at this column. -/
  isRequired : Bool
  place : Place
deriving DecidableEq, Repr

/-- Tokens that were read and the text that is left. -/
structure TokenStream where
  /-- The number of characters of the whole text. -/
  size : Nat
  cursor : Cursor
  /-- Tokens that are read and not taken yet. -/
  queue : List Token := []
  /-- How many tokens were taken. -/
  taken : Nat := 0
  /-- The column of the innermost block collection; below zero outside of any. -/
  indent : Int := -1
  /-- The columns of the block collections around it, innermost first. -/
  outerIndents : List Int := []
  /-- A key may start here. -/
  allowsKey : Bool := true
  /-- The possible key of the innermost flow collection, or of the blocks. -/
  possible : Option PossibleKey := none
  /-- The possible keys around it, innermost first: one place for each flow collection. -/
  outerPossible : List (Option PossibleKey) := []

namespace TokenStream

/-- The cursor stands inside a flow collection. -/
def isFlow (s : TokenStream) : Bool := !s.outerPossible.isEmpty

/-- How deep collections may be nested. -/
def maxDepth : Nat := 10000

/-- How many characters a key may be long. -/
def maxKey : Nat := 1024

/-! ## The queue -/

/-- Puts a token at the end of the queue. -/
def push (s : TokenStream) (t : Token) : TokenStream := { s with queue := s.queue ++ [t] }

/-- Puts a token in front of the token with a number. -/
def insert (s : TokenStream) (number : Nat) (t : Token) : TokenStream :=
  { s with queue := s.queue.insertIdx (number - s.taken) t }

/-! ## Possible keys -/

/-- A key can still be continued at the cursor: it is on the same line and not too long. -/
def isLive (s : TokenStream) (k : PossibleKey) : Bool :=
  k.place.line == s.cursor.line && s.cursor.index ≤ k.place.index + maxKey

/-- Gives up the possible key, unless there has to be one. -/
def dropKey? (s : TokenStream) : Option TokenStream :=
  if (s.possible.map (·.isRequired)).getD false then none else some { s with possible := none }

/-- Notes that a key may start here, if one may. -/
def saveKey? (s : TokenStream) : Option TokenStream :=
  if !s.allowsKey then some s
  else s.dropKey?.map fun s => { s with
    possible := some {
      number := s.taken + s.queue.length
      isRequired := !s.isFlow && s.indent == s.cursor.column
      place := s.cursor.toPlace } }

/-! ## Indentation -/

/-- Starts a block collection if the column lies deeper than the one around it; `start` puts its
    first token into the queue. -/
def roll? (s : TokenStream) (column : Nat) (start : TokenStream → TokenStream) :
    Option TokenStream :=
  if s.isFlow ∨ (column : Int) ≤ s.indent then some s
  else if maxDepth ≤ s.outerIndents.length then none
  else some (start { s with outerIndents := s.indent :: s.outerIndents, indent := column })

/-- Ends the block collections that lie deeper than a column. -/
def unrollFrom (column : Int) (indent : Int) (queue : List Token) :
    List Int → Int × List Int × List Token
  | [] => (indent, [], queue)
  | outer :: rest =>
    if column < indent then unrollFrom column outer (queue ++ [.blockEnd]) rest
    else (indent, outer :: rest, queue)

/-- Ends the block collections that lie deeper than a column, outside of flow collections. -/
def unroll (s : TokenStream) (column : Int) : TokenStream :=
  if s.isFlow then s
  else
    let (indent, outerIndents, queue) := unrollFrom column s.indent s.queue s.outerIndents
    { s with indent, outerIndents, queue }

/-! ## Between tokens -/

/-- Passes a comment and the comments on lines behind it that nothing but blanks precede. -/
def skipComments : Nat → Cursor → Cursor
  | 0, c => c
  | fuel + 1, c =>
    let c := c.skipComment
    let gap := 1 + ((c.rest.drop 1).takeWhile isSpace).length
    if gap < 512 ∧ (c.rest.drop gap).head? = some '#' then skipComments fuel (c.drop gap) else c

/-- Goes to the next token, over blanks, comments and line breaks; tells whether a key may start
    there. Tabs may not stand where a block key may. -/
def toToken (d : Dialect) (flow : Bool) : Nat → Bool → Cursor → Cursor × Bool
  | 0, allowsKey, c => (c, allowsKey)
  | fuel + 1, allowsKey, c =>
    let c := if c.column == 0 && c.rest.head? == some orderMark then c.next else c
    let c := c.dropWhile fun ch => ch == ' ' || (ch == '\t' && (flow || !allowsKey))
    let c :=
      if d.hasFreeComments && c.rest.head? == some '#' then skipComments fuel c else c.skipComment
    match c.rest with
    | ch :: _ =>
      if isBreak ch then toToken d flow fuel (allowsKey || !flow) c.next else (c, allowsKey)
    | [] => (c, allowsKey)

/-! ## Marks -/

/-- Takes a mark of some characters as a token. -/
def mark (s : TokenStream) (length : Nat) (t : Token) : TokenStream :=
  { s.push t with cursor := s.cursor.drop length }

/-- Ends all blocks in front of a document mark, a directive or the end of the text. -/
def closeBlocks? (s : TokenStream) : Option TokenStream :=
  (s.unroll (-1)).dropKey?.map fun s => { s with allowsKey := false }

/-- The end of the text lies on a line of its own. -/
def fetchEnd? (s : TokenStream) : Option TokenStream :=
  let c := s.cursor
  let cursor := if c.column = 0 then c else { c with line := c.line + 1, column := 0 }
  let s := { s with cursor }
  s.closeBlocks?.map (·.push .textEnd)

/-- A flow collection starts. -/
def fetchFlowStart? (s : TokenStream) (t : Token) : Option TokenStream := do
  let s ← s.saveKey?
  if maxDepth ≤ s.outerPossible.length then none
  some ({ s with
    possible := none, outerPossible := s.possible :: s.outerPossible, allowsKey := true }.mark 1 t)

/-- A flow collection ends. -/
def fetchFlowEnd? (s : TokenStream) (t : Token) : Option TokenStream := do
  let s ← s.dropKey?
  let s := match s.outerPossible with
    | possible :: rest => { s with possible, outerPossible := rest }
    | [] => s
  some ({ s with allowsKey := false }.mark 1 t)

/-- The next item of a block sequence starts. -/
def fetchItem? (s : TokenStream) : Option TokenStream := do
  if !s.isFlow ∧ !s.allowsKey then none
  let s ← s.roll? s.cursor.column (·.push .sequenceStart)
  let s ← s.dropKey?
  some ({ s with allowsKey := true }.mark 1 .item)

/-- Passes a comment behind a mark, if the dialect lets it stand there. -/
def commented (d : Dialect) (s : TokenStream) : TokenStream :=
  let c := s.cursor.skipBlanks
  if d.hasFreeComments && c.rest.head? == some '#' then { s with cursor := c.skipComment } else s

/-- A key of any form starts behind its mark. -/
def fetchKey? (d : Dialect) (s : TokenStream) : Option TokenStream := do
  if !s.isFlow ∧ !s.allowsKey then none
  let s ← s.roll? s.cursor.column (·.push .mappingStart)
  let s ← s.dropKey?
  some (({ s with allowsKey := !s.isFlow }.mark 1 .key).commented d)

/-- A value starts: behind a possible key, which becomes one, or behind a key of any form. -/
def fetchValue? (d : Dialect) (s : TokenStream) : Option TokenStream := do
  let live := s.possible.filter s.isLive
  if live.isNone ∧ (s.possible.map (·.isRequired)).getD false then none
  let s := { s with possible := none }
  match live with
  | some k =>
    let s := s.insert k.number .key
    let s ← s.roll? k.place.column (·.insert k.number .mappingStart)
    some (({ s with allowsKey := false }.mark 1 .value).commented d)
  | none =>
    if !s.isFlow ∧ !s.allowsKey then none
    let s ← s.roll? s.cursor.column (·.push .mappingStart)
    some (({ s with allowsKey := !s.isFlow }.mark 1 .value).commented d)

/-! ## Scalars and what stands in front of them -/

/-- Takes a token that may start a key. -/
def starting (s : TokenStream) (read : Cursor → Option (Token × Cursor)) : Option TokenStream := do
  let s ← s.saveKey?
  let (t, cursor) ← read s.cursor
  some { s.push t with cursor, allowsKey := false }

/-- The token of a scalar that was read last character first. -/
def scalarOf (isPlain : Bool) (read : List Char) : Token :=
  .scalar isPlain (String.ofList read.reverse)

/-- A scalar between quotes. -/
def readQuoted? (size : Nat) (c : Cursor) : Option (Token × Cursor) :=
  let read := if c.rest.head? == some '"' then readDouble else readSingle
  (read (size + 1) [] c.next).map fun (cs, after) => (scalarOf false cs, after)

/-- A plain scalar; a key may start behind it if it ended with its line. -/
def fetchPlain? (s : TokenStream) : Option TokenStream := do
  let s ← s.saveKey?
  let p ← readPlain s.isFlow (s.indent + 1).toNat (s.size + 1) [] {} s.cursor
  some { s.push (scalarOf true p.read) with cursor := p.cursor, allowsKey := p.endsLine }

/-- A scalar of lines. -/
def fetchBlock? (folded : Bool) (s : TokenStream) : Option TokenStream := do
  let s ← s.dropKey?
  let (cs, cursor) ← readBlock folded s.indent s.cursor.next
  some { s.push (scalarOf false cs) with cursor, allowsKey := true }

/-- A plain scalar may start here. -/
def startsPlain (flow : Bool) : List Char → Bool
  | [] => false
  | c :: rest =>
    if c == '-' then !(rest.head?.map isBlank).getD false
    else if c == '?' || c == ':' then !flow && !atSpace rest
    else !isSpace c && !",[]{}#&*!|>'\"%@\x60".toList.contains c

/-- The token at the cursor, read into the queue. -/
def fetchHere? (d : Dialect) (s : TokenStream) : Option TokenStream :=
  let c := s.cursor
  match c.rest with
  | [] => s.fetchEnd?
  | ch :: rest =>
    if c.column == 0 && ch == '%' then do
      let s ← s.closeBlocks?
      let (t, cursor) ← readDirective? s.cursor.next
      some { s.push t with cursor }
    else if c.atDocumentStart then s.closeBlocks?.map (·.mark 3 .documentStart)
    else if c.atDocumentEnd then s.closeBlocks?.map (·.mark 3 .documentEnd)
    else if ch == '[' then s.fetchFlowStart? .flowSequenceStart
    else if ch == '{' then s.fetchFlowStart? .flowMappingStart
    else if ch == ']' then s.fetchFlowEnd? .flowSequenceEnd
    else if ch == '}' then s.fetchFlowEnd? .flowMappingEnd
    else if ch == ',' then
      s.dropKey?.map fun s => { s with allowsKey := true }.mark 1 .comma
    else if ch == '-' && atSpace rest then s.fetchItem?
    else if ch == '?' && (s.isFlow || atSpace rest) then s.fetchKey? d
    else if ch == ':' && (s.isFlow || atSpace rest) then s.fetchValue? d
    else if ch == '*' then
      s.starting fun c => (readName? c.next).map fun (name, after) => (.alias name, after)
    else if ch == '&' then
      s.starting fun c => (readName? c.next).map fun (name, after) => (.anchor name, after)
    else if ch == '!' then s.starting readTag?
    else if (ch == '|' || ch == '>') && !s.isFlow then s.fetchBlock? (ch == '>')
    else if ch == '\'' || ch == '"' then s.starting (readQuoted? s.size)
    else if startsPlain s.isFlow c.rest then s.fetchPlain?
    else none

/-- Reads one more token into the queue. -/
def fetch? (d : Dialect) (s : TokenStream) : Option TokenStream :=
  let (cursor, allowsKey) := toToken d s.isFlow (s.size + 2) s.allowsKey s.cursor
  ({ s with cursor, allowsKey }.unroll cursor.column).fetchHere? d

/-! ## Taking tokens -/

/-- The possible key that starts with the next token. -/
def keyAtHead (s : TokenStream) : Option PossibleKey :=
  (s.possible :: s.outerPossible).findSome? fun k => k.filter fun k => k.number == s.taken

/-- Forgets a possible key. -/
def forget (s : TokenStream) (k : PossibleKey) : TokenStream :=
  { s with
    possible := s.possible.filter (· != k)
    outerPossible := s.outerPossible.map fun p => p.filter (· != k) }

/-- A token may still have to be put in front of the next one, or too few are read ahead. -/
def needsMore (d : Dialect) (s : TokenStream) : Bool :=
  s.queue.length ≤ d.lookahead || (s.keyAtHead.map s.isLive).getD false

/-- Reads tokens until the next one is sure to come first. A key that has become impossible is
    given up, unless there has to be one. -/
def fill (d : Dialect) : Nat → TokenStream → Option TokenStream
  | 0, _ => none
  | fuel + 1, s =>
    if s.needsMore d then (s.fetch? d).bind (fill d fuel)
    else match s.keyAtHead with
      | none => some s
      | some k => if k.isRequired then none else some (s.forget k)

/-- The next token. Every token but the last takes a character of the text, which bounds how many
    are read. -/
def peek? (d : Dialect) (s : TokenStream) : Option (Token × TokenStream) :=
  (s.fill d (s.size + d.lookahead + 4)).bind fun s =>
    s.queue.head?.map fun t => (t, s)

/-- The stream behind the next token. -/
def skip (s : TokenStream) : TokenStream := { s with queue := s.queue.drop 1, taken := s.taken + 1 }

/-- The tokens of a text. -/
def ofText? (text : String) : Option TokenStream :=
  (characters? text).map fun rest => { size := rest.length, cursor := { rest } }

end TokenStream

end ObjectLowering.Data.Yaml
