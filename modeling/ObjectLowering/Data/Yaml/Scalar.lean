/-
  Scalars as they stand in a YAML text: plain, between quotes, and as blocks
  of lines.

  Each reader starts behind the mark of its scalar and returns the text of
  the scalar with the cursor behind it.
-/
import ObjectLowering.Data.Yaml.Cursor
import ObjectLowering.Text.Numeral

namespace ObjectLowering.Data.Yaml

/-! ## Plain scalars -/

/-- A character that ends plain scalars inside flow collections. -/
def isFlowMark (c : Char) : Bool := [',', '?', '[', ']', '{', '}'].contains c

/-- A word of a plain scalar ends here. -/
def endsWord (flow : Bool) : List Char → Bool
  | [] => true
  | c :: rest => isSpace c || (c == ':' && atSpace rest) || (flow && isFlowMark c)

/-- Reads a word; `read` is what was read before, last first. -/
def readWord (flow : Bool) (read : List Char) (p : Place) : List Char → List Char × Cursor
  | [] => (read, { p with rest := [] })
  | c :: rest =>
    if endsWord flow (c :: rest) then (read, { p with rest := c :: rest })
    else readWord flow (c :: read) (p.step c) rest

/-- A plain scalar that was read. -/
structure PlainText where
  /-- The characters, last first. -/
  read : List Char
  cursor : Cursor
  /-- The cursor stands on another line than the last word. -/
  endsLine : Bool

/-- Reads a plain scalar behind `read`, the characters read before, and the gap behind them. Further
    lines have to reach the column `indent`. -/
def readPlain (flow : Bool) (indent : Nat) : Nat → List Char → Gap → Cursor → Option PlainText
  | 0, _, _, _ => none
  | fuel + 1, read, gap, c =>
    let crossed := !gap.breaks.isEmpty
    if c.atMark || c.rest.head? == some '#' || endsWord flow c.rest then some ⟨read, c, crossed⟩
    else
      let (read, c) := readWord flow (gap.text.reverse ++ read) c.toPlace c.rest
      if c.rest.isEmpty || !atSpace c.rest then some ⟨read, c, false⟩
      else match readGap indent {} c.toPlace c.rest with
        | none => none
        | some (gap, c) =>
          if !flow && c.column < indent then some ⟨read, c, !gap.breaks.isEmpty⟩
          else readPlain flow indent fuel read gap c

/-! ## Quoted scalars -/

/-- The character of an escape of one letter. -/
def escaped? : Char → Option Char
  | '0' => some '\x00'
  | 'a' => some '\x07'
  | 'b' => some '\x08'
  | 't' | '\t' => some '\t'
  | 'n' => some '\n'
  | 'v' => some '\x0b'
  | 'f' => some '\x0c'
  | 'r' => some '\r'
  | 'e' => some '\x1b'
  | ' ' => some ' '
  | '"' => some '"'
  | '\'' => some '\''
  | '\\' => some '\\'
  | 'N' => some '\u0085'
  | '_' => some '\u00a0'
  | 'L' => some '\u2028'
  | 'P' => some '\u2029'
  | _ => none

/-- The number of hexadecimal digits behind an escape letter. -/
def escapeWidth? : Char → Option Nat
  | 'x' => some 2
  | 'u' => some 4
  | 'U' => some 8
  | _ => none

/-- The character of an escape, and how many characters it takes behind its backslash. -/
def escape? : List Char → Option (Char × Nat)
  | [] => none
  | c :: rest =>
    match escapeWidth? c with
    | some width =>
      let ds := rest.take width
      if ds.length < width then none
      else (Text.charOfHex? ds).map fun ch => (ch, width + 1)
    | none => (escaped? c).map fun ch => (ch, 1)

/-- Reads a double-quoted scalar behind its opening quote; `read` is what was read, last first. -/
def readDouble : Nat → List Char → Cursor → Option (List Char × Cursor)
  | 0, _, _ => none
  | fuel + 1, read, c =>
    match c.rest with
    | [] => none
    | ch :: rest =>
      -- a line end behind a backslash is not read, but those behind it are
      let escaped := ch == '\\' && (rest.head?.map isBreak).getD false
      if escaped || isSpace ch then
        let start := if escaped then c.drop 2 else c
        match readGap 0 { breaks := if escaped then ['\\'] else [] } start.toPlace start.rest with
        | none => none
        | some (gap, c) =>
          let text := if escaped then (gap.breaks.reverse.drop 1) else gap.text
          if c.atMark then none else readDouble fuel (text.reverse ++ read) c
      else if ch == '"' then some (read, c.next)
      else if ch == '\\' then
        match escape? rest with
        | some (ch, width) => readDouble fuel (ch :: read) (c.drop (width + 1))
        | none => none
      else readDouble fuel (ch :: read) c.next

/-- Reads a single-quoted scalar behind its opening quote. -/
def readSingle : Nat → List Char → Cursor → Option (List Char × Cursor)
  | 0, _, _ => none
  | fuel + 1, read, c =>
    match c.rest with
    | [] => none
    | '\'' :: '\'' :: _ => readSingle fuel ('\'' :: read) (c.drop 2)
    | '\'' :: _ => some (read, c.next)
    | ch :: _ =>
      if isSpace ch then
        match readGap 0 {} c.toPlace c.rest with
        | none => none
        | some (gap, c) => if c.atMark then none else readSingle fuel (gap.text.reverse ++ read) c
      else readSingle fuel (ch :: read) c.next

/-! ## Block scalars -/

/-- How a block scalar ends: without line end, with one, or with all that there are. -/
inductive Chomp where
  | strip
  | clip
  | keep
deriving DecidableEq, Repr

/-- The head of a block scalar: its ending, and how far it is indented, zero if that is left
    open. -/
structure BlockHead where
  chomp : Chomp := .clip
  depth : Nat := 0

/-- The ending that a mark stands for. -/
def chomp? : Char → Option Chomp
  | '+' => some .keep
  | '-' => some .strip
  | _ => none

/-- The depth that a digit stands for; zero is none. -/
def depth? (c : Char) : Option Nat :=
  if '1' ≤ c && c ≤ '9' then some (c.toNat - '0'.toNat) else none

/-- Reads the marks behind `|` or `>`, which may come in either order. -/
def readBlockHead : List Char → BlockHead × Nat
  | [] => ({}, 0)
  | a :: rest =>
    let b := rest.head?
    match chomp? a, depth? a with
    | some chomp, _ =>
      match b.bind depth? with
      | some depth => ({ chomp, depth }, 2)
      | none => ({ chomp }, 1)
    | none, some depth =>
      match b.bind chomp? with
      | some chomp => ({ chomp, depth }, 2)
      | none => ({ depth }, 1)
    | none, none => ({}, 0)

/-- Lines without content in front of a line of a block scalar. -/
structure BlockGap where
  /-- Their line breaks, last first. -/
  breaks : List Char := []
  /-- The deepest column that was reached. -/
  deepest : Nat := 0

/-- Passes the indentation of lines and the lines without content. Indentation goes up to the column
    `depth`, or is not known yet if that is zero; it holds no tabs. -/
def readBlockGap (depth : Nat) (g : BlockGap) (p : Place) : List Char → Option (BlockGap × Cursor)
  | [] => some ({ g with deepest := max g.deepest p.column }, { p with rest := [] })
  | c :: rest =>
    let inside := depth == 0 || p.column < depth
    let reached := { g with deepest := max g.deepest p.column }
    if c == ' ' && inside then readBlockGap depth g (p.step c) rest
    else if c == '\t' && inside then none
    else if isBreak c then
      readBlockGap depth { reached with breaks := c :: reached.breaks } (p.step c) rest
    else some (reached, { p with rest := c :: rest })

/-- What was read of a block scalar, all of it last first: the text, the line break behind it, and
    the breaks of lines without content behind that. -/
structure BlockText where
  read : List Char := []
  lineBreak : List Char := []
  breaks : List Char
  /-- The last line started with a blank. -/
  wasIndented : Bool := false

/-- How the breaks in front of a further line are read. In a folded scalar one between two lines
    that start with no blank is a blank, or nothing if lines without content follow. -/
def BlockText.joint (t : BlockText) (folded indented : Bool) : List Char :=
  if folded && !t.wasIndented && !indented && t.lineBreak == ['\n'] then
    if t.breaks.isEmpty then [' '] else t.breaks
  else t.breaks ++ t.lineBreak

/-- Reads the lines of a block scalar at the column `depth`. -/
def readBlockLines (folded : Bool) (depth : Nat) : Nat → BlockText → Cursor →
    Option (BlockText × Cursor)
  | 0, _, _ => none
  | fuel + 1, t, c =>
    if c.column ≠ depth ∨ c.rest.isEmpty then some (t, c)
    else
      let indented := (c.rest.head?.map isBlank).getD false
      let line := c.rest.takeWhile fun ch => !isBreak ch
      let after := c.drop line.length
      match readBlockGap depth {} after.next.toPlace after.next.rest with
      | none => none
      | some (g, next) =>
        readBlockLines folded depth fuel {
          read := line.reverse ++ t.joint folded indented ++ t.read
          lineBreak := after.rest.take 1
          breaks := g.breaks
          wasIndented := indented } next

/-- Reads a block scalar behind its `|` or `>`. `indent` is the column of the collection that it
    stands in, below zero outside of any. -/
def readBlock (folded : Bool) (indent : Int) (c : Cursor) : Option (List Char × Cursor) := do
  let (head, marks) := readBlockHead c.rest
  let c ← (c.drop marks).endLine?
  let given := if head.depth = 0 then 0 else (max indent 0).toNat + head.depth
  let (g, c) ← readBlockGap given {} c.toPlace c.rest
  let depth := if given = 0 then max g.deepest (max (indent + 1).toNat 1) else given
  let (t, c) ← readBlockLines folded depth (c.rest.length + 1) { breaks := g.breaks } c
  let read := match head.chomp with
    | .strip => t.read
    | .clip => t.lineBreak ++ t.read
    | .keep => t.breaks ++ t.lineBreak ++ t.read
  return (read, c)

end ObjectLowering.Data.Yaml
