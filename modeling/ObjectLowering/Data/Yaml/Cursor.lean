/-
  Places in a YAML text.

  * `characters?` prepares a text: a byte order mark in front is dropped,
    line ends are made one character, and other control characters refused.
  * A `Cursor` is what is left of the text and where it starts.
  * A `Gap` is what lies between two words of a scalar; `Gap.text` tells how
    it is read.
-/

namespace ObjectLowering.Data.Yaml

/-! ## Characters -/

/-- A character that a text may hold. -/
def isAllowed (c : Char) : Bool :=
  let n := c.toNat
  n == 0x09 || n == 0x0A || n == 0x0D || (0x20 ≤ n && n ≤ 0x7E) || n == 0x85 ||
    (0xA0 ≤ n && n ≤ 0xFFFD) || 0x10000 ≤ n

/-- Line ends of one or two characters become one. -/
def joinLineEnds (read : List Char) : List Char → List Char
  | [] => read.reverse
  | '\r' :: '\n' :: rest => joinLineEnds ('\n' :: read) rest
  | c :: rest =>
    joinLineEnds ((if c == '\r' || c == '\u0085' then '\n' else c) :: read) rest

/-- The byte order mark. -/
def orderMark : Char := '\uFEFF'

/-- The characters of a text, if it may hold all of them. -/
def characters? (s : String) : Option (List Char) :=
  let cs := match s.toList with
    | c :: rest => if c == orderMark then rest else c :: rest
    | [] => []
  if cs.all isAllowed then some (joinLineEnds [] cs) else none

/-- A blank inside a line. -/
def isBlank (c : Char) : Bool := c == ' ' || c == '\t'

/-- A line break. -/
def isBreak (c : Char) : Bool := c == '\n' || c == '\u2028' || c == '\u2029'

/-- A blank or a line break. -/
def isSpace (c : Char) : Bool := isBlank c || isBreak c

/-- A letter, digit, `_` or `-`: what names of anchors and handles consist of. -/
def isWordChar (c : Char) : Bool := c.isAlphanum || c == '_' || c == '-'

/-- The text ends, or a blank or line break follows. -/
def atSpace : List Char → Bool
  | [] => true
  | c :: _ => isSpace c

/-- The line ends here. -/
def atLineEnd : List Char → Bool
  | [] => true
  | c :: _ => isBreak c

/-! ## Places -/

/-- A place in a text. -/
structure Place where
  line : Nat := 0
  column : Nat := 0
  index : Nat := 0
deriving DecidableEq, Repr

/-- The place behind a character. -/
def Place.step (p : Place) (c : Char) : Place :=
  if isBreak c then ⟨p.line + 1, 0, p.index + 1⟩ else ⟨p.line, p.column + 1, p.index + 1⟩

/-- What is left of a text, and where it starts. -/
structure Cursor extends Place where
  rest : List Char
deriving DecidableEq, Repr

namespace Cursor

/-- The cursor `n` characters further. -/
def drop : Nat → Cursor → Cursor
  | 0, c => c
  | n + 1, c =>
    match c.rest with
    | [] => c
    | ch :: rest => drop n { c.toPlace.step ch with rest }

/-- The cursor behind one character. -/
def next (c : Cursor) : Cursor := c.drop 1

/-- The cursor behind all leading characters that pass a test. -/
def dropWhile (p : Char → Bool) (c : Cursor) : Cursor := c.drop (c.rest.takeWhile p).length

/-- The cursor behind the blanks of a line. -/
def skipBlanks (c : Cursor) : Cursor := c.dropWhile isBlank

/-- The cursor behind a comment, if one starts here. -/
def skipComment (c : Cursor) : Cursor :=
  if c.rest.head? == some '#' then c.dropWhile fun ch => !isBreak ch else c

/-- The cursor behind the end of a line, on which nothing but blanks and a comment may be left. -/
def endLine? (c : Cursor) : Option Cursor :=
  let c := c.skipBlanks.skipComment
  if atLineEnd c.rest then some c.next else none

/-- A document starts here. -/
def atDocumentStart (c : Cursor) : Bool :=
  c.column == 0 && c.rest.take 3 == ['-', '-', '-'] && atSpace (c.rest.drop 3)

/-- A document ends here. -/
def atDocumentEnd (c : Cursor) : Bool :=
  c.column == 0 && c.rest.take 3 == ['.', '.', '.'] && atSpace (c.rest.drop 3)

/-- A mark between documents stands here. -/
def atMark (c : Cursor) : Bool := c.atDocumentStart || c.atDocumentEnd

end Cursor

/-! ## Gaps -/

/-- What lies between two words of a scalar: blanks on one line, or line breaks. -/
structure Gap where
  /-- Blanks in front of the first line break, last first. -/
  blanks : List Char := []
  /-- Line breaks, last first. -/
  breaks : List Char := []

/-- Passes blanks and line breaks. In the first columns of a further line, those before `indent`,
    no tab may stand. -/
def readGap (indent : Nat) (g : Gap) (p : Place) : List Char → Option (Gap × Cursor)
  | [] => some (g, { p with rest := [] })
  | c :: rest =>
    if isBreak c then readGap indent { g with breaks := c :: g.breaks } (p.step c) rest
    else if !isBlank c then some (g, { p with rest := c :: rest })
    else if g.breaks.isEmpty then
      readGap indent { g with blanks := c :: g.blanks } (p.step c) rest
    else if c == '\t' && p.column < indent then none
    else readGap indent g (p.step c) rest

/-- How a gap is read: blanks as they are, one line end as a blank, and of more line ends all but
    the first. Separators that are no line ends are kept. -/
def Gap.text (g : Gap) : List Char :=
  match g.breaks.reverse with
  | [] => g.blanks.reverse
  | ['\n'] => [' ']
  | '\n' :: more => more
  | breaks => breaks

end ObjectLowering.Data.Yaml
