/-
  Tokens of YAML texts.

  * `readTag?`, `readName?` and `readDirective?` read the tokens that are
    neither marks nor scalars.
  * A tag is kept as a handle and a suffix; which handles there are is known
    only to a document.
-/
import ObjectLowering.Data.Yaml.Cursor
import ObjectLowering.Text.Numeral
import ObjectLowering.Text.Utf8

namespace ObjectLowering.Data.Yaml

/-- A token of a text. -/
inductive Token where
  | textEnd
  /-- The version that a document claims. -/
  | version (major minor : Nat)
  /-- The tags that a handle stands for, by what they start with. -/
  | handle (name stem : String)
  | documentStart
  | documentEnd
  | sequenceStart
  | mappingStart
  /-- The end of a block sequence or mapping. -/
  | blockEnd
  | flowSequenceStart
  | flowSequenceEnd
  | flowMappingStart
  | flowMappingEnd
  | item
  | comma
  | key
  | value
  | alias (name : String)
  | anchor (name : String)
  | tag (handle suffix : String)
  | scalar (isPlain : Bool) (text : String)
deriving DecidableEq, Repr

/-- Reads the name of an anchor or alias behind its mark. -/
def readName? (c : Cursor) : Option (String × Cursor) :=
  let name := c.rest.takeWhile isWordChar
  let after := c.drop name.length
  let ends := atSpace after.rest ||
    (after.rest.head?.map ['?', ':', ',', ']', '}', '%', '@', '\x60'].contains).getD false
  if name.isEmpty || !ends then none else some (String.ofList name, after)

/-! ## Tags -/

/-- A character of a tag. -/
def isTagChar (c : Char) : Bool :=
  isWordChar c || ";/?:@&=+$,.!~*'()[]%".toList.contains c

/-- The bytes that percent escapes at the front of a text stand for. -/
def escapedBytes : Nat → List Char → Option (List UInt8)
  | 0, _ => some []
  | n + 1, '%' :: a :: b :: rest => do
    let byte ← Text.digitsInBase? 16 [a, b]
    return UInt8.ofNat byte :: (← escapedBytes n rest)
  | _ + 1, _ => none

/-- The number of bytes that the first byte of a character announces. -/
def announced (b : UInt8) : Nat :=
  if b < 0x80 then 1 else if b &&& 0xE0 == 0xC0 then 2 else if b &&& 0xF0 == 0xE0 then 3
  else if b &&& 0xF8 == 0xF0 then 4 else 0

/-- The characters of a tag with its escapes decoded. An escaped character is the escaped bytes of
    its encoding. -/
def tagChars? : Nat → List Char → Option (List Char)
  | 0, _ => none
  | fuel + 1, cs =>
    match cs with
    | [] => some []
    | '%' :: rest => do
      let first ← escapedBytes 1 ('%' :: rest)
      let width := announced (first.headD 0)
      let bytes ← escapedBytes width ('%' :: rest)
      if width = 0 ∨ !(bytes.drop 1).all fun b => b &&& 0xC0 == 0x80 then none
      return Text.lossyUtf8 bytes ++ (← tagChars? fuel (('%' :: rest).drop (3 * width)))
    | c :: rest => (tagChars? fuel rest).map (c :: ·)

/-- Reads a run of tag characters. -/
def readTagChars? (c : Cursor) : Option (List Char × Cursor) :=
  let raw := c.rest.takeWhile isTagChar
  (tagChars? (raw.length + 1) raw).map fun cs => (cs, c.drop raw.length)

/-- Reads a handle at its `!`; what only looks like one lacks the closing mark. -/
def readHandle (c : Cursor) : List Char × Cursor :=
  let name := c.next.rest.takeWhile isWordChar
  let after := c.next.drop name.length
  if after.rest.head? == some '!' then ('!' :: name ++ ['!'], after.next) else ('!' :: name, after)

/-- Reads a tag at its `!`. -/
def readTag? (c : Cursor) : Option (Token × Cursor) := do
  let (token, after) ← match c.rest with
    | '!' :: '<' :: _ => do
      let (suffix, after) ← readTagChars? (c.drop 2)
      if suffix.isEmpty ∨ after.rest.head? ≠ some '>' then none
      some (Token.tag "" (String.ofList suffix), after.next)
    | _ => do
      let (handle, after) := readHandle c
      let (suffix, after) ← readTagChars? after
      if 1 < handle.length ∧ handle.getLast? = some '!' then
        if suffix.isEmpty then none
        some (Token.tag (String.ofList handle) (String.ofList suffix), after)
      else
        match handle.drop 1 ++ suffix with
        | [] => some (Token.tag "" "!", after)
        | suffix => some (Token.tag "!" (String.ofList suffix), after)
  if atSpace after.rest then some (token, after) else none

/-! ## Directives -/

/-- Reads a number of at most two digits. -/
def readVersionPart? (c : Cursor) : Option (Nat × Cursor) :=
  let ds := c.rest.takeWhile Char.isDigit
  if 2 < ds.length then none
  else (Text.digitsInBase? 10 ds).map fun n => (n, c.drop ds.length)

/-- Reads a directive behind its `%`, up to the next line. -/
def readDirective? (c : Cursor) : Option (Token × Cursor) := do
  let name := c.rest.takeWhile isWordChar
  let c := c.drop name.length
  if !atSpace c.rest then none
  let (token, c) ← match String.ofList name with
    | "YAML" => do
      let (major, c) ← readVersionPart? c.skipBlanks
      if c.rest.head? ≠ some '.' then none
      let (minor, c) ← readVersionPart? c.next
      some (Token.version major minor, c)
    | "TAG" => do
      let c := c.skipBlanks
      if c.rest.head? ≠ some '!' then none
      let (handle, c) := readHandle c
      if handle ≠ ['!'] ∧ handle.getLast? ≠ some '!' then none
      if !(c.rest.head?.map isBlank).getD false then none
      let (stem, c) ← readTagChars? c.skipBlanks
      if stem.isEmpty ∨ !atSpace c.rest then none
      some (Token.handle (String.ofList handle) (String.ofList stem), c)
    | _ => none
  return (token, ← c.endLine?)

end ObjectLowering.Data.Yaml
