/-
  Character data of markup documents.

  `Markup.text?` tells what a text says that stands between two tags: line
  ends are one character, and characters may be written as entities.
-/
import ObjectLowering.Text.Numeral

namespace ObjectLowering.Text.Markup

/-- A character that a document may hold. -/
def isAllowed (c : Char) : Bool :=
  c == '\t' || c == '\n' || c == '\r' ||
    (0x20 ≤ c.toNat && c.toNat != 0xFFFE && c.toNat != 0xFFFF)

/-- The character of a number; one that no character has gives the replacement character. -/
def numbered? (n : Nat) : Option Char :=
  if n ≤ 0x10FFFF then some (if n.isValidChar then Char.ofNat n else '\uFFFD') else none

/-- The character of an entity, given between its `&` and `;`. -/
def entity? : List Char → Option Char
  | ['l', 't'] => some '<'
  | ['g', 't'] => some '>'
  | ['a', 'm', 'p'] => some '&'
  | ['a', 'p', 'o', 's'] => some '\''
  | ['q', 'u', 'o', 't'] => some '"'
  | '#' :: 'x' :: ds => (digitsInBase? 16 ds).bind numbered?
  | '#' :: ds => (digitsInBase? 10 ds).bind numbered?
  | _ => none

/-- The characters of a text; `fuel` bounds their number. The end mark of a section may not stand
    in a text, nor may a tag start in it. -/
def chars? : Nat → List Char → Option (List Char)
  | 0, _ => none
  | fuel + 1, cs =>
    match cs with
    | [] => some []
    | '<' :: _ => none
    | ']' :: ']' :: '>' :: _ => none
    | '&' :: rest =>
      match entity? (rest.takeWhile (· != ';')), rest.dropWhile (· != ';') with
      | some c, _ :: after => (chars? fuel after).map (c :: ·)
      | _, _ => none
    | '\r' :: '\n' :: rest => (chars? fuel rest).map ('\n' :: ·)
    | '\r' :: rest => (chars? fuel rest).map ('\n' :: ·)
    | c :: rest => (chars? fuel rest).map (c :: ·)

/-- What a text between two tags says. -/
def text? (s : String) : Option String :=
  (chars? (s.toList.length + 1) s.toList).bind fun cs =>
    if cs.all isAllowed then some (String.ofList cs) else none

end ObjectLowering.Text.Markup
