/-
  Identifiers of the generated code.

  A model name is free text; its identifier keeps letters, digits and `_`,
  joins the remaining runs by one `_`, and puts a `_` before a leading ASCII
  digit.  `constantName` is the identifier in upper case, the spelling of
  constants and of the parts of id keys.
-/
import ObjectLowering.Text.Blank
import ObjectLowering.Text.Casing
import ObjectLowering.Text.Letter

namespace ObjectLowering.Code

/-- The characters that stand in an identifier as they are. -/
def isNameChar (c : Char) : Bool := c == '_' || Text.isLetter c || Text.isDigit c

/-- Replaces each gap between two name characters by one `_`; `gap` says that one is open.
    A gap at the end is dropped. -/
def closeGaps : Bool → List Char → List Char
  | _, [] => []
  | gap, c :: cs =>
    if isNameChar c then
      if gap then '_' :: c :: closeGaps false cs else c :: closeGaps false cs
    else closeGaps true cs

/-- The name characters of a text, gaps inside closed, gaps at both ends dropped. -/
def identBody (cs : List Char) : List Char :=
  closeGaps false (cs.dropWhile fun c => !isNameChar c)

/-- Completes a body to an identifier: never empty, and no ASCII digit in front. -/
def guardBody : List Char → List Char
  | [] => ['_']
  | c :: cs => if '0' ≤ c ∧ c ≤ '9' then '_' :: c :: cs else c :: cs

/-- The identifier of a model name. -/
def ident (name : String) : String := String.ofList (guardBody (identBody name.toList))

/-- The identifier of a model name in upper case. -/
def constantName (name : String) : String := Text.toUpper (ident name)

end ObjectLowering.Code
