/-
  Aggregation kinds of features.
-/
import ObjectLowering.Text.Blank
import ObjectLowering.Text.Casing

namespace ObjectLowering.Model

/-- How a feature holds its values. -/
inductive Aggregation where
  /-- Not given; settled to `none` when the model is prepared. -/
  | unset
  | none
  | shared
  | composition
  /-- A text that names no aggregation kind. -/
  | other (text : String)
deriving DecidableEq, Repr

namespace Aggregation

/-- The written form. -/
def text : Aggregation → String
  | unset => ""
  | none => "none"
  | shared => "shared"
  | composition => "composition"
  | other s => s

/-- Reads the written form; every text is read. -/
def ofText (s : String) : Aggregation :=
  if s = "" then unset
  else if s = "none" then none
  else if s = "shared" then shared
  else if s = "composition" then composition
  else other s

/-- A known kind, or none given. -/
def isValid : Aggregation → Bool
  | other _ => false
  | _ => true

/-- An aggregation that was not given is `none`. -/
def settle : Aggregation → Aggregation
  | unset => none
  | a => a

/-- Reads a loosely written kind: any case, `composite`, and the codes 0, 1 and 2. -/
def normalize? (raw : String) : Option Aggregation :=
  let s := Text.toLower (Text.trim raw)
  if s = "" ∨ s = "none" ∨ s = "0" then some none
  else if s = "shared" ∨ s = "1" then some shared
  else if s = "composite" ∨ s = "composition" ∨ s = "2" then some composition
  else Option.none

/-- The normal form of a loosely written kind; one with no equivalent stays as it is. -/
def normalize (raw : String) : Aggregation := (normalize? raw).getD (other raw)

end Aggregation

end ObjectLowering.Model
