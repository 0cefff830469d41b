/-
  Multiplicities of features: a closed set of cardinalities, and any other
  text as it was given.
-/
import ObjectLowering.Text.Blank

namespace ObjectLowering.Model

/-- How many values a feature holds. -/
inductive Multiplicity where
  | unset
  | one
  | optional
  | many
  | zeroMany
  | oneMany
  /-- A text outside the closed set. -/
  | other (text : String)
deriving DecidableEq, Repr

namespace Multiplicity

/-- The written form. -/
def text : Multiplicity → String
  | unset => ""
  | one => "1"
  | optional => "0..1"
  | many => "*"
  | zeroMany => "0..*"
  | oneMany => "1..*"
  | other s => s

/-- Reads the written form; every text is read. -/
def ofText (s : String) : Multiplicity :=
  if s = "" then unset
  else if s = "1" then one
  else if s = "0..1" then optional
  else if s = "*" then many
  else if s = "0..*" then zeroMany
  else if s = "1..*" then oneMany
  else other s

/-- A member of the closed set. -/
def isValid : Multiplicity → Bool
  | other _ => false
  | _ => true

/-- A collection of values. -/
def isMany : Multiplicity → Bool
  | many | zeroMany | oneMany => true
  | _ => false

/-- At most one value. -/
def isOptional : Multiplicity → Bool
  | optional => true
  | _ => false

/-- Reads a loosely written multiplicity: blanks are ignored, `n` stands for `*` and `1..1`
    for `1`. -/
def normalize? (raw : String) : Option Multiplicity :=
  let kept := (Text.trimList Text.isBlank raw.toList).filter (· != ' ')
  let s := String.ofList (kept.map fun c => if c = 'n' then '*' else c)
  match ofText s with
  | other t => if t = "1..1" then some one else none
  | m => some m

/-- The normal form of a loosely written multiplicity; one with no equivalent stays as it is. -/
def normalize (raw : String) : Multiplicity := (normalize? raw).getD (other raw)

end Multiplicity

end ObjectLowering.Model
