/-
  The five accessors of a simulation object.

  Every accessor is a switch over ids.  `Accessor.covers` says for which
  locations it has a case, `Accessor.caseEdits` what the case does.  State
  variables have cases in the two value accessors.
-/
import ObjectLowering.Code.Stream
import ObjectLowering.Lowering.Location

namespace ObjectLowering.Lowering

open Model Code

/-- The accessors. -/
inductive Accessor where
  | getValue
  | setValue
  | getReference
  | setReference
  | removeReference
deriving DecidableEq, Repr

namespace Accessor

/-- All accessors in the order they are written. -/
def all : List Accessor := [.getValue, .setValue, .getReference, .setReference, .removeReference]

/-- The accessor deals with references, not with values. -/
def isReference : Accessor → Bool
  | .getReference | .setReference | .removeReference => true
  | .getValue | .setValue => false

/-- The accessor changes the object. -/
def writes : Accessor → Bool
  | .setValue | .setReference | .removeReference => true
  | .getValue | .getReference => false

/-- The name of the function. -/
def name : Accessor → String
  | .getValue => "GetValue"
  | .setValue => "SetValue"
  | .getReference => "GetReference"
  | .setReference => "SetReference"
  | .removeReference => "RemoveReference"

/-- The result type of the function. -/
def result : Accessor → String
  | .getReference => "sim::ObjectRef"
  | _ => "void"

/-- The parameters of the function. -/
def parameters : Accessor → String
  | .getValue => "uint64_t id, const sim::Key& index, sim::Value& value"
  | .setValue => "uint64_t id, const sim::Key& index, const sim::Value& value"
  | .getReference => "uint64_t id, const sim::Key& index"
  | .setReference => "uint64_t id, const sim::Key& index, const sim::ObjectRef& ref"
  | .removeReference => "uint64_t id, const sim::Key& index"

/-- The mark of functions that do not change the object. -/
def constness (a : Accessor) : String := if a.writes then "" else " const"

/-- The line that declares the function. -/
def declaration (a : Accessor) : String :=
  a.result ++ " " ++ a.name ++ "(" ++ a.parameters ++ ")" ++ a.constness ++ " override;"

/-- The head of the definition of the function. -/
def head (a : Accessor) (className : String) : String :=
  a.result ++ " " ++ className ++ "::" ++ a.name ++ "(" ++ a.parameters ++ ")" ++ a.constness

/-- The accessor has a case for a location: the right sort, and not derived if it writes. -/
def covers (a : Accessor) (l : Location) : Bool :=
  (l.member.category == .reference) == a.isReference && !(a.writes && l.member.isDerived)

/-- The locations with a case, in order. -/
def locations (a : Accessor) (ls : List Location) : List Location := ls.filter a.covers

/-! ## Cases -/

/-- The statement that hands out a value. -/
def getStatement (c : Category) (expr : String) : String :=
  match c with
  | .int => "value.SetInt(static_cast<int64_t>(" ++ expr ++ "));"
  | .float => "value.SetFloat(static_cast<double>(" ++ expr ++ "));"
  | .string => "value.SetString(" ++ expr ++ ");"
  | .bool => "value.SetBool(" ++ expr ++ ");"
  | .verbatim | .reference | .struct => "value.Set(" ++ expr ++ ");"

/-- The expression of the value that was handed in. -/
def conversion (c : Category) (s : Storage) : String :=
  match c with
  | .int => "static_cast<" ++ s.elementType ++ ">(value.GetInt())"
  | .float => "static_cast<" ++ s.elementType ++ ">(value.GetFloat())"
  | .string => "value.GetString()"
  | .bool => "value.GetBool()"
  | .verbatim | .reference | .struct => "value.Get<" ++ s.elementType ++ ">()"

/-- The condition under which a location can be read, if there is one, and the expression that
    reads it. -/
def readAccess (s : Storage) (base : String) : Option String × String :=
  match s.shape with
  | .keyed =>
    let k := Location.indexOf s
    let present := base ++ ".count(" ++ k ++ ") != 0"
    let element := base ++ ".at(" ++ k ++ ")"
    if s.isShared then (some (present ++ " && " ++ element), "*" ++ element)
    else (some present, element)
  | .optional => (some base, "*" ++ base)
  | .scalar => if s.isShared then (some base, "*" ++ base) else (none, base)

/-- The statement that writes a location. -/
def writeAccess (s : Storage) (base value : String) : String :=
  let target := if s.shape = .keyed then base ++ "[" ++ Location.indexOf s ++ "]" else base
  if s.isShared then
    target ++ " = std::make_shared<" ++ s.elementType ++ ">(" ++ value ++ ");"
  else target ++ " = " ++ value ++ ";"

/-- What the case of a member does at its access expression. -/
def statements (a : Accessor) (m : Member) (base : String) : List Edit :=
  let s := m.storage
  let k := Location.indexOf s
  match a with
  | .getValue =>
    match readAccess s base with
    | (some guard, expr) =>
      [.opening ("if (" ++ guard ++ ")"), .line (getStatement m.category expr), .closing "",
        .line "break;"]
    | (none, expr) => [.line (getStatement m.category expr), .line "break;"]
  | .setValue => [.line (writeAccess s base (conversion m.category s)), .line "break;"]
  | .getReference =>
    if s.shape = .keyed then [.line ("return sim::MakeRef(" ++ base ++ ", " ++ k ++ ");")]
    else [.line ("return sim::MakeRef(" ++ base ++ ");")]
  | .setReference =>
    if s.shape = .keyed then
      [.line ("sim::Assign(" ++ base ++ "[" ++ k ++ "], ref);"), .line "break;"]
    else [.line ("sim::Assign(" ++ base ++ ", ref);"), .line "break;"]
  | .removeReference =>
    if s.shape = .keyed then [.line (base ++ ".erase(" ++ k ++ ");"), .line "break;"]
    else [.line (base ++ " = \x7b\x7d;"), .line "break;"]

/-- The access expression of a location in an accessor. -/
def base (a : Accessor) (l : Location) : String := if a.writes then l.writeBase else l.readBase

/-- A labelled case. -/
def labelled (label : String) (body : List Edit) : List Edit :=
  [.line ("case " ++ label ++ ":"), .indent] ++ body ++ [.dedent]

/-- The case of a location. -/
def caseEdits (a : Accessor) (l : Location) : List Edit :=
  labelled (ident l.key) (a.statements l.member (a.base l))

end Accessor

/-- A state variable that is addressed like a feature. -/
structure StateVariable where
  key : String
  name : String
deriving DecidableEq, Repr

/-- The case of a state variable. -/
def StateVariable.caseEdits (v : StateVariable) (a : Accessor) : List Edit :=
  match a with
  | .getValue => Accessor.labelled (ident v.key)
      [.line ("value.SetInt(static_cast<int64_t>(" ++ v.name ++ "));"), .line "break;"]
  | .setValue => Accessor.labelled (ident v.key)
      [.line (v.name ++ " = static_cast<uint64_t>(value.GetInt());"), .line "break;"]
  | _ => []

/-- The default case of a switch, which does nothing. -/
def defaultCase : List Edit := [.line "default:", .indent, .line "break;", .dedent]

/-- The definition of an accessor. -/
def Accessor.edits (a : Accessor) (className : String) (ls : List Location)
    (vs : List StateVariable) : List Edit :=
  [.opening (a.head className), .opening "switch (id)"] ++
  (a.locations ls).flatMap a.caseEdits ++ vs.flatMap (·.caseEdits a) ++ defaultCase ++
  [.closing ""] ++
  (if a = .getReference then [.line "return \x7b\x7d;"] else []) ++
  [.closing ""]

end ObjectLowering.Lowering
