/-
  The files of lowered units: a header for each unit, and a source file for
  each unit with definitions.
-/
import ObjectLowering.Lowering.CodeUnit
import ObjectLowering.Text.Parts
import ObjectLowering.Text.Path

namespace ObjectLowering.Artifact

open Lowering Code Text

/-- One generated file. -/
structure SourceFile where
  name : String
  /-- The unit that the file belongs to. -/
  className : String
  contentType : String
  content : String
deriving DecidableEq, Repr

/-- How files are laid out and where they are put. -/
structure Layout where
  /-- The namespace around declarations and definitions, if not empty. -/
  scope : String := ""
  /-- The header that declares the base class of simulation objects; empty selects the default. -/
  runtimeHeader : String := ""
  /-- What every key starts with. -/
  folder : String := ""
  /-- Files of an earlier run are replaced. -/
  overwrites : Bool := false
deriving DecidableEq, Repr

/-- The header that declares the base class of simulation objects by default. -/
def defaultRuntimeHeader : String := "sim/runtime.h"

/-- The header to include for simulation objects. -/
def Layout.runtime (l : Layout) : String :=
  if l.runtimeHeader = "" then defaultRuntimeHeader else l.runtimeHeader

/-- The key under which a file is stored. -/
def Layout.key (l : Layout) (name : String) : String :=
  if l.folder = "" then name else Path.join l.folder name

/-- The first line of every file. -/
def banner : String := "// Code generated by simgen. DO NOT EDIT."

/-- The macro that keeps a header from being read twice. -/
def includeGuard (name : String) : String := "SIMGEN_" ++ constantName name ++ "_H"

/-- Lines of generated text, with their own indentation. -/
def bodyEdits (text : String) : List Edit :=
  (splitOn '\n' (trimEnd (· == '\n') text)).map Edit.line

/-- The start of the namespace. -/
def scopeStart (scope : String) : List Edit :=
  if scope = "" then [] else [.line ("namespace " ++ scope ++ " \x7b"), .line ""]

/-- The end of the namespace. -/
def scopeEnd (scope : String) : List Edit :=
  if scope = "" then [] else [.line "", .line ("\x7d // namespace " ++ scope)]

/-- The families of units by name; of two units with one name the later counts. -/
def familyOf (units : List CodeUnit) (name : String) : Option Family :=
  (units.reverse.find? fun u => u.name == name).map (·.family)

/-- A forward declaration. A name of no unit is taken for a class. -/
def forwardLine (units : List CodeUnit) (name : String) : String :=
  (if familyOf units name = some .struct then "struct " else "class ") ++ name ++ ";"

/-- The directives that include what a unit needs. -/
def includeEdits (l : Layout) (u : CodeUnit) : List Edit :=
  u.needs.headers.map (fun h => Edit.line ("#include <" ++ h ++ ">")) ++
  (if u.family = .simObject then
    [.line "", .line ("#include \"" ++ l.runtime ++ "\"")] else []) ++
  if u.needs.includes.isEmpty then []
  else .line "" :: u.needs.includes.map fun n => Edit.line ("#include \"" ++ n ++ ".h\"")

/-- The forward declarations of a unit, with a blank line behind them. -/
def forwardEdits (units : List CodeUnit) (u : CodeUnit) : List Edit :=
  if u.needs.forwards.isEmpty then []
  else u.needs.forwards.map (fun n => Edit.line (forwardLine units n)) ++ [.line ""]

/-- The header of a unit among given units. -/
def headerEdits (l : Layout) (units : List CodeUnit) (u : CodeUnit) : List Edit :=
  let guarded := includeGuard u.name
  [.line banner, .line ("#ifndef " ++ guarded), .line ("#define " ++ guarded), .line ""] ++
    includeEdits l u ++ [.line ""] ++ scopeStart l.scope ++ forwardEdits units u ++
    bodyEdits u.declaration ++ scopeEnd l.scope ++ [.line "", .line ("#endif // " ++ guarded)]

/-- The source file of a unit. -/
def sourceEdits (l : Layout) (u : CodeUnit) : List Edit :=
  [.line banner, .line ("#include \"" ++ u.name ++ ".h\""), .line ""] ++
    scopeStart l.scope ++ bodyEdits u.definition ++ scopeEnd l.scope

/-- The files of one unit among given units. -/
def unitFiles (l : Layout) (units : List CodeUnit) (u : CodeUnit) : List SourceFile :=
  { name := u.name ++ ".h", className := u.name, contentType := "text/x-c++hdr"
    content := render (headerEdits l units u) } ::
  if isBlankText u.definition then []
  else [{
    name := u.name ++ ".cpp", className := u.name, contentType := "text/x-c++src"
    content := render (sourceEdits l u) }]

/-- The files of units, in unit order. -/
def assemble (l : Layout) (units : List CodeUnit) : List SourceFile :=
  units.flatMap (unitFiles l units)

end ObjectLowering.Artifact
