/-
  The arguments of the program: a command among its flags.

  The command is looked for first, knowing only the flags that all commands
  share; the remaining words are then read with the flags of the command.
-/
import ObjectLowering.Command.Flag
import ObjectLowering.Text.Casing

namespace ObjectLowering.Command

open Text

/-- The commands. -/
inductive Verb where
  | generate
  | validate
  | ids
  | dump
deriving DecidableEq, Repr

namespace Verb

/-- All commands. -/
def all : List Verb := [generate, validate, ids, dump]

/-- The name of a command. -/
def name : Verb → String
  | generate => "generate"
  | validate => "validate"
  | ids => "ids"
  | dump => "dump"

/-- The command with a name. -/
def ofName? (s : String) : Option Verb := all.find? (·.name == s)

/-- The flags that only this command has. -/
def flags : Verb → List Flag
  | generate => [{ name := "dry-run", isSwitch := true }, { name := "overwrite", isSwitch := true }]
  | ids => [{ name := "baseline", letter := some 'b' },
      { name := "write", letter := some 'w', isSwitch := true }]
  | validate | dump => []

end Verb

/-- The name of the program. -/
def programName : String := "simgen"

/-- The flags that all commands share. -/
def commonFlags : List Flag :=
  [{ name := "config", letter := some 'c' }, { name := "model", letter := some 'm' },
    { name := "log-level" }]

/-- The flag that asks for help. -/
def helpFlag : Flag := { name := "help", letter := some 'h', isSwitch := true }

/-! ## Looking for the command -/

/-- Not knowing better, a flag without `=` takes the next word unless it is a known switch. -/
def takesNext (flags : List Flag) (word : String) : Bool :=
  let isSwitch (f : Option Flag) : Bool := (f.map (·.isSwitch)).getD false
  !holds word "=" &&
    ((startsWith word "--" && !isSwitch (Flag.named? flags (dropFront word "--"))) ||
      match word.toList with
      | ['-', c] => c.toNat < 0x80 && !isSwitch (Flag.lettered? flags c)
      | _ => false)

/-- The words that are neither flags nor values of flags. -/
def plainWords (flags : List Flag) : List String → List String
  | [] => []
  | word :: rest =>
    if word = "--" then []
    else if takesNext flags word then
      match rest with
      | _ :: next :: rest => plainWords flags (next :: rest)
      | _ => []
    else if word = "" ∨ startsWith word "-" then plainWords flags rest
    else word :: plainWords flags rest

/-- The words without the first plain occurrence of one. -/
def withoutWord (flags : List Flag) (gone : String) : List String → List String
  | [] => []
  | word :: rest =>
    if word = "--" then word :: rest
    else if takesNext flags word then
      match rest with
      | value :: rest => word :: value :: withoutWord flags gone rest
      | [] => [word]
    else if word = gone then rest
    else word :: withoutWord flags gone rest

/-- The names that are suggested for others. -/
def suggestedNames : List String := Verb.all.map Verb.name ++ ["completion"]

/-- The names that a word comes close to, or that it starts. -/
def suggestions (word : String) : List String :=
  let typed := toLower word
  suggestedNames.filter fun name =>
    editDistance typed.toUTF8.toList name.toUTF8.toList ≤ 2 || startsWith name typed

/-! ## Requests -/

/-- What a command line asks for. -/
inductive Request where
  | help
  | run (verb : Verb) (flags : Reading)

/-- Reads the words of a command, which takes flags only. -/
def readVerb (v : Verb) (words : List String) : Except ArgumentError Request := do
  let r ← readWords (commonFlags ++ v.flags ++ [helpFlag]) {} words
  if r.isOn helpFlag.name then return .help
  else match r.words with
    | [] => return .run v r
    | word :: _ => throw (.unknownCommand word (programName ++ " " ++ v.name) [])

/-- Reads words around no command of this program's own, which end in help. -/
def readRest (words : List String) : Except ArgumentError Request := do
  let _ ← readWords (commonFlags ++ [helpFlag]) {} words
  return .help

/-- Reads a command line. -/
def parse (words : List String) : Except ArgumentError Request :=
  match plainWords commonFlags words with
  | [] => readRest words
  | word :: _ =>
    match Verb.ofName? word with
    | some v => readVerb v (withoutWord commonFlags word words)
    | none =>
      if word = "help" ∨ word = "completion" then
        readRest (withoutWord commonFlags word words)
      else .error (.unknownCommand word programName (suggestions word))

end ObjectLowering.Command
