/-
  Flags of a command line.

  A flag has a long name and perhaps a letter.  A switch stands for itself,
  any other flag takes a value: behind `=`, behind the letter, or the next
  word.  Letters of switches may stand together in one word.
-/
import ObjectLowering.Config.Weak
import ObjectLowering.Text.Distance
import ObjectLowering.Text.Quoted

namespace ObjectLowering.Command

open Text

/-- A flag. -/
structure Flag where
  name : String
  letter : Option Char := none
  isSwitch : Bool := false
deriving DecidableEq, Repr

namespace Flag

/-- The flag with a long name. -/
def named? (flags : List Flag) (name : String) : Option Flag := flags.find? (·.name == name)

/-- The flag with a letter. -/
def lettered? (flags : List Flag) (c : Char) : Option Flag := flags.find? (·.letter == some c)

/-- The flag in messages. -/
def label (f : Flag) : String :=
  match f.letter with
  | some c => "-" ++ String.singleton c ++ ", --" ++ f.name
  | none => "--" ++ f.name

end Flag

/-- Why words are no command line. -/
inductive ArgumentError where
  | unknownCommand (word place : String) (suggestions : List String)
  | unknownFlag (name : String)
  | unknownLetter (letter : Char) (letters : String)
  | noValue (word : String)
  | noLetterValue (letter : Char) (letters : String)
  | malformed (word : String)
  | noSwitchValue (value label : String)
deriving DecidableEq, Repr

/-- The lines that suggest commands. -/
def suggestionText (names : List String) : String :=
  if names.isEmpty then ""
  else "\n\nDid you mean this?\n" ++ String.join (names.map fun n => "\t" ++ n ++ "\n")

/-- The text of an error. -/
def ArgumentError.message : ArgumentError → String
  | unknownCommand word place suggestions =>
    "unknown command " ++ quote word ++ " for " ++ quote place ++ suggestionText suggestions
  | unknownFlag name => "unknown flag: --" ++ name
  | unknownLetter letter letters =>
    "unknown shorthand flag: " ++ quoteChar letter ++ " in -" ++ letters
  | noValue word => "flag needs an argument: " ++ word
  | noLetterValue letter letters =>
    "flag needs an argument: " ++ quoteChar letter ++ " in -" ++ letters
  | malformed word => "bad flag syntax: " ++ word
  | noSwitchValue value label =>
    "invalid argument " ++ quote value ++ " for " ++ quote label ++
      " flag: strconv.ParseBool: parsing " ++ quote value ++ ": invalid syntax"

/-! ## Reading flags -/

/-- Values of flags by name, the latest first, and the words that are no flags. -/
structure Reading where
  values : List (String × String) := []
  words : List String := []
deriving DecidableEq, Repr

namespace Reading

/-- Gives a flag a value; a switch takes the words for truth values only. -/
def assign (r : Reading) (f : Flag) (value : String) : Except ArgumentError Reading :=
  if f.isSwitch ∧ (Config.Weak.readBool? value).isNone then
    .error (.noSwitchValue value f.label)
  else .ok { r with values := (f.name, value) :: r.values }

/-- The value of a flag, if it was given. -/
def value? (r : Reading) (name : String) : Option String := r.values.lookup name

/-- A switch is on. -/
def isOn (r : Reading) (name : String) : Bool :=
  ((r.value? name).bind Config.Weak.readBool?).getD false

end Reading

/-- The value of a switch that stands alone. -/
def switchedOn : String := "true"

/-- The text before the first `=` and the one behind it, if there is one. -/
def cutAssignment (s : String) : String × Option String :=
  match cutFirst? ['='] s.toList with
  | some (before, rest) => (String.ofList before, some (String.ofList rest))
  | none => (s, none)

/-- Reads a word with a long name; tells whether it takes the next word. -/
def readLong (flags : List Flag) (r : Reading) (word : String) (next : Option String) :
    Except ArgumentError (Reading × Bool) :=
  let body := String.ofList (word.toList.drop 2)
  if startsWith body "-" ∨ startsWith body "=" then .error (.malformed word)
  else
    let (name, given) := cutAssignment body
    match Flag.named? flags name with
    | none => .error (.unknownFlag name)
    | some f =>
      match given, f.isSwitch, next with
      | some value, _, _ => (r.assign f value).map (·, false)
      | none, true, _ => (r.assign f switchedOn).map (·, false)
      | none, false, some value => (r.assign f value).map (·, true)
      | none, false, none => .error (.noValue word)

/-- The character that the first byte of a character stands for by itself. -/
def firstByte (c : Char) : Char :=
  Char.ofNat ((String.singleton c).toUTF8.toList.headD 0).toNat

/-- Letters that mean nothing here: those of switches that a test program takes. -/
def isForeign (letters : List Char) : Bool := "test.".toList.isPrefixOf letters

/-- Reads letters of one word; tells whether they take the next word. -/
def readLetters (flags : List Flag) (next : Option String) (r : Reading) :
    List Char → Except ArgumentError (Reading × Bool)
  | [] => .ok (r, false)
  | c :: rest =>
    if isForeign (c :: rest) then .ok (r, false)
    else match Flag.lettered? flags c with
    | none => .error (.unknownLetter (firstByte c) (String.ofList (c :: rest)))
    | some f =>
      match rest, f.isSwitch, next with
      | '=' :: d :: ds, _, _ => (r.assign f (String.ofList (d :: ds))).map (·, false)
      | _, true, _ =>
        match r.assign f switchedOn with
        | .ok r => readLetters flags next r rest
        | .error e => .error e
      | _ :: _, false, _ => (r.assign f (String.ofList rest)).map (·, false)
      | [], false, some value => (r.assign f value).map (·, true)
      | [], false, none => .error (.noLetterValue c (String.singleton c))

/-- Reads one word that starts with `-`. -/
def readFlag (flags : List Flag) (r : Reading) (word : String) (next : Option String) :
    Except ArgumentError (Reading × Bool) :=
  if startsWith word "--" then readLong flags r word next
  else readLetters flags next r (word.toList.drop 1)

/-- Reads the words of a command line; behind `--` there are no more flags. -/
def readWords (flags : List Flag) (r : Reading) : List String → Except ArgumentError Reading
  | [] => .ok r
  | word :: rest =>
    if word = "--" then .ok { r with words := r.words ++ rest }
    else if !startsWith word "-" ∨ word = "-" then
      readWords flags { r with words := r.words ++ [word] } rest
    else
      match readFlag flags r word rest.head?, rest with
      | .error e, _ => .error e
      | .ok (r, true), _ :: rest => readWords flags r rest
      | .ok (r, _), rest => readWords flags r rest

end ObjectLowering.Command
