/-
  Reading an id back from its text.
-/
import ObjectLowering.Lowering.IdTable
import ObjectLowering.Text.Parts

namespace ObjectLowering.Report

open Text

/-- Why a text is no id. -/
inductive IdTextError where
  /-- The text is not `0x` with something behind it. -/
  | malformed (text : String)
  /-- A character is no hexadecimal digit. -/
  | notHex
  /-- The number takes more than 64 bits. -/
  | tooLarge
deriving DecidableEq, Repr

/-- Continues a number with hexadecimal digits; the first fault from the left counts. -/
def readHex (n : Nat) : List Char → Except IdTextError UInt64
  | [] => .ok n.toUInt64
  | c :: rest =>
    match hexValue? c with
    | none => .error .notHex
    | some d => if UInt64.size ≤ 16 * n + d then .error .tooLarge else readHex (16 * n + d) rest

/-- The id of a text. -/
def parseId (s : String) : Except IdTextError UInt64 :=
  match afterFront? ['0', 'x'] s.toList with
  | some (c :: rest) => readHex 0 (c :: rest)
  | _ => .error (.malformed s)

end ObjectLowering.Report
