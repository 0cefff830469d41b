/-
  Quoted texts, as messages show them: between double quotes, with every
  character that is not printable escaped.
-/
import ObjectLowering.Text.Hex
import ObjectLowering.Text.Printable

namespace ObjectLowering.Text

/-- How one character stands inside a quoted text. -/
def quotedChar (c : Char) : List Char :=
  if c = '"' then ['\\', '"']
  else if c = '\\' then ['\\', '\\']
  else if isPrintable c then [c]
  else if c = '\x07' then ['\\', 'a']
  else if c = '\x08' then ['\\', 'b']
  else if c = '\x0c' then ['\\', 'f']
  else if c = '\n' then ['\\', 'n']
  else if c = '\r' then ['\\', 'r']
  else if c = '\t' then ['\\', 't']
  else if c = '\x0b' then ['\\', 'v']
  else if c.toNat < 0x20 ∨ c.toNat = 0x7f then '\\' :: 'x' :: hexDigits hexDigit 2 c.toNat
  else if c.toNat < 0x10000 then '\\' :: 'u' :: hexDigits hexDigit 4 c.toNat
  else '\\' :: 'U' :: hexDigits hexDigit 8 c.toNat

/-- The text between double quotes, escaped so that it is printable. -/
def quote (s : String) : String :=
  String.ofList ('"' :: s.toList.flatMap quotedChar ++ ['"'])

/-- A character between single quotes. -/
def quoteChar (c : Char) : String :=
  String.ofList ('\'' ::
    (if c = '\'' then ['\\', '\''] else if c = '"' then [c] else quotedChar c) ++ ['\''])

end ObjectLowering.Text
