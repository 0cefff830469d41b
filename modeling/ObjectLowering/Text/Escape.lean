/-
  Percent escaping of paths in addresses: a character outside the kept set
  stands as the upper-case hexadecimal bytes of its UTF-8 encoding.
-/
import ObjectLowering.Text.Hex

namespace ObjectLowering.Text

/-- ASCII letters, digits and the four marks that no address escapes. -/
def isUnreserved (c : Char) : Bool := c.isAlphanum || "-_.~".toList.contains c

/-- What stands in the path of an address as it is. -/
def isPathChar (c : Char) : Bool := isUnreserved c || "$&+,/:;=@".toList.contains c

/-- What stands in the key of a bucket address as it is. -/
def isKeyChar (c : Char) : Bool := isUnreserved c || c == '/'

/-- A byte behind a percent sign. -/
def escapedByte (b : UInt8) : String := "%" ++ hexUpper 2 b.toNat

/-- The text with every character outside the kept set escaped. -/
def escape (keeps : Char → Bool) (s : String) : String :=
  String.join (s.toList.map fun c =>
    if keeps c then c.toString
    else String.join (c.toString.toUTF8.toList.map escapedByte))

/-- A whole path in an address. A single star stands for any path and is kept. -/
def escapePath (path : String) : String := if path = "*" then path else escape isPathChar path

end ObjectLowering.Text
