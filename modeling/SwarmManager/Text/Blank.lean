/-!
# Blank characters

Three rules of blank space are in use: the four blanks of JSON, the five that a
request body may consist of and still count as empty, and the full class of
white space that the relaxed reading of timestamps skips.
-/

namespace SwarmManager.Text

set_option autoImplicit false

/-- The blanks between the tokens of a JSON text. -/
def isJsonBlank (character : Char) : Bool :=
  character == ' ' || character == '\t' || character == '\n' || character == '\r'

/-- The ASCII blanks, as bytes: tab, line feed, form feed, carriage return and
space. -/
def isAsciiBlank (byte : UInt8) : Bool :=
  byte == 9 || byte == 10 || byte == 12 || byte == 13 || byte == 32

/-- The characters with the Unicode property `White_Space`. -/
def isWhiteSpace (character : Char) : Bool :=
  let point := character.toNat
  (9 ≤ point && point ≤ 13) || point == 0x20 || point == 0x85 || point == 0xA0 ||
    point == 0x1680 || (0x2000 ≤ point && point ≤ 0x200A) || point == 0x2028 ||
    point == 0x2029 || point == 0x202F || point == 0x205F || point == 0x3000

/-- A text without its leading white space. -/
def skipWhiteSpace (text : List Char) : List Char :=
  text.dropWhile isWhiteSpace

end SwarmManager.Text
