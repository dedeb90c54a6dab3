import SwarmManager.Text.Decimal

/-!
# JSON values

A `Value` is what a text says as far as it is JSON.  Where a text stops being
JSON, the value has the leaf `broken`, and everything that stood before that
point is kept in the order in which it was written.  A reader of typed records
can therefore walk a value from left to right and meet faults of form and faults
of content in the order of the text.

Strings that encode no text, and numbers that are not written as integers, have
leaves without content: no record holds one, and whoever skips them need not
know more.
-/

namespace SwarmManager.Json

set_option autoImplicit false

/-- A JSON value, up to the point where its text stops being JSON. -/
inductive Value where
  | null
  | bool (truth : Bool)
  /-- A number written as an integer, other than minus zero. -/
  | integer (number : Int)
  /-- A number with a fraction or an exponent, or minus zero. -/
  | real
  /-- A string, or `none` if its bytes or escapes encode no text. -/
  | string (text : Option String)
  | array (items : List Value)
  /-- Members in the order of the text, repeated keys included. -/
  | object (members : List (Option String × Value))
  /-- The text is no JSON from here on. -/
  | broken

namespace Value

/-- The string value of a text. -/
def ofText (text : String) : Value := .string (some text)

/-- The object with the given members. -/
def ofMembers (members : List (String × Value)) : Value :=
  .object (members.map fun member => (some member.1, member.2))

mutual
/-- Whether the text of a value is JSON to its end. -/
def isWhole : Value → Bool
  | .array items => areWhole items
  | .object members => membersAreWhole members
  | .broken => false
  | .null => true
  | .bool _ => true
  | .integer _ => true
  | .real => true
  | .string _ => true

/-- Whether all of a list of values are whole. -/
def areWhole : List Value → Bool
  | [] => true
  | value :: rest => value.isWhole && areWhole rest

/-- Whether the values of all members are whole. -/
def membersAreWhole : List (Option String × Value) → Bool
  | [] => true
  | (_, value) :: rest => value.isWhole && membersAreWhole rest
end

end Value

/-! ## Writing -/

/-- The lower-case hexadecimal digit of a number below sixteen. -/
def hexDigit (number : Nat) : Char :=
  if number < 10 then Decimal.digit number else Char.ofNat (87 + number)

/-- A character inside a string literal.  Quotes, backslashes and the control
characters are escaped, the latter by a letter if they have one. -/
def escape (character : Char) : List Char :=
  if character = '"' then ['\\', '"']
  else if character = '\\' then ['\\', '\\']
  else if character.toNat = 8 then ['\\', 'b']
  else if character.toNat = 9 then ['\\', 't']
  else if character.toNat = 10 then ['\\', 'n']
  else if character.toNat = 12 then ['\\', 'f']
  else if character.toNat = 13 then ['\\', 'r']
  else if character.toNat < 32 then
    ['\\', 'u', '0', '0', hexDigit (character.toNat / 16), hexDigit (character.toNat % 16)]
  else [character]

/-- A string literal. -/
def quote (text : String) : List Char :=
  '"' :: text.toList.flatMap escape ++ ['"']

/-- The numeral of an integer. -/
def integerChars (number : Int) : List Char :=
  if number < 0 then '-' :: Decimal.digits number.natAbs else Decimal.digits number.natAbs

namespace Value

mutual
/-- The compact text of a value.  Leaves that no record holds are written as
`null`. -/
def render : Value → List Char
  | .null => ['n', 'u', 'l', 'l']
  | .bool true => ['t', 'r', 'u', 'e']
  | .bool false => ['f', 'a', 'l', 's', 'e']
  | .integer number => integerChars number
  | .string (some text) => quote text
  | .array items => '[' :: renderItems items ++ [']']
  | .object members => '\x7b' :: renderMembers members ++ ['\x7d']
  | .real => ['n', 'u', 'l', 'l']
  | .string none => ['n', 'u', 'l', 'l']
  | .broken => ['n', 'u', 'l', 'l']

/-- Values with commas between them. -/
def renderItems : List Value → List Char
  | [] => []
  | [value] => value.render
  | value :: next :: rest => value.render ++ ',' :: renderItems (next :: rest)

/-- Members with commas between them. -/
def renderMembers : List (Option String × Value) → List Char
  | [] => []
  | [(key, value)] => quote (key.getD "") ++ ':' :: value.render
  | (key, value) :: next :: rest =>
      quote (key.getD "") ++ ':' :: value.render ++ ',' :: renderMembers (next :: rest)
end

/-- The compact text of a value, as a string. -/
def text (value : Value) : String := String.ofList value.render

end Value

end SwarmManager.Json
