/-!
# Reading YAML text

Before a YAML text is read, every way to end a line but the two Unicode
separators becomes a line feed.  Most control characters may not occur at all.

A cursor is a place in such a text.  It knows the characters to come, how many
bytes have gone by, and its line and column.  Columns count characters.
-/

namespace SwarmManager.Yaml

set_option autoImplicit false

/-! ## Characters -/

/-- Whether a character may occur in a YAML text. -/
def isAllowed (character : Char) : Bool :=
  let point := character.toNat
  point == 0x9 || point == 0xA || point == 0xD || (0x20 ≤ point && point ≤ 0x7E) ||
    point == 0x85 || (0xA0 ≤ point && point ≤ 0xD7FF) || (0xE000 ≤ point && point ≤ 0xFFFD) ||
    0x10000 ≤ point

/-- Whether a character ends a line, after line ends have been unified. -/
def isBreak (character : Char) : Bool :=
  character == '\n' || character.toNat == 0x2028 || character.toNat == 0x2029

/-- Whether a character is a space or a tab. -/
def isBlank (character : Char) : Bool := character == ' ' || character == '\t'

/-- Whether a character is a blank or ends a line. -/
def isBlankOrBreak (character : Char) : Bool := isBlank character || isBreak character

/-- Whether a character may stand in the name of an anchor, a directive or a tag
handle. -/
def isNameCharacter (character : Char) : Bool :=
  character.isAlphanum || character == '_' || character == '-'

/-- The byte order mark. -/
def byteOrderMark : Char := Char.ofNat 0xFEFF

/-- A text with every line end but the Unicode separators as a line feed. -/
def unifyBreaks : List Char → List Char
  | [] => []
  | '\r' :: '\n' :: rest => '\n' :: unifyBreaks rest
  | character :: rest =>
      (if character == '\r' || character.toNat == 0x85 then '\n' else character) ::
        unifyBreaks rest

/-- The characters to read of a text, if all of them may occur. -/
def readable? (text : String) : Option (List Char) :=
  if text.toList.all isAllowed then some (unifyBreaks text.toList) else none

/-! ## Cursors -/

/-- A place in a text.  The index counts the bytes before it. -/
structure Cursor where
  rest : List Char
  index : Nat
  line : Nat
  column : Nat

namespace Cursor

/-- The start of a text. -/
def start (text : List Char) : Cursor := ⟨text, 0, 0, 0⟩

/-- The place after the next character. -/
def next (cursor : Cursor) : Cursor :=
  match cursor.rest with
  | [] => cursor
  | character :: rest =>
      let index := cursor.index + character.utf8Size
      if isBreak character then ⟨rest, index, cursor.line + 1, 0⟩
      else ⟨rest, index, cursor.line, cursor.column + 1⟩

/-- The place after so many characters. -/
def skip (cursor : Cursor) : Nat → Cursor
  | 0 => cursor
  | count + 1 => cursor.next.skip count

/-- The characters up to the first that does not fit, and the place there. -/
def takeWhile (cursor : Cursor) (fits : Char → Bool) : List Char × Cursor :=
  let taken := cursor.rest.takeWhile fits
  (taken, cursor.skip taken.length)

/-- The place of the first character that does not fit. -/
def skipWhile (cursor : Cursor) (fits : Char → Bool) : Cursor := (cursor.takeWhile fits).2

/-- The next character. -/
def peek? (cursor : Cursor) : Option Char := cursor.rest.head?

/-- Whether the next character is the given one. -/
def isAt (cursor : Cursor) (character : Char) : Bool := cursor.peek? == some character

/-- Whether the character at an offset is a blank, ends a line, or is past the
end. -/
def isBlankAt (cursor : Cursor) (offset : Nat) : Bool :=
  match cursor.rest[offset]? with
  | some character => isBlankOrBreak character
  | none => true

/-- Whether the text ends here. -/
def isEnd (cursor : Cursor) : Bool := cursor.rest.isEmpty

/-- Whether three of a character stand at the start of a line, alone. -/
def isMarker (cursor : Cursor) (character : Char) : Bool :=
  cursor.column == 0 && cursor.rest.take 3 == [character, character, character] &&
    cursor.isBlankAt 3

/-- Whether a document starts or ends here. -/
def isDocumentMarker (cursor : Cursor) : Bool := cursor.isMarker '-' || cursor.isMarker '.'

/-- The end of the line, or the place of the next character that is neither a
blank nor in a comment; none if that is not the end of the line. -/
def lineEnd? (cursor : Cursor) : Option Cursor :=
  let afterBlanks := cursor.skipWhile isBlank
  let afterComment :=
    if afterBlanks.isAt '#' then afterBlanks.skipWhile fun character => !isBreak character
    else afterBlanks
  match afterComment.peek? with
  | none => some afterComment
  | some character => if isBreak character then some afterComment.next else none

end Cursor

end SwarmManager.Yaml
