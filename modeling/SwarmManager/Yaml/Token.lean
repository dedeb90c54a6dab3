import SwarmManager.Yaml.Scalar

/-!
# Tokens of YAML

Indentation and line ends become tokens of their own: a block collection begins
with the first entry further in than the lines around it, and ends with the first
line further out.

A mapping need not mark its keys.  Whatever could be a key is remembered until a
colon shows that it was one, and the tokens that mark the key, and the mapping if
it has just begun, are put in front of it then.  A key of this kind takes at most
one line and 1024 bytes.
-/

namespace SwarmManager.Yaml

set_option autoImplicit false

/-- The smallest parts of a YAML text. -/
inductive Token where
  | versionDirective (major minor : Nat)
  | tagDirective (handle : String)
  | documentStart
  | documentEnd
  | blockSequenceStart
  | blockMappingStart
  | blockEnd
  | flowSequenceStart
  | flowSequenceEnd
  | flowMappingStart
  | flowMappingEnd
  | blockEntry
  | flowEntry
  | key
  | value
  | alias (name : String)
  | anchor (name : String)
  /-- A tag, of which only the handle matters; it is empty if there is none. -/
  | tag (handle : String)
  | scalar (text : String) (isPlain : Bool)
  deriving DecidableEq

/-- A place where a key without a mark may have begun. -/
structure KeyStart where
  /-- Whether there has to be a key, by its indentation. -/
  isRequired : Bool
  /-- The number of tokens before the key. -/
  position : Nat
  cursor : Cursor

/-- What is known while a text is cut into tokens. -/
structure Cutting where
  cursor : Cursor
  tokens : Array Token
  /-- The column of the innermost block collection, -1 outside of all. -/
  indent : Int
  outerIndents : List Int
  /-- A possible key for the block level, under one for each open flow
  collection. -/
  keys : List (Option KeyStart)
  /-- Whether a key without a mark may begin here. -/
  keyAllowed : Bool

namespace Cutting

/-- The state before anything is read. -/
def start (text : List Char) : Cutting := ⟨.start text, #[], -1, [], [none], true⟩

/-- Whether a flow collection is open. -/
def inFlow (cutting : Cutting) : Bool := 1 < cutting.keys.length

/-- With one more token. -/
def emit (cutting : Cutting) (token : Token) : Cutting :=
  { cutting with tokens := cutting.tokens.push token }

/-- With another place in the text. -/
def moveTo (cutting : Cutting) (cursor : Cursor) : Cutting := { cutting with cursor := cursor }

/-- With another rule whether a key may begin. -/
def allowKey (cutting : Cutting) (allowed : Bool) : Cutting := { cutting with keyAllowed := allowed }

/-- With a token of so many characters. -/
def emitSkipping (cutting : Cutting) (token : Token) (length : Nat) : Cutting :=
  (cutting.moveTo (cutting.cursor.skip length)).emit token

/-! ## Possible keys -/

/-- Forget the possible key of the innermost level.  A required one must not be
forgotten. -/
def dropKey (cutting : Cutting) : Option Cutting :=
  match cutting.keys with
  | some key :: outer => if key.isRequired then none else some { cutting with keys := none :: outer }
  | _ => some cutting

/-- Whether a possible key is too long by now. -/
def isStale (cutting : Cutting) (key : KeyStart) : Bool :=
  key.cursor.line < cutting.cursor.line || key.cursor.index + 1024 < cutting.cursor.index

/-- Forget the possible keys that are too long by now. -/
def dropStaleKeys (cutting : Cutting) : Option Cutting := do
  let keys ← cutting.keys.mapM fun possible =>
    match possible with
    | some key =>
        if cutting.isStale key then if key.isRequired then none else some none
        else some (some key)
    | none => some none
  return { cutting with keys := keys }

/-- Remember that a key may begin here. -/
def saveKey (cutting : Cutting) : Option Cutting := do
  if !cutting.keyAllowed then return cutting
  let isRequired := !cutting.inFlow && cutting.indent == cutting.cursor.column
  let dropped ← cutting.dropKey
  let key : KeyStart := ⟨isRequired, dropped.tokens.size, dropped.cursor⟩
  return { dropped with keys := some key :: dropped.keys.tail }

/-! ## Indentation -/

/-- Begin a block collection at a column further in, with its token at a
position. -/
def indentTo (cutting : Cutting) (column position : Nat) (token : Token) : Cutting :=
  if cutting.inFlow || (column : Int) ≤ cutting.indent then cutting
  else
    { cutting with
      indent := column
      outerIndents := cutting.indent :: cutting.outerIndents
      tokens := cutting.tokens.insertIdxIfInBounds position token }

/-- End the block collections that are further in than a column. -/
def unindent (cutting : Cutting) (column : Int) : Cutting :=
  if cutting.inFlow then cutting else close cutting.indent cutting.outerIndents cutting.tokens
where
  /-- End block collections from the innermost on. -/
  close (indent : Int) (outer : List Int) (tokens : Array Token) : Cutting :=
    match outer with
    | [] => { cutting with indent := indent, outerIndents := [], tokens := tokens }
    | next :: rest =>
        if column < indent then close next rest (tokens.push .blockEnd)
        else { cutting with indent := indent, outerIndents := next :: rest, tokens := tokens }

/-! ## Blanks and comments -/

/-- The place of the next token. -/
def toNextToken : (fuel : Nat) → Cutting → Cutting
  | 0, cutting => cutting
  | fuel + 1, cutting =>
      let cursor := cutting.cursor
      let cursor :=
        if cursor.column == 0 && cursor.isAt byteOrderMark then cursor.next else cursor
      let tabsAllowed := cutting.inFlow || !cutting.keyAllowed
      let cursor := cursor.skipWhile fun character =>
        character == ' ' || (tabsAllowed && character == '\t')
      let cursor :=
        if cursor.isAt '#' then cursor.skipWhile fun character => !isBreak character else cursor
      if cursor.peek?.any isBreak then
        toNextToken fuel
          ((cutting.moveTo cursor.next).allowKey (cutting.keyAllowed || !cutting.inFlow))
      else cutting.moveTo cursor

/-! ## Directives -/

/-- The number at a cursor, of at most nine digits. -/
def versionNumber? (cursor : Cursor) : Option (Nat × Cursor) :=
  let (digits, after) := cursor.takeWhile Decimal.isDigit
  if digits.isEmpty || 9 < digits.length then none else some (Decimal.value digits, after)

/-- The handle at a cursor: an exclamation mark, or a name between two.  With an
open end, a name may lack the second mark. -/
def tagHandle? (openEnd : Bool) (cursor : Cursor) : Option (List Char × Cursor) :=
  if !cursor.isAt '!' then none
  else
    let (name, afterName) := cursor.next.takeWhile isNameCharacter
    if afterName.isAt '!' then some ('!' :: name ++ ['!'], afterName.next)
    else if name.isEmpty || openEnd then some ('!' :: name, afterName)
    else none

/-- Whether a character may stand in a tag. -/
def isTagCharacter (isVerbatim : Bool) (character : Char) : Bool :=
  isNameCharacter character || ";/?:@&=+$.%!~*\x27()".toList.contains character ||
    (isVerbatim && (character == ',' || character == '[' || character == ']'))

/-- How many more bytes follow the first byte of a character, if it can be one. -/
def followingBytes? (byte : Nat) : Option Nat :=
  if byte < 0x80 then some 0
  else if 0xC0 ≤ byte ∧ byte < 0xE0 then some 1
  else if 0xE0 ≤ byte ∧ byte < 0xF0 then some 2
  else if 0xF0 ≤ byte ∧ byte < 0xF8 then some 3
  else none

/-- Whether every percent sign in a tag begins an escaped byte, and the escaped
bytes are characters.  `owed` counts the bytes that the last character still
lacks. -/
def escapesAreWhole : (owed : Nat) → List Char → Bool
  | owed, '%' :: high :: low :: rest =>
      match Numeral.value? 16 [high, low] with
      | none => false
      | some byte =>
          if owed = 0 then
            match followingBytes? byte with
            | some following => escapesAreWhole following rest
            | none => false
          else 0x80 ≤ byte && byte < 0xC0 && escapesAreWhole (owed - 1) rest
  | _, '%' :: _ => false
  | owed, _ :: rest => owed = 0 && escapesAreWhole 0 rest
  | owed, [] => owed = 0

/-- The place after a tag or the rest of one, which may be empty only if it has
been begun. -/
def afterTag? (isVerbatim isBegun : Bool) (cursor : Cursor) : Option Cursor :=
  let (text, after) := cursor.takeWhile (isTagCharacter isVerbatim)
  if (text.isEmpty && !isBegun) || !escapesAreWhole 0 text then none else some after

/-- The directive at a cursor, and the place after its line. -/
def directive? (cursor : Cursor) : Option (Token × Cursor) := do
  let (name, afterName) := cursor.next.takeWhile isNameCharacter
  if !afterName.isBlankAt 0 then none
  let value := afterName.skipWhile isBlank
  match String.ofList name with
  | "YAML" =>
      let (major, afterMajor) ← versionNumber? value
      if !afterMajor.isAt '.' then none
      let (minor, afterMinor) ← versionNumber? afterMajor.next
      return (.versionDirective major minor, ← afterMinor.lineEnd?)
  | "TAG" =>
      let (handle, afterHandle) ← tagHandle? false value
      if !afterHandle.peek?.any isBlank then none
      let afterPrefix ← afterTag? true false (afterHandle.skipWhile isBlank)
      if !afterPrefix.isBlankAt 0 then none
      return (.tagDirective (String.ofList handle), ← afterPrefix.lineEnd?)
  | _ => none

/-! ## Tags, anchors and aliases -/

/-- The handle of the tag at a cursor, and the place after the tag. -/
def tag? (inFlow : Bool) (cursor : Cursor) : Option (String × Cursor) := do
  let (handle, after) ←
    if cursor.next.isAt '<' then do
      let after ← afterTag? true false (cursor.skip 2)
      if after.isAt '>' then some ("", after.next) else none
    else do
      let (handle, afterHandle) ← tagHandle? true cursor
      let isHandle := 1 < handle.length && handle.getLast? == some '!'
      let after ← afterTag? false (!isHandle) afterHandle
      let isAlone := handle == ['!'] && after.index == afterHandle.index
      some (if isHandle then String.ofList handle else if isAlone then "" else "!", after)
  if after.isBlankAt 0 || (inFlow && after.isAt ',') then return (handle, after) else none

/-- The name of the anchor or alias at a cursor, and the place after it. -/
def anchorName? (cursor : Cursor) : Option (String × Cursor) :=
  let (name, after) := cursor.next.takeWhile isNameCharacter
  let isEnded :=
    after.isBlankAt 0 || after.peek?.any fun character => "?:,]\x7d%@\x60".toList.contains character
  if name.isEmpty || !isEnded then none else some (String.ofList name, after)

/-! ## One token -/

/-- Read the end of the text. -/
def readEnd (cutting : Cutting) : Option Cutting := (cutting.unindent (-1)).dropKey

/-- Read a directive. -/
def readDirective (cutting : Cutting) : Option Cutting := do
  let cutting ← (cutting.unindent (-1)).dropKey
  let (token, after) ← directive? cutting.cursor
  return ((cutting.allowKey false).moveTo after).emit token

/-- Read a mark that starts or ends a document. -/
def readMarker (cutting : Cutting) (token : Token) : Option Cutting := do
  let cutting ← (cutting.unindent (-1)).dropKey
  return (cutting.allowKey false).emitSkipping token 3

/-- Read the start of a flow collection. -/
def readFlowStart (cutting : Cutting) (token : Token) : Option Cutting := do
  let cutting ← cutting.saveKey
  return ({ cutting with keys := none :: cutting.keys }.allowKey true).emitSkipping token 1

/-- Read the end of a flow collection. -/
def readFlowEnd (cutting : Cutting) (token : Token) : Option Cutting := do
  let cutting ← cutting.dropKey
  let outer := if cutting.inFlow then cutting.keys.tail else cutting.keys
  return ({ cutting with keys := outer }.allowKey false).emitSkipping token 1

/-- Read a comma of a flow collection. -/
def readFlowEntry (cutting : Cutting) : Option Cutting := do
  let cutting ← cutting.dropKey
  return (cutting.allowKey true).emitSkipping .flowEntry 1

/-- Begin a block collection here, where that is possible. -/
def beginBlock (cutting : Cutting) (token : Token) : Option Cutting :=
  if cutting.inFlow then some cutting
  else if cutting.keyAllowed then
    some (cutting.indentTo cutting.cursor.column cutting.tokens.size token)
  else none

/-- Read the dash of a block sequence. -/
def readBlockEntry (cutting : Cutting) : Option Cutting := do
  let cutting ← (← cutting.beginBlock .blockSequenceStart).dropKey
  return (cutting.allowKey true).emitSkipping .blockEntry 1

/-- Read the question mark of a key. -/
def readKey (cutting : Cutting) : Option Cutting := do
  let cutting ← (← cutting.beginBlock .blockMappingStart).dropKey
  return (cutting.allowKey !cutting.inFlow).emitSkipping .key 1

/-- Read the colon of a value. -/
def readValue (cutting : Cutting) : Option Cutting := do
  match cutting.keys with
  | some key :: outer =>
      let marked :=
        { cutting with
          tokens := cutting.tokens.insertIdxIfInBounds key.position .key
          keys := none :: outer }
      let begun := marked.indentTo key.cursor.column key.position .blockMappingStart
      return (begun.allowKey false).emitSkipping .value 1
  | _ =>
      let begun ← cutting.beginBlock .blockMappingStart
      return (begun.allowKey !cutting.inFlow).emitSkipping .value 1

/-- Read something that may begin a key. -/
def readKeyPart (cutting : Cutting) (read : Cursor → Option (Token × Cursor)) : Option Cutting := do
  let cutting ← cutting.saveKey
  let (token, after) ← read cutting.cursor
  return ((cutting.allowKey false).moveTo after).emit token

/-- Read a block scalar. -/
def readBlockScalar (cutting : Cutting) (isLiteral : Bool) : Option Cutting := do
  let cutting ← cutting.dropKey
  let (text, after) ← blockScalar? isLiteral cutting.indent cutting.cursor
  return ((cutting.allowKey true).moveTo after).emit (.scalar (String.ofList text) false)

/-- Read a plain scalar.  After one that ends in a line break a key may begin. -/
def readPlain (cutting : Cutting) : Option Cutting := do
  let cutting ← cutting.saveKey
  let scalar ← plainScalar? cutting.inFlow (cutting.indent + 1) cutting.cursor
  return ((cutting.allowKey scalar.gap.isBroken).moveTo scalar.cursor).emit
    (.scalar (String.ofList scalar.text) true)

/-- Whether a plain scalar may begin at a cursor. -/
def startsPlain (inFlow : Bool) (cursor : Cursor) : Bool :=
  match cursor.peek? with
  | none => false
  | some character =>
      let isIndicator := "-?:,[]\x7b\x7d#&*!|>\x27\"%@\x60".toList.contains character
      (!isBlankOrBreak character && !isIndicator) ||
        (character == '-' && !cursor.next.peek?.any isBlank) ||
        (!inFlow && (character == '?' || character == ':') && !cursor.isBlankAt 1)

/-- Read the token at the cursor, whose first character is given. -/
def readToken (cutting : Cutting) (character : Char) : Option Cutting :=
  let cursor := cutting.cursor
  if cursor.column == 0 && character == '%' then cutting.readDirective
  else if cursor.isMarker '-' then cutting.readMarker .documentStart
  else if cursor.isMarker '.' then cutting.readMarker .documentEnd
  else if character == '[' then cutting.readFlowStart .flowSequenceStart
  else if character == '\x7b' then cutting.readFlowStart .flowMappingStart
  else if character == ']' then cutting.readFlowEnd .flowSequenceEnd
  else if character == '\x7d' then cutting.readFlowEnd .flowMappingEnd
  else if character == ',' then cutting.readFlowEntry
  else if character == '-' && cursor.isBlankAt 1 then cutting.readBlockEntry
  else if character == '?' && (cutting.inFlow || cursor.isBlankAt 1) then cutting.readKey
  else if character == ':' && (cutting.inFlow || cursor.isBlankAt 1) then cutting.readValue
  else if character == '*' then
    cutting.readKeyPart fun cursor =>
      (anchorName? cursor).map fun (name, after) => (.alias name, after)
  else if character == '&' then
    cutting.readKeyPart fun cursor =>
      (anchorName? cursor).map fun (name, after) => (.anchor name, after)
  else if character == '!' then
    cutting.readKeyPart fun cursor =>
      (tag? cutting.inFlow cursor).map fun (handle, after) => (.tag handle, after)
  else if character == '|' && !cutting.inFlow then cutting.readBlockScalar true
  else if character == '>' && !cutting.inFlow then cutting.readBlockScalar false
  else if character == '\x27' || character == '"' then
    cutting.readKeyPart fun cursor =>
      (quotedScalar? (character == '\x27') cursor).map fun (text, after) =>
        (.scalar (String.ofList text) false, after)
  else if startsPlain cutting.inFlow cursor then cutting.readPlain
  else none

/-- Read the tokens to come. -/
def readAll : (fuel : Nat) → Cutting → Option (Array Token)
  | 0, _ => none
  | fuel + 1, cutting => do
      let next ← (toNextToken (cutting.cursor.rest.length + 1) cutting).dropStaleKeys
      let level := next.unindent next.cursor.column
      match level.cursor.peek? with
      | none => return (← level.readEnd).tokens
      | some character => readAll fuel (← level.readToken character)

end Cutting

/-- The tokens of a text, if it can be cut into tokens. -/
def tokens? (text : List Char) : Option (List Token) :=
  (Cutting.readAll (text.length + 1) (.start text)).map Array.toList

end SwarmManager.Yaml
