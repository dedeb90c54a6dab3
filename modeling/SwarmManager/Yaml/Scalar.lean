import SwarmManager.Text.Decimal
import SwarmManager.Text.Numeral
import SwarmManager.Yaml.Cursor

/-!
# Scalars of YAML

A scalar is written plain, between quotes, or as a block.  Plain and quoted
scalars may go over several lines, which are folded: one line break becomes a
space, and of several all but the first are kept.  A block scalar keeps its lines
or folds them, and its indicators say what becomes of the breaks at its end.

Each reader returns the text and the place after it, or nothing if the scalar is
not well formed.
-/

namespace SwarmManager.Yaml

set_option autoImplicit false

/-- What line breaks between two stretches of text become. -/
def foldBreaks : List Char → List Char
  | [] => []
  | ['\n'] => [' ']
  | '\n' :: rest => rest
  | breaks => breaks

/-- Blanks and line breaks between two stretches of text. -/
structure Gap where
  blanks : List Char
  breaks : List Char

namespace Gap

/-- The gap that characters make up.  Blanks count only if there is no break. -/
def ofChars (characters : List Char) : Gap :=
  let breaks := characters.filter isBreak
  ⟨if breaks.isEmpty then characters else [], breaks⟩

/-- What a gap becomes between two stretches of text. -/
def folded (gap : Gap) : List Char := gap.blanks ++ foldBreaks gap.breaks

/-- Whether a gap goes over the end of a line. -/
def isBroken (gap : Gap) : Bool := !gap.breaks.isEmpty

end Gap

/-! ## Plain scalars -/

/-- Whether a tab stands left of a column in one of the lines that characters
begin. -/
def hasTabBefore (limit : Int) : (inLine : Bool) → (column : Nat) → List Char → Bool
  | _, _, [] => false
  | inLine, column, character :: rest =>
      if isBreak character then hasTabBefore limit true 0 rest
      else
        (inLine && character == '\t' && (column : Int) < limit) ||
          hasTabBefore limit inLine (column + 1) rest

/-- Whether a character delimits flow collections. -/
def isFlowIndicator (character : Char) : Bool :=
  character == ',' || character == '[' || character == ']' || character == '\x7b' ||
    character == '\x7d'

/-- The stretch of a plain scalar at the start of a text.  It ends at a blank, at
a colon before a blank, and in a flow collection at a delimiter; a colon must not
stand right before one there. -/
def plainStretch (inFlow : Bool) : List Char → Option (List Char)
  | [] => some []
  | character :: rest =>
      if isBlankOrBreak character then some []
      else if character == ':' then
        match rest with
        | [] => some []
        | following :: _ =>
            if isBlankOrBreak following then some []
            else if inFlow && (isFlowIndicator following || following == '?') then none
            else (plainStretch inFlow rest).map (character :: ·)
      else if inFlow && isFlowIndicator character then some []
      else (plainStretch inFlow rest).map (character :: ·)

/-- A plain scalar as read so far. -/
structure PlainScalar where
  text : List Char
  cursor : Cursor
  /-- The gap after the text. -/
  gap : Gap

/-- Read on in a plain scalar that is indented by at least `indent`. -/
def continuePlain (inFlow : Bool) (indent : Int) :
    (fuel : Nat) → PlainScalar → Option PlainScalar
  | 0, _ => none
  | fuel + 1, scalar => do
      let cursor := scalar.cursor
      if cursor.isDocumentMarker || cursor.isAt '#' then return scalar
      let stretch ← plainStretch inFlow cursor.rest
      let text := if stretch.isEmpty then scalar.text else scalar.text ++ scalar.gap.folded ++ stretch
      let gap := if stretch.isEmpty then scalar.gap else ⟨[], []⟩
      let (between, after) := (cursor.skip stretch.length).takeWhile isBlankOrBreak
      if between.isEmpty then return ⟨text, after, gap⟩
      if hasTabBefore indent false 0 between then none
      let read : PlainScalar := ⟨text, after, .ofChars between⟩
      if !inFlow && (after.column : Int) < indent then return read
      continuePlain inFlow indent fuel read

/-- The plain scalar at a cursor. -/
def plainScalar? (inFlow : Bool) (indent : Int) (cursor : Cursor) : Option PlainScalar :=
  continuePlain inFlow indent (cursor.rest.length + 1) ⟨[], cursor, ⟨[], []⟩⟩

/-! ## Quoted scalars -/

/-- The character of a number of hexadecimal digits at the start of a text. -/
def codePoint? (width : Nat) (text : List Char) : Option Char :=
  let digits := text.take width
  if digits.length < width then none
  else
    match Numeral.value? 16 digits with
    | some point =>
        if (0xD800 ≤ point ∧ point ≤ 0xDFFF) ∨ 0x10FFFF < point then none
        else some (Char.ofNat point)
    | none => none

/-- The character that a letter after a backslash stands for, and the length of
what follows the backslash. -/
def escaped? : List Char → Option (Char × Nat)
  | '0' :: _ => some (Char.ofNat 0, 1)
  | 'a' :: _ => some (Char.ofNat 7, 1)
  | 'b' :: _ => some (Char.ofNat 8, 1)
  | 't' :: _ => some ('\t', 1)
  | '\t' :: _ => some ('\t', 1)
  | 'n' :: _ => some ('\n', 1)
  | 'v' :: _ => some (Char.ofNat 11, 1)
  | 'f' :: _ => some (Char.ofNat 12, 1)
  | 'r' :: _ => some ('\r', 1)
  | 'e' :: _ => some (Char.ofNat 27, 1)
  | ' ' :: _ => some (' ', 1)
  | '"' :: _ => some ('"', 1)
  | '/' :: _ => some ('/', 1)
  | '\\' :: _ => some ('\\', 1)
  | 'N' :: _ => some (Char.ofNat 0x85, 1)
  | '_' :: _ => some (Char.ofNat 0xA0, 1)
  | 'L' :: _ => some (Char.ofNat 0x2028, 1)
  | 'P' :: _ => some (Char.ofNat 0x2029, 1)
  | 'x' :: rest => (codePoint? 2 rest).map fun character => (character, 3)
  | 'u' :: rest => (codePoint? 4 rest).map fun character => (character, 5)
  | 'U' :: rest => (codePoint? 8 rest).map fun character => (character, 9)
  | _ => none

/-- A stretch of a quoted scalar without blanks. -/
structure QuotedStretch where
  text : List Char
  cursor : Cursor
  /-- Whether the stretch ends in an escaped line break. -/
  isJoined : Bool

/-- Read on in a stretch of a quoted scalar, whose text is listed last first. -/
def quotedStretch (isSingle : Bool) :
    (fuel : Nat) → (text : List Char) → Cursor → Option QuotedStretch
  | 0, _, _ => none
  | fuel + 1, text, cursor =>
      match cursor.rest with
      | [] => some ⟨text.reverse, cursor, false⟩
      | character :: rest =>
          if isBlankOrBreak character then some ⟨text.reverse, cursor, false⟩
          else if isSingle then
            if character != '\'' then quotedStretch isSingle fuel (character :: text) cursor.next
            else if rest.head? == some '\'' then
              quotedStretch isSingle fuel ('\'' :: text) (cursor.skip 2)
            else some ⟨text.reverse, cursor, false⟩
          else if character == '"' then some ⟨text.reverse, cursor, false⟩
          else if character == '\\' then
            if rest.head?.any isBreak then some ⟨text.reverse, cursor.skip 2, true⟩
            else
              match escaped? rest with
              | some (meant, length) =>
                  quotedStretch isSingle fuel (meant :: text) (cursor.skip (length + 1))
              | none => none
          else quotedStretch isSingle fuel (character :: text) cursor.next

/-- Read on in a quoted scalar up to its closing quote. -/
def continueQuoted (isSingle : Bool) :
    (fuel : Nat) → (text : List Char) → Cursor → Option (List Char × Cursor)
  | 0, _, _ => none
  | fuel + 1, text, cursor => do
      if cursor.isDocumentMarker || cursor.isEnd then none
      let stretch ← quotedStretch isSingle (cursor.rest.length + 1) [] cursor
      let text := text ++ stretch.text
      if stretch.cursor.isAt (if isSingle then '\'' else '"') then
        return (text, stretch.cursor.next)
      let (between, after) := stretch.cursor.takeWhile isBlankOrBreak
      let filling := if stretch.isJoined then between.filter isBreak else (Gap.ofChars between).folded
      continueQuoted isSingle fuel (text ++ filling) after

/-- The quoted scalar whose opening quote stands at a cursor. -/
def quotedScalar? (isSingle : Bool) (cursor : Cursor) : Option (List Char × Cursor) :=
  continueQuoted isSingle (cursor.rest.length + 1) [] cursor.next

/-! ## Block scalars -/

/-- What becomes of the line breaks at the end of a block scalar. -/
inductive Chomping where
  | strip
  | clip
  | keep
  deriving DecidableEq

/-- The chomping a character stands for. -/
def chomping? : Option Char → Option Chomping
  | some '+' => some .keep
  | some '-' => some .strip
  | _ => none

/-- The indentation a digit stands for, none if there is no digit.  Zero is not
well formed. -/
def increment? (cursor : Cursor) : Option (Option Nat × Cursor) :=
  match cursor.peek? with
  | some character =>
      if !Decimal.isDigit character then some (none, cursor)
      else if character == '0' then none
      else some (some (Decimal.digitValue character), cursor.next)
  | none => some (none, cursor)

/-- The chomping and the indentation at the head of a block scalar, in either
order. -/
def blockHead? (cursor : Cursor) : Option (Chomping × Option Nat × Cursor) := do
  match chomping? cursor.peek? with
  | some chomping =>
      let (increment, after) ← increment? cursor.next
      return (chomping, increment, after)
  | none =>
      let (increment, after) ← increment? cursor
      match increment, chomping? after.peek? with
      | some _, some chomping => return (chomping, increment, after.next)
      | _, _ => return (.clip, increment, after)

/-- The line breaks before the next line with text, the widest indentation seen,
and the place after the indentation.  A limit of none skips all spaces. -/
def blockBreaks (limit : Option Nat) :
    (fuel : Nat) → (breaks : List Char) → (widest : Nat) → Cursor →
      Option (List Char × Nat × Cursor)
  | 0, _, _, _ => none
  | fuel + 1, breaks, widest, cursor =>
      let spaces := (cursor.rest.takeWhile (· == ' ')).length
      let wanted :=
        match limit with
        | some column => min spaces (column - cursor.column)
        | none => spaces
      let inside := cursor.skip wanted
      let widest := max widest inside.column
      let isOutside := limit.all fun column => inside.column < column
      match inside.peek? with
      | some character =>
          if isOutside && character == '\t' then none
          else if isBreak character then
            blockBreaks limit fuel (breaks ++ [character]) widest inside.next
          else some (breaks, widest, inside)
      | none => some (breaks, widest, inside)

/-- A block scalar as read so far: its text, the break after its last line, and
the empty lines after that. -/
structure BlockScalar where
  text : List Char
  lastBreak : List Char
  emptyLines : List Char
  /-- Whether the last line began with a blank. -/
  wasIndented : Bool
  cursor : Cursor

/-- Read on in a block scalar that is indented by `indent`. -/
def continueBlock (isLiteral : Bool) (indent : Nat) :
    (fuel : Nat) → BlockScalar → Option BlockScalar
  | 0, _ => none
  | fuel + 1, scalar => do
      let cursor := scalar.cursor
      if cursor.column != indent || cursor.isEnd then return scalar
      let isIndented := cursor.peek?.any isBlank
      let isFolded :=
        !isLiteral && scalar.lastBreak == ['\n'] && !scalar.wasIndented && !isIndented
      let joint :=
        if !isFolded then scalar.lastBreak
        else if scalar.emptyLines.isEmpty then [' ']
        else []
      let (line, afterLine) := cursor.takeWhile fun character => !isBreak character
      let (emptyLines, _, after) ←
        blockBreaks (some indent) (afterLine.rest.length + 1) [] 0 afterLine.next
      continueBlock isLiteral indent fuel
        ⟨scalar.text ++ joint ++ scalar.emptyLines ++ line, afterLine.peek?.toList, emptyLines,
          isIndented, after⟩

/-- The block scalar whose indicator stands at a cursor, inside a collection that
is indented by `outer`, which is -1 outside of all collections. -/
def blockScalar? (isLiteral : Bool) (outer : Int) (cursor : Cursor) :
    Option (List Char × Cursor) := do
  let (chomping, increment, afterHead) ← blockHead? cursor.next
  let body ← afterHead.lineEnd?
  let given := increment.map fun width => (max outer 0).toNat + width
  let (emptyLines, widest, first) ← blockBreaks given (body.rest.length + 1) [] 0 body
  let indent := given.getD (max (max widest (outer + 1).toNat) 1)
  let scalar ← continueBlock isLiteral indent (first.rest.length + 2)
    ⟨[], [], emptyLines, false, first⟩
  let text :=
    match chomping with
    | .strip => scalar.text
    | .clip => scalar.text ++ scalar.lastBreak
    | .keep => scalar.text ++ scalar.lastBreak ++ scalar.emptyLines
  return (text, scalar.cursor)

end SwarmManager.Yaml
