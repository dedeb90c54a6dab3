import SwarmManager.Text.Split

/-!
# Request targets

A request names its target in one of three forms: a path with an optional query,
a whole URL, or the authority of a URL alone.  A fragment is cut off.  Only some
characters may stand in each part; characters beyond ASCII may stand in paths and
queries.
-/

namespace SwarmManager.Http

set_option autoImplicit false

/-- A path and a query, which is empty if there is none. -/
structure Target where
  path : String
  query : String
  deriving DecidableEq

namespace Target

/-- Whether a character may stand in a path. -/
def isPathCharacter (character : Char) : Bool :=
  let point := character.toNat
  point == 0x21 || point == 0x22 || (0x24 ≤ point && point ≤ 0x3B) || point == 0x3D ||
    (0x40 ≤ point && point ≤ 0x5F) || (0x61 ≤ point && point ≤ 0x7E) || 0x80 ≤ point

/-- Whether a character may stand in a query. -/
def isQueryCharacter (character : Char) : Bool :=
  let point := character.toNat
  point == 0x21 || (0x24 ≤ point && point ≤ 0x3B) || point == 0x3D ||
    (0x3F ≤ point && point ≤ 0x7E) || 0x80 ≤ point

/-- Whether a character may stand in an authority, the percent sign apart. -/
def isAuthorityCharacter (character : Char) : Bool :=
  let point := character.toNat
  point == 0x21 || point == 0x24 || (0x26 ≤ point && point ≤ 0x2E) ||
    (0x30 ≤ point && point ≤ 0x3B) || point == 0x3D || (0x40 ≤ point && point ≤ 0x5B) ||
    point == 0x5D || point == 0x5F || (0x61 ≤ point && point ≤ 0x7A) || point == 0x7E

/-- Whether a character may stand in a scheme. -/
def isSchemeCharacter (character : Char) : Bool :=
  character.isAlphanum || character == '+' || character == '-' || character == '.' ||
    character == '~'

/-- The target in the text of a path and a query, if all characters may stand
where they do.  An empty path is the root. -/
def ofPathAndQuery? (text : List Char) : Option Target :=
  let whole := text.takeWhile (· != '#')
  let path := whole.takeWhile (· != '?')
  let query := (whole.dropWhile (· != '?')).drop 1
  if path.all isPathCharacter && query.all isQueryCharacter then
    some ⟨if path.isEmpty then "/" else String.ofList path, String.ofList query⟩
  else none

/-- What has been seen of an authority. -/
structure AuthorityScan where
  colons : Nat
  hasOpened : Bool
  hasClosed : Bool
  hasPercent : Bool
  endsInUser : Bool

/-- What has been seen of an authority after one more character, unless it may
not stand there.  Colons and percent signs count anew after the user and after a
host between brackets. -/
def scanCharacter (scan : AuthorityScan) (character : Char) : Option AuthorityScan :=
  let scan := { scan with endsInUser := character == '@' }
  if character == ':' then
    if 8 ≤ scan.colons then none else some { scan with colons := scan.colons + 1 }
  else if character == '[' then
    if scan.hasPercent || scan.hasOpened then none else some { scan with hasOpened := true }
  else if character == ']' then
    if !scan.hasOpened || scan.hasClosed then none
    else some { scan with hasClosed := true, colons := 0, hasPercent := false }
  else if character == '@' then some { scan with colons := 0, hasPercent := false }
  else if character == '%' then some { scan with hasPercent := true }
  else if isAuthorityCharacter character then some scan
  else none

/-- Whether a text is an authority: a user, a host and a port. -/
def isAuthority (text : List Char) : Bool :=
  match text.foldlM scanCharacter ⟨0, false, false, false, false⟩ with
  | none => false
  | some scan =>
      scan.hasOpened == scan.hasClosed && scan.colons ≤ 1 && !scan.endsInUser && !scan.hasPercent

/-- Whether a character ends an authority. -/
def endsAuthority (character : Char) : Bool :=
  character == '/' || character == '?' || character == '#'

/-- The text after the scheme of a URL; none if the text has no scheme. -/
def afterScheme? (text : List Char) : Option (List Char) :=
  match text.dropWhile isSchemeCharacter with
  | ':' :: '/' :: '/' :: rest => some rest
  | _ => none

/-- The length of the scheme of a URL. -/
def schemeLength (text : List Char) : Nat := (text.takeWhile isSchemeCharacter).length

/-- The longest text of a target, in bytes. -/
def maxLength : Nat := 65534

/-- The target a text names. -/
def ofText? (text : String) : Option Target :=
  if maxLength < text.utf8ByteSize then none
  else
    match text.toList with
    | [] => none
    | ['*'] => some ⟨"*", ""⟩
    | '/' :: rest => ofPathAndQuery? ('/' :: rest)
    | characters =>
        match afterScheme? characters with
        | some rest =>
            let authority := rest.takeWhile fun character => !endsAuthority character
            if 64 < schemeLength characters || authority.isEmpty || !isAuthority authority then
              none
            else ofPathAndQuery? (rest.dropWhile fun character => !endsAuthority character)
        | none => if isAuthority characters then some ⟨"", ""⟩ else none

end Target

end SwarmManager.Http
