import SwarmManager.Http.Target
import SwarmManager.Text.Decimal
import SwarmManager.Text.Percent

/-!
# URLs of peers

Where an HTTP URL leads: to a port of a host, and there to a path, with a query.
The name of a user in front of the host and the fragment do not matter for that.

Tabs and line ends in a URL are left out, and a backslash counts as a slash, in
front of the query.  A segment of one dot in a path means nothing, and one of two
dots takes back the segment before it.
-/

namespace SwarmManager

set_option autoImplicit false

/-- A host, by its name, a port, and what is asked for there. -/
structure Url where
  host : String
  port : UInt16
  target : Http.Target
  deriving DecidableEq

namespace Url

/-- The port if none is given. -/
def defaultPort : UInt16 := 80

/-- The port after the colon of an authority. -/
def port? (numeral : List Char) : Option UInt16 :=
  if numeral.isEmpty then some defaultPort
  else (Decimal.read? numeral).bind fun number =>
    if 0 < number ∧ number < 65536 then some (UInt16.ofNat number) else none

/-- A text without its percent escapes, if it stands for a text. -/
def unescaped? (text : List Char) : Option (List Char) :=
  if text.contains '%' then (Percent.decodeSegment? (String.ofList text)).map String.toList
  else some text

/-- The host and the numeral of the port that an authority names.  A host in
brackets may hold colons. -/
def hostPort (authority : List Char) : List Char × List Char :=
  let afterUser := ((Text.splitLast '@' authority).map Prod.snd).getD authority
  if afterUser.getLast? = some ']' then (afterUser, [])
  else (Text.splitLast ':' afterUser).getD (afterUser, [])

/-- Whether a segment of a path is so many dots, which may be escaped. -/
def isDots (count : Nat) (segment : List Char) : Bool :=
  unescaped? segment == some (List.replicate count '.')

/-- The segments of a path after those that are kept so far, the last first.  At
the end of a path a segment of dots leaves an empty one. -/
def resolve (kept : List (List Char)) : List (List Char) → List (List Char)
  | [] => kept.reverse
  | segment :: rest =>
      let final := if rest.isEmpty then [[]] else []
      if isDots 1 segment then resolve (final ++ kept) rest
      else if isDots 2 segment then resolve (final ++ kept.tail) rest
      else resolve (segment :: kept) rest

/-- The path of the segments after its slashes.  Without any it is the root. -/
def pathOf (segments : List (List Char)) : String :=
  if segments.isEmpty then "/"
  else String.ofList ((resolve [] segments).flatMap fun segment => '/' :: segment)

/-- What an HTTP URL names. -/
def read? (text : String) : Option Url :=
  match text.toList.filter fun character => !"\t\n\r".toList.contains character with
  | 'h' :: 't' :: 't' :: 'p' :: ':' :: '/' :: '/' :: rest =>
      let whole := rest.takeWhile (· != '#')
      let hierarchy := (whole.takeWhile (· != '?')).map fun character =>
        if character == '\\' then '/' else character
      let query := (whole.dropWhile (· != '?')).drop 1
      match Text.splitAll '/' (hierarchy.dropWhile (· == '/')) with
      | [] => none
      | authority :: segments =>
          let (host, numeral) := hostPort authority
          (port? numeral).map fun port =>
            ⟨String.ofList host, port, ⟨pathOf segments, String.ofList query⟩⟩
  | _ => none

end Url

end SwarmManager
