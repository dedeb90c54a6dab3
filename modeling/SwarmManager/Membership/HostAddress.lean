import SwarmManager.Text.Decimal
import SwarmManager.Text.Numeral
import SwarmManager.Text.Split

/-!
# Host addresses

A host address is one of four bytes or one of eight groups of sixteen bits, and a
machine may have both kinds.  Addresses of four bytes are written and read as
numerals between dots: one to four of them, each of which may say its base, and of
fewer than four the last stands for all the bytes that are missing.
-/

namespace SwarmManager

set_option autoImplicit false

/-- The address of a host. -/
inductive HostAddress where
  /-- An address of four bytes. -/
  | v4 (first second third fourth : UInt8)
  /-- An address of eight groups. -/
  | v6 (groups : Vector UInt16 8)
  deriving DecidableEq

namespace HostAddress

/-- The address of this machine that only it can reach. -/
def loopback : HostAddress := .v4 127 0 0 1

/-- The address that stands for every address of four bytes of this machine. -/
def any : HostAddress := .v4 0 0 0 0

/-- As `loopback`, in eight groups. -/
def loopback6 : HostAddress := .v6 #v[0, 0, 0, 0, 0, 0, 0, 1]

/-- The address that stands for every address of this machine, of either kind. -/
def any6 : HostAddress := .v6 #v[0, 0, 0, 0, 0, 0, 0, 0]

instance : Inhabited HostAddress := ⟨any⟩

/-! ## Four bytes as text -/

/-- The host of a number, with the last byte lowest. -/
def ofNumber (number : Nat) : HostAddress :=
  .v4 (UInt8.ofNat (number / 16777216)) (UInt8.ofNat (number / 65536)) (UInt8.ofNat (number / 256))
    (UInt8.ofNat number)

/-- The host of one to four numbers.  All but the last are bytes, and the last
has to fit into the bytes that are missing. -/
def ofNumbers? (numbers : List Nat) : Option HostAddress :=
  match numbers with
  | [rest] => if rest < 4294967296 then some (ofNumber rest) else none
  | [first, rest] =>
      if first < 256 ∧ rest < 16777216 then some (ofNumber (first * 16777216 + rest)) else none
  | [first, second, rest] =>
      if first < 256 ∧ second < 256 ∧ rest < 65536 then
        some (ofNumber (first * 16777216 + second * 65536 + rest))
      else none
  | [first, second, third, rest] =>
      if first < 256 ∧ second < 256 ∧ third < 256 ∧ rest < 256 then
        some (ofNumber (first * 16777216 + second * 65536 + third * 256 + rest))
      else none
  | _ => none

/-- The host that numerals between dots name. -/
def ofNumerals? (text : List Char) : Option HostAddress := do
  ofNumbers? (← (Text.splitAll '.' text).mapM Numeral.read?)

/-- Four bytes as numerals between dots. -/
def dotted (parts : List UInt8) : String :=
  String.intercalate "." (parts.map fun part => Decimal.text part.toNat)

/-! ## Eight groups as text -/

/-- Where the first of the longest runs of zeros begins, and its length. -/
def zeroRun (groups : List UInt16) : Nat × Nat :=
  (List.range groups.length).foldl
    (fun best start =>
      let length := ((groups.drop start).takeWhile (· == 0)).length
      if best.2 < length then (start, length) else best)
    (0, 0)

/-- Groups in hexadecimal between colons. -/
def hexGroups (groups : List UInt16) : String :=
  String.intercalate ":" (groups.map fun group => String.ofList (Nat.toDigits 16 group.toNat))

/-- Eight groups in hexadecimal.  The longest run of zeros is left out if it is
longer than one, and an address that stands for one of four bytes shows them. -/
def grouped (groups : List UInt16) : String :=
  match groups with
  | [0, 0, 0, 0, 0, 0xFFFF, high, low] =>
      "::ffff:" ++ dotted [(high >>> 8).toUInt8, high.toUInt8, (low >>> 8).toUInt8, low.toUInt8]
  | _ =>
      let (start, length) := zeroRun groups
      if length ≤ 1 then hexGroups groups
      else hexGroups (groups.take start) ++ "::" ++ hexGroups (groups.drop (start + length))

/-- The host as text, with brackets around groups so that a port may follow. -/
def text : HostAddress → String
  | .v4 first second third fourth => dotted [first, second, third, fourth]
  | .v6 groups => "[" ++ grouped groups.toList ++ "]"

/-! ## Hosts that overlap -/

/-- Whether the host is this machine, whatever networks it is part of. -/
def isLocal (host : HostAddress) : Bool :=
  match host with
  | .v4 first _ _ _ => first == 127 || host == any
  | .v6 _ => host == loopback6 || host == any6

/-- Whether who listens on one host is reached at the other. -/
def covers (listened reached : HostAddress) : Bool :=
  match listened, reached with
  | .v4 .., .v4 .. => listened == reached || listened == any
  | .v4 .., .v6 .. => false
  | .v6 .., _ => listened == reached || listened == any6

/-- Whether listening on one host takes a port away on the other. -/
def overlaps (left right : HostAddress) : Bool := left.covers right || right.covers left

theorem covers_self (host : HostAddress) : host.covers host = true := by
  cases host <;> simp [covers]

theorem overlaps_self (host : HostAddress) : host.overlaps host = true := by
  simp [overlaps, covers_self]

/-- The host that is called for a host: to call all hosts of this machine is to
call the one that only it can reach. -/
def called (host : HostAddress) : HostAddress :=
  if host = any then loopback else if host = any6 then loopback6 else host

end HostAddress

end SwarmManager
