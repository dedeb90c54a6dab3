import SwarmManager.Text.Decimal
import SwarmManager.Text.Split

/-!
# Addresses of peers

Clients give addresses as free text.  `splitHostPort` cuts one at its last colon
into a host and a port; a port that is zero, too large or no number counts as not
given.  `peerUrl` is the place where a peer is sent operations.
-/

namespace SwarmManager.Address

set_option autoImplicit false

/-- A port, written in decimal after an optional plus sign. -/
def anyPort? (text : String) : Option UInt16 :=
  let numeral :=
    match text.toList with
    | '+' :: rest => rest
    | whole => whole
  match Decimal.read? numeral with
  | some number => if number < 65536 then some (UInt16.ofNat number) else none
  | none => none

/-- A port other than zero. -/
def port? (text : String) : Option UInt16 := (anyPort? text).filter (· != 0)

/-- The host and the port of an address. -/
def splitHostPort (address : String) : String × Option UInt16 :=
  match Text.splitAtLast ':' address with
  | some (host, port) => (host, port? port)
  | none => (address, none)

/-- An address of a host and a port. -/
def join (host : String) (port : UInt16) : String := host ++ ":" ++ Decimal.text port.toNat

/-- The path that operations are posted to. -/
def updateNodesPath : String := "/internal/updatenodes"

/-- An address without the slashes at its end. -/
def withoutEndSlashes (address : String) : String :=
  String.ofList (address.toList.reverse.dropWhile (· == '/')).reverse

/-- Whether an address says how to speak to the peer. -/
def hasScheme (address : String) : Bool :=
  ["http://", "https://"].any fun scheme => scheme.toList.isPrefixOf address.toList

/-- The URL of a peer's membership endpoint.  An address without a scheme is
spoken to in HTTP. -/
def peerUrl (address : String) : String :=
  let base := withoutEndSlashes address
  if hasScheme base then base ++ updateNodesPath else "http://" ++ base ++ updateNodesPath

end SwarmManager.Address
