import SwarmManager.Membership.Address
import SwarmManager.Membership.HostAddress

/-!
# Endpoints

An endpoint is a host address and a port.
-/

namespace SwarmManager

set_option autoImplicit false

/-- A host and a port. -/
structure Endpoint where
  host : HostAddress
  port : UInt16
  deriving DecidableEq, Inhabited

namespace Endpoint

/-- The endpoint as text. -/
def text (endpoint : Endpoint) : String := Address.join endpoint.host.text endpoint.port

/-- Whether only one of two endpoints can be listened on at a time. -/
def conflicts (left right : Endpoint) : Bool :=
  left.port == right.port && left.host.overlaps right.host

/-- Whether who listens on one endpoint takes a call to another. -/
def takes (listened called : Endpoint) : Bool :=
  listened.port == called.port && listened.host.covers called.host.called

end Endpoint

end SwarmManager
