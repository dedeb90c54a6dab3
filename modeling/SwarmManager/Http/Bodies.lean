import SwarmManager.Json.Codec

/-!
# Bodies of requests

The records that clients send to start a swarm and to join one.
-/

namespace SwarmManager

set_option autoImplicit false

open Json (Codec Layout Field)

/-- What a client says to start a swarm. -/
structure InitRequest where
  listenAddress : String := ""
  advertiseAddress : String := ""
  deriving DecidableEq, Inhabited

/-- What a client says to join a swarm.  The token is not looked at. -/
structure JoinRequest where
  listenAddress : String := ""
  advertiseAddress : String := ""
  remoteAddresses : List String := []
  joinToken : String := ""
  deriving DecidableEq, Inhabited

namespace InitRequest

/-- Requests to start a swarm; every field may be left out. -/
def codec : Codec InitRequest :=
  (Layout.field (.defaulted "ListenAddr" .string "") <|
    .field (.defaulted "AdvertiseAddr" .string "") <|
    .done).codec
    (fun (listenAddress, advertiseAddress, ()) => ⟨listenAddress, advertiseAddress⟩)
    (fun request => (request.listenAddress, request.advertiseAddress, ()))

end InitRequest

namespace JoinRequest

/-- Requests to join a swarm; every field may be left out. -/
def codec : Codec JoinRequest :=
  (Layout.field (.defaulted "ListenAddr" .string "") <|
    .field (.defaulted "AdvertiseAddr" .string "") <|
    .field (.defaulted "RemoteAddrs" (.list .string) []) <|
    .field (.defaulted "JoinToken" .string "") <|
    .done).codec
    (fun (listenAddress, advertiseAddress, remoteAddresses, joinToken, ()) =>
      ⟨listenAddress, advertiseAddress, remoteAddresses, joinToken⟩)
    (fun request => (request.listenAddress, request.advertiseAddress, request.remoteAddresses,
      request.joinToken, ()))

end JoinRequest

end SwarmManager
