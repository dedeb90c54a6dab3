import SwarmManager.Json.Codec

/-!
# Settings

What a member is told before it starts: where its clients reach it, the host its
peer endpoint listens on, the host it advertises when a request names none, and
how much it logs.
-/

namespace SwarmManager

set_option autoImplicit false

open Json (Codec Layout Field)

/-- What a member is told before it starts. -/
structure Settings where
  apiAddress : String := "127.0.0.1:2375"
  peerHost : String := "127.0.0.1"
  advertiseHost : String := "127.0.0.1"
  logLevel : String := "info"
  deriving DecidableEq, Inhabited

namespace Settings

/-- Settings; every field may be left out. -/
def codec : Codec Settings :=
  let default : Settings := {}
  (Layout.field (.defaulted "api_addr" .string default.apiAddress) <|
    .field (.defaulted "peer_host" .string default.peerHost) <|
    .field (.defaulted "advertise_host" .string default.advertiseHost) <|
    .field (.defaulted "log_level" .string default.logLevel) <|
    .done).codec
    (fun (apiAddress, peerHost, advertiseHost, logLevel, ()) =>
      ⟨apiAddress, peerHost, advertiseHost, logLevel⟩)
    (fun settings => (settings.apiAddress, settings.peerHost, settings.advertiseHost,
      settings.logLevel, ()))

end Settings

end SwarmManager
