import SwarmManager.Supply
import SwarmManager.Time.Codec

/-!
# Swarms

A swarm is known by an identifier and two join tokens, one for workers and one
for managers.  A token holds the first eight characters of the identifier and
twenty-five random ones.
-/

namespace SwarmManager

set_option autoImplicit false

open Json (Codec Layout Field)

/-- The tokens of a swarm. -/
structure JoinTokens where
  worker : String
  manager : String
  deriving DecidableEq

/-- The identity of a swarm. -/
structure Swarm where
  id : String
  joinTokens : JoinTokens
  createdAt : Instant
  deriving DecidableEq

namespace Swarm

/-- A join token. -/
def joinToken (kind swarmId random : String) : String :=
  "SWMTKN-1-" ++ String.ofList (swarmId.toList.take 8) ++ "-" ++ kind ++ "-" ++
    String.ofList (random.toList.take 25)

/-- A new swarm, and the supply after the three draws it takes. -/
def create (supply : Supply) : Swarm × Supply :=
  let identity := supply.next
  let forWorker := supply.advance
  let forManager := forWorker.advance
  (⟨identity.id,
      ⟨joinToken "worker" identity.id forWorker.next.id,
        joinToken "manager" identity.id forManager.next.id⟩,
      identity.instant⟩,
    forManager.advance)

end Swarm

namespace JoinTokens

/-- Join tokens. -/
def codec : Codec JoinTokens :=
  (Layout.field (.required "Worker" .string) <| .field (.required "Manager" .string) <|
    .done).codec
    (fun (worker, manager, ()) => ⟨worker, manager⟩)
    (fun tokens => (tokens.worker, tokens.manager, ()))

end JoinTokens

namespace Swarm

/-- Swarms. -/
def codec : Codec Swarm :=
  (Layout.field (.required "ID" .string) <|
    .field (.required "JoinTokens" JoinTokens.codec) <|
    .field (.required "CreatedAt" Instant.codec) <|
    .done).codec
    (fun (id, joinTokens, createdAt, ()) => ⟨id, joinTokens, createdAt⟩)
    (fun swarm => (swarm.id, swarm.joinTokens, swarm.createdAt, ()))

end Swarm

end SwarmManager
