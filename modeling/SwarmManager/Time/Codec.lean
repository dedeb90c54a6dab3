import SwarmManager.Json.Codec
import SwarmManager.Time.Rfc3339

/-!
# Timestamps in JSON

An instant is a JSON string that holds its timestamp.
-/

namespace SwarmManager.Instant

set_option autoImplicit false

/-- Instants as timestamps. -/
def codec : Json.Codec Instant := Json.Codec.string.through Rfc3339.write Rfc3339.read?

end SwarmManager.Instant
