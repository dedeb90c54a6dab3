import SwarmManager.Daemon
import SwarmManager.Settings.Yaml

/-!
# The console

The program is started with options, and then reads requests, one a line: a
method, a target and, after another space, a body.  Each is answered with a
status, a media type and a content.

Identifiers come from a seed, and the clock of the program is simulated: it
starts at the epoch, and everything that is created is a second younger than what
was created before it.
-/

namespace SwarmManager

set_option autoImplicit false

/-! ## Options -/

/-- What the program is started with. -/
structure Options where
  /-- Whether the requests are shown as they are read. -/
  isVerbose : Bool := false
  /-- The name of a settings file. -/
  settingsFile : Option String := none
  /-- The address of the API, in place of the one in the settings. -/
  apiAddress : Option String := none
  deriving DecidableEq, Inhabited

namespace Options

/-- Read options on top of those read before; the first word that is no option is
the fault. -/
def read (options : Options) : List String → Except String Options
  | [] => .ok options
  | "-d" :: rest => read { options with isVerbose := true } rest
  | "--debug" :: rest => read { options with isVerbose := true } rest
  | "-c" :: file :: rest => read { options with settingsFile := some file } rest
  | "--config" :: file :: rest => read { options with settingsFile := some file } rest
  | "-a" :: address :: rest => read { options with apiAddress := some address } rest
  | "--addr" :: address :: rest => read { options with apiAddress := some address } rest
  | word :: _ => .error word

/-- The settings with what the options put in their place. -/
def override (options : Options) (settings : Settings) : Settings :=
  { settings with apiAddress := options.apiAddress.getD settings.apiAddress }

end Options

/-! ## Seeded supplies -/

namespace Supply

/-- An identifier of thirty-two hexadecimal digits, of which two are fixed. -/
def idOfNumber (number : Nat) : String :=
  let digits := (List.range 30).map fun place => Json.hexDigit (number / Nat.pow 16 (29 - place) % 16)
  String.ofList (digits.take 12 ++ '4' :: (digits.drop 12).take 3 ++ 'a' :: digits.drop 15)

/-- The instant a number of seconds after an instant at the start of a day. -/
def secondsAfter (start : Instant) (seconds : Nat) : Instant :=
  let date := (List.range (seconds / 86400)).foldl (fun date _ => date.next) start.date
  let ofDay := seconds % 86400
  let time := Rfc3339.timeOfDay? (ofDay / 3600) (ofDay / 60 % 60) (ofDay % 60) 0
  (Instant.at? date (time.getD start.time)).getD start

/-- A supply whose identifiers are spread from a seed on, without repeating one
before all have been used. -/
def ofSeed (seed : Nat) : Supply where
  source position :=
    ⟨idOfNumber ((seed + position * 0x9E3779B97F4A7C15F39CC0605CEDC5) % Nat.pow 16 30),
      secondsAfter Instant.epoch position,
      ⟨(seed + position * 7919) % 50000, Nat.mod_lt _ (by decide)⟩⟩
  drawn := 0

end Supply

/-! ## Requests by line -/

namespace Console

/-- The world of a program with one member. -/
def world (settings : Settings) (machine : Machine) (seed : Nat) : World 1 where
  members := Vector.ofFn fun _ => Member.start settings machine .none (Supply.ofSeed seed)
  network := ⟨.ofHosts HostAddress.isLocal, .always .delivered, [], [], 0⟩

/-- The request of a line, if it is well formed. -/
def request? (line : String) : Option Http.Request :=
  match Text.splitAtFirst ' ' line with
  | none => none
  | some (method, rest) =>
      match Text.splitAtFirst ' ' rest with
      | none => Http.Request.ofParts? method rest ByteArray.empty
      | some (target, body) => Http.Request.ofParts? method target body.toUTF8

/-- The line that shows a response. -/
def responseLine (response : Http.Response) : String :=
  let content := if response.isHead then "" else response.content.asText
  Decimal.text response.status ++ " " ++ response.content.mediaType ++ " " ++ content

/-- The answer to a line, and the world after it. -/
def answer (line : String) (world : World 1) : String × World 1 :=
  match request? line with
  | none => (responseLine (Http.Response.bare 400), world)
  | some request =>
      match Daemon.exchange request world with
      | (some (.ok response), after) => (responseLine response, after)
      | (some (.error _), after) => ("no answer", after)
      | (none, after) => ("no answer", after)

end Console

end SwarmManager
