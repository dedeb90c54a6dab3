import SwarmManager.Console

/-!
# The program

Reads the options and the settings, and then answers the requests on standard
input until it ends.  At the end the member leaves its swarm.
-/

namespace SwarmManager

set_option autoImplicit false

/-- Answer the lines of the input until it ends. -/
partial def serve (isVerbose : Bool) (world : World 1) : IO (World 1) := do
  let line ← (← IO.getStdin).getLine
  if line.isEmpty then return world
  let request := String.ofList (line.toList.filter fun character => character != '\n')
  if isVerbose then IO.eprintln request
  let (response, after) := Console.answer request world
  IO.println response
  serve isVerbose after

/-- The settings that the options ask for. -/
def loadSettings (options : Options) : IO (Except Error Settings) := do
  match options.settingsFile with
  | none => return .ok {}
  | some name =>
      try
        let content ← IO.FS.readBinFile name
        return Settings.ofFile (some content)
      catch _ => return Settings.ofFile none

/-- Serve one member on standard input. -/
def run (options : Options) (settings : Settings) : IO UInt32 := do
  match Daemon.listen (.ofHosts HostAddress.isLocal) settings with
  | .error error =>
      IO.eprintln error.message
      return 1
  | .ok endpoint =>
      IO.eprintln ("listening on " ++ endpoint.text)
      let seed ← IO.rand 0 0xFFFFFFFFFFFF
      let machine : Machine := ⟨"localhost", ⟨"simulated", "simulated"⟩, 1⟩
      let served ← serve options.isVerbose (Console.world settings machine seed)
      let _ := served.step Daemon.stop
      return 0

/-- Start with the given words of the command line. -/
def start (arguments : List String) : IO UInt32 := do
  match Options.read {} arguments with
  | .error word =>
      IO.eprintln ("unexpected argument " ++ word)
      return 2
  | .ok options =>
      match ← loadSettings options with
      | .error error =>
          IO.eprintln error.message
          return 1
      | .ok settings => run options (options.override settings)

end SwarmManager

/-- The program. -/
def main (arguments : List String) : IO UInt32 := SwarmManager.start arguments
