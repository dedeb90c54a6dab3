import SwarmManager.Error
import SwarmManager.Settings
import SwarmManager.Yaml.Node

/-!
# Settings from a file

A settings file is a YAML mapping.  Every setting is optional, other keys are
skipped, and a setting given twice is a fault.  The value of a setting is the
text of its scalar, however that is written: a number or `null` is a text like
any other.
-/

namespace SwarmManager.Settings

set_option autoImplicit false

/-- The text of a scalar, or of the scalar that an alias stands for. -/
def textOf? (anchors : Yaml.Anchors) : Yaml.Node → Option String
  | .scalar text _ => some text
  | .alias number => anchors.text? number
  | .sequence _ => none
  | .mapping _ => none

/-- The settings as far as a file gives them. -/
structure Partial where
  apiAddress : Option String
  peerHost : Option String
  advertiseHost : Option String
  logLevel : Option String

namespace Partial

/-- Nothing is given. -/
def nothing : Partial := ⟨none, none, none, none⟩

/-- The first value of a setting; a second one is a fault. -/
def once (held : Option String) (value : Option String) : Option (Option String) :=
  match held with
  | some _ => none
  | none => value.map some

/-- With one more entry of the file. -/
def store (given : Partial) (key : String) (value : Option String) : Option Partial :=
  match key with
  | "api_addr" => (once given.apiAddress value).map fun held => { given with apiAddress := held }
  | "peer_host" => (once given.peerHost value).map fun held => { given with peerHost := held }
  | "advertise_host" =>
      (once given.advertiseHost value).map fun held => { given with advertiseHost := held }
  | "log_level" => (once given.logLevel value).map fun held => { given with logLevel := held }
  | _ => some given

/-- The settings, where those not given have their defaults. -/
def complete (given : Partial) : Settings :=
  let default : Settings := {}
  ⟨given.apiAddress.getD default.apiAddress, given.peerHost.getD default.peerHost,
    given.advertiseHost.getD default.advertiseHost, given.logLevel.getD default.logLevel⟩

end Partial

/-- The settings in the entries of a mapping. -/
def ofEntries? (anchors : Yaml.Anchors) (entries : List (Yaml.Node × Yaml.Node)) :
    Option Settings := do
  let given ← entries.foldlM
    (fun given entry => do
      let key ← textOf? anchors entry.1
      Partial.store given key (textOf? anchors entry.2))
    Partial.nothing
  return given.complete

/-- The settings in a document.  No document, and one that holds nothing, give no
setting. -/
def ofDocument? (document : Yaml.Document) : Option Settings :=
  match document.root with
  | none => some {}
  | some (.scalar text isPlain) => if text.isEmpty && isPlain then some {} else none
  | some (.mapping entries) => ofEntries? document.anchors entries
  | some (.sequence _) => none
  | some (.alias _) => none

/-- The settings in the text of a file. -/
def ofYaml (text : String) : Except Error Settings :=
  match (Yaml.Document.ofText? text).bind ofDocument? with
  | some settings => .ok settings
  | none => .error (.configuration "Failed to parse config: the file holds no settings")

/-- The settings in a file, which is given by its bytes if it exists. -/
def ofFile (content : Option ByteArray) : Except Error Settings :=
  match content with
  | none => .error (.system .fileMissing)
  | some bytes =>
      match Utf8.strict? (Utf8.symbols bytes) with
      | some text => ofYaml text
      | none => .error (.system .fileNotText)

end SwarmManager.Settings
