import SwarmManager.Json.Token
import SwarmManager.Json.Value

/-!
# Documents

A document is a value and whether the text says nothing else.  Tokens are read
one at a time against a stack of the containers that are still open, so every
token is looked at once, and reading is a recursion on the list of tokens.

When a token does not fit, the open containers are closed around the leaf
`broken`, which stands where the token stood.
-/

namespace SwarmManager.Json

set_option autoImplicit false

/-- A container whose end has not been read.  What it holds so far is listed
last first. -/
inductive Frame where
  | array (items : List Value)
  | object (members : List (Option String × Value))
  /-- An object that has read a key but not its value. -/
  | entry (members : List (Option String × Value)) (key : Option String)

/-- What the next token may be. -/
inductive Expectation where
  | value
  /-- The first item of an array, or its end. -/
  | itemOrEnd
  /-- The first key of an object, or its end. -/
  | keyOrEnd
  | key
  | colon
  /-- A comma, or the end of the innermost container. -/
  | commaOrEnd

/-- What is known after some tokens. -/
inductive Progress where
  | open (frames : List Frame) (expectation : Expectation)
  | done (value : Value)
  | failed

/-- A value and whether the text ends after it. -/
structure Document where
  value : Value
  isAlone : Bool

namespace Document

/-- A complete value inside the open containers. -/
def close (value : Value) : List Frame → Progress
  | [] => .done value
  | .array items :: outer => .open (.array (value :: items) :: outer) .commaOrEnd
  | .entry members key :: outer => .open (.object ((key, value) :: members) :: outer) .commaOrEnd
  | .object _ :: _ => .failed

/-- The value that a token begins or is. -/
def beginValue (token : Token) (frames : List Frame) : Progress :=
  match token with
  | .null => close .null frames
  | .bool truth => close (.bool truth) frames
  | .integer number => close (.integer number) frames
  | .real => close .real frames
  | .string text => close (.string text) frames
  | .beginArray => .open (.array [] :: frames) .itemOrEnd
  | .beginObject => .open (.object [] :: frames) .keyOrEnd
  | .endArray | .endObject | .colon | .comma | .bad => .failed

/-- The progress after one more token. -/
def step (frames : List Frame) (expectation : Expectation) (token : Token) : Progress :=
  match expectation, token, frames with
  | .value, token, frames => beginValue token frames
  | .itemOrEnd, .endArray, .array items :: outer => close (.array items.reverse) outer
  | .itemOrEnd, token, frames => beginValue token frames
  | .keyOrEnd, .endObject, .object members :: outer => close (.object members.reverse) outer
  | .keyOrEnd, .string key, .object members :: outer =>
      .open (.entry members key :: outer) .colon
  | .key, .string key, .object members :: outer => .open (.entry members key :: outer) .colon
  | .colon, .colon, frames => .open frames .value
  | .commaOrEnd, .comma, .array items :: outer => .open (.array items :: outer) .value
  | .commaOrEnd, .comma, .object members :: outer => .open (.object members :: outer) .key
  | .commaOrEnd, .endArray, .array items :: outer => close (.array items.reverse) outer
  | .commaOrEnd, .endObject, .object members :: outer => close (.object members.reverse) outer
  | _, _, _ => .failed

/-- The open containers, closed around a value that stands where reading
stopped. -/
def unwind (value : Value) : List Frame → Value
  | [] => value
  | .array items :: outer => unwind (.array (items.reverse ++ [value])) outer
  | .object members :: outer => unwind (.object (members.reverse ++ [(none, value)])) outer
  | .entry members key :: outer => unwind (.object (members.reverse ++ [(key, value)])) outer

/-- The document that tokens spell out inside open containers. -/
def resume (frames : List Frame) (expectation : Expectation) : List Token → Document
  | [] => ⟨unwind .broken frames, false⟩
  | token :: rest =>
      match step frames expectation token with
      | .open frames expectation => resume frames expectation rest
      | .done value => ⟨value, rest.isEmpty⟩
      | .failed => ⟨unwind .broken frames, false⟩

/-- The document that tokens spell out. -/
def ofTokens (tokens : List Token) : Document := resume [] .value tokens

/-- The document in a text. -/
def ofText (text : String) : Document := ofTokens (tokens (Utf8.ofText text))

/-- The document in a text that is given as bytes. -/
def ofBytes (bytes : ByteArray) : Document := ofTokens (tokens (Utf8.symbols bytes))

end Document

end SwarmManager.Json
