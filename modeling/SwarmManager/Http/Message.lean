import SwarmManager.Error
import SwarmManager.Http.Target

/-!
# Requests and responses

A request has a method, a target and a body.  A response has a status and, as its
content, nothing, a JSON value or a text.
-/

namespace SwarmManager.Http

set_option autoImplicit false

/-- A request. -/
structure Request where
  method : String
  target : Target
  body : ByteArray

/-- What a response says. -/
inductive Content where
  | nothing
  | json (value : Json.Value)
  | text (text : String)

/-- A response.  The response to a request for the head alone has no body, but
has the type of its content. -/
structure Response where
  status : Nat
  content : Content
  isHead : Bool

/-- Whether a character may stand in the name of a method. -/
def isMethodCharacter (character : Char) : Bool :=
  character.isAlphanum || "!#$%&\x27*+-.^_\x60|~".toList.contains character

namespace Request

/-- The request of a method, a target and a body, if the first two are well
formed. -/
def ofParts? (method target : String) (body : ByteArray) : Option Request :=
  if method.isEmpty || !method.toList.all isMethodCharacter then none
  else (Target.ofText? target).map fun target => ⟨method, target, body⟩

end Request

namespace Content

/-- A content as text. -/
def asText : Content → String
  | .nothing => ""
  | .json value => value.text
  | .text words => words

/-- The media type of a content. -/
def mediaType : Content → String
  | .nothing => ""
  | .json _ => "application/json"
  | .text _ => "text/plain; charset=utf-8"

end Content

namespace Response

/-- A response without content. -/
def bare (status : Nat) : Response := ⟨status, .nothing, false⟩

/-- Success, with a value. -/
def ofValue (value : Json.Value) : Response := ⟨200, .json value, false⟩

/-- A response with a text. -/
def ofText (status : Nat) (text : String) : Response := ⟨status, .text text, false⟩

/-- The response to a request that fails. -/
def ofError (error : Error) : Response := ofText error.status error.message

/-- The response without its body. -/
def head (response : Response) : Response := { response with isHead := true }

/-- The refusal of a request whose path or query cannot be decoded. -/
def refusal : Response := ofText 400 "The path or the query cannot be decoded"

/-- The refusal of a body that is too long. -/
def tooLong : Response := ofText 413 "Failed to buffer the request body: length limit exceeded"

end Response

/-- The longest body that is read, in bytes. -/
def maxBody : Nat := 2097152

end SwarmManager.Http
