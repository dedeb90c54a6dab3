import SwarmManager.Json.Document
import SwarmManager.StringMap

/-!
# Codecs

A codec says how the values of a type are written as JSON and read back.  Codecs
of basic types are combined into codecs of lists, maps, optional values, named
constants and records.

A record is read either from an object, where the order of the members is free,
unknown members are skipped and a repeated field is a fault, or from an array of
its fields in the order of its layout.  Members are looked at in the order of the
text, so the fault reported is the first one; fields that were not given are
found at the end of their object, in the order of the layout.
-/

namespace SwarmManager.Json

set_option autoImplicit false

/-! ## Faults -/

/-- Why a text is no value of a type. -/
inductive Fault where
  /-- The text is no JSON, or its value is of another form. -/
  | malformed
  | missingField (name : String)
  | duplicateField (name : String)
  | unknownVariant (found : String) (expected : List String)
  deriving DecidableEq

namespace Fault

/-- A name between grave accents. -/
def ticked (name : String) : String := "\x60" ++ name ++ "\x60"

/-- The variants a constant may be. -/
def alternatives : List String → String
  | [] => "there are no variants"
  | [only] => "expected " ++ ticked only
  | [first, second] => "expected " ++ ticked first ++ " or " ++ ticked second
  | names => "expected one of " ++ String.intercalate ", " (names.map ticked)

/-- The text of a fault. -/
def message : Fault → String
  | .malformed => "malformed text"
  | .missingField name => "missing field " ++ ticked name
  | .duplicateField name => "duplicate field " ++ ticked name
  | .unknownVariant found expected =>
      "unknown variant " ++ ticked found ++ ", " ++ alternatives expected

end Fault

/-! ## Codecs of basic types -/

/-- A way to write the values of a type as JSON, and to read them. -/
structure Codec (α : Type) where
  encode : α → Value
  decode : Value → Except Fault α

namespace Codec

variable {α β : Type}

/-- Texts. -/
def string : Codec String where
  encode := Value.ofText
  decode
    | .string (some text) => .ok text
    | _ => .error .malformed

/-- Truth values. -/
def bool : Codec Bool where
  encode := .bool
  decode
    | .bool truth => .ok truth
    | _ => .error .malformed

/-- Whole numbers from `low` up to but not including `high`, as values of a type
that has a place for each of them. -/
def bounded (low high : Int) (toInt : α → Int) (ofInt : Int → α) : Codec α where
  encode value := .integer (toInt value)
  decode
    | .integer number =>
        if low ≤ number ∧ number < high then .ok (ofInt number) else .error .malformed
    | _ => .error .malformed

/-- Unsigned numbers of sixteen bits. -/
def uint16 : Codec UInt16 :=
  bounded 0 65536 (fun number => number.toNat) (fun number => UInt16.ofNat number.toNat)

/-- Unsigned numbers of thirty-two bits. -/
def uint32 : Codec UInt32 :=
  bounded 0 4294967296 (fun number => number.toNat) (fun number => UInt32.ofNat number.toNat)

/-- Unsigned numbers of sixty-four bits. -/
def uint64 : Codec UInt64 :=
  bounded 0 18446744073709551616 (fun number => number.toNat) (fun number => UInt64.ofNat number.toNat)

/-- Signed numbers of thirty-two bits. -/
def int32 : Codec Int32 := bounded (-2147483648) 2147483648 Int32.toInt Int32.ofInt

/-- Signed numbers of sixty-four bits. -/
def int64 : Codec Int64 :=
  bounded (-9223372036854775808) 9223372036854775808 Int64.toInt Int64.ofInt

/-- A value or `null`. -/
def optional (codec : Codec α) : Codec (Option α) where
  encode
    | some value => codec.encode value
    | none => .null
  decode
    | .null => .ok none
    | value => (codec.decode value).map some

/-- Lists. -/
def list (codec : Codec α) : Codec (List α) where
  encode values := .array (values.map codec.encode)
  decode
    | .array items => items.mapM codec.decode
    | _ => .error .malformed

/-- One member of a map, read into the map so far. -/
def insertMember (codec : Codec α) (map : StringMap α) (member : Option String × Value) :
    Except Fault (StringMap α) :=
  match member.1 with
  | none => .error .malformed
  | some key => (codec.decode member.2).map (map.insert key)

/-- Maps.  Of members with one key the last counts. -/
def map (codec : Codec α) : Codec (StringMap α) where
  encode map := Value.ofMembers (map.entries.map fun entry => (entry.1, codec.encode entry.2))
  decode
    | .object members => members.foldlM (insertMember codec) StringMap.empty
    | _ => .error .malformed

/-- A codec for values that have one form in another type. -/
def through (codec : Codec α) (toForm : β → α) (ofForm? : α → Option β) : Codec β where
  encode value := codec.encode (toForm value)
  decode value := do
    match ofForm? (← codec.decode value) with
    | some result => .ok result
    | none => .error .malformed

/-! ## Named constants -/

/-- The constant of a name. -/
def variantOfName (nameOf : α → String) (all : List α) (found : String) : Except Fault α :=
  match all.find? fun constant => nameOf constant == found with
  | some constant => .ok constant
  | none => .error (.unknownVariant found (all.map nameOf))

/-- Constants with names.  A constant is written as its name, and also read from
an object whose only member is the name with `null`. -/
def variants (nameOf : α → String) (all : List α) : Codec α where
  encode constant := Value.ofText (nameOf constant)
  decode
    | .string (some name) => variantOfName nameOf all name
    | .object ((some name, content) :: others) => do
        let constant ← variantOfName nameOf all name
        match content, others with
        | .null, [] => .ok constant
        | _, _ => .error .malformed
    | _ => .error .malformed

end Codec

/-! ## Records -/

/-- A field of a record. -/
structure Field (α : Type) where
  name : String
  codec : Codec α
  /-- The value of a field that is not given; none for a required field. -/
  absent : Option α
  /-- Which values are left out in writing. -/
  isHidden : α → Bool

namespace Field

variable {α : Type}

/-- A field that has to be given. -/
def required (name : String) (codec : Codec α) : Field α := ⟨name, codec, none, fun _ => false⟩

/-- A field with a value for when it is not given. -/
def defaulted (name : String) (codec : Codec α) (value : α) : Field α :=
  ⟨name, codec, some value, fun _ => false⟩

/-- An optional field that is left out when it has no value. -/
def optional (name : String) (codec : Codec α) : Field (Option α) :=
  ⟨name, codec.optional, some none, Option.isNone⟩

/-- An optional field that is written as `null` when it has no value. -/
def nullable (name : String) (codec : Codec α) : Field (Option α) :=
  ⟨name, codec.optional, some none, fun _ => false⟩

/-- The value of a field that was not given. -/
def missing (field : Field α) : Except Fault α :=
  match field.absent with
  | some value => .ok value
  | none => .error (.missingField field.name)

end Field

/-- The fields of a record in order, with the tuple of their values as index. -/
inductive Layout : Type → Type 1 where
  | done : Layout Unit
  | field {α β : Type} (head : Field α) (rest : Layout β) : Layout (α × β)

namespace Layout

/-- The values of the fields read so far. -/
def Draft : {τ : Type} → Layout τ → Type
  | _, done => Unit
  | _, @field α _ _ rest => Option α × Draft rest

/-- No field has been read. -/
def blank : {τ : Type} → (layout : Layout τ) → layout.Draft
  | _, done => ()
  | _, field _ rest => (none, rest.blank)

/-- Read a member into the draft; none if no field has its name. -/
def store (key : String) (value : Value) :
    {τ : Type} → (layout : Layout τ) → layout.Draft → Option (Except Fault layout.Draft)
  | _, done, _ => none
  | _, field head rest, draft =>
      if key = head.name then
        match draft.1 with
        | some _ => some (.error (.duplicateField key))
        | none => some ((head.codec.decode value).map fun content => (some content, draft.2))
      else
        (rest.store key value draft.2).map fun result => result.map fun others => (draft.1, others)

/-- Read a member, skipping one that no field has the name of. -/
def readMember {τ : Type} (layout : Layout τ) (draft : layout.Draft)
    (member : Option String × Value) : Except Fault layout.Draft :=
  match member.1 with
  | none => .error .malformed
  | some key =>
      match layout.store key member.2 draft with
      | some result => result
      | none => if member.2.isWhole then .ok draft else .error .malformed

/-- The record of a draft, with the values of the fields that were not given. -/
def finish : {τ : Type} → (layout : Layout τ) → layout.Draft → Except Fault τ
  | _, done, _ => .ok ()
  | _, field head rest, draft => do
      let first ←
        match draft.1 with
        | some content => .ok content
        | none => head.missing
      return (first, ← rest.finish draft.2)

/-- The record whose fields are the items of a list.  Only fields with a value
for that may be missing at the end. -/
def ofItems : {τ : Type} → Layout τ → List Value → Except Fault τ
  | _, done, [] => .ok ()
  | _, done, _ :: _ => .error .malformed
  | _, field head rest, [] =>
      match head.absent with
      | some content => do return (content, ← rest.ofItems [])
      | none => .error .malformed
  | _, field head rest, item :: items => do
      let first ← head.codec.decode item
      return (first, ← rest.ofItems items)

/-- The members that a record is written as. -/
def members : {τ : Type} → Layout τ → τ → List (String × Value)
  | _, done, _ => []
  | _, field head rest, (first, others) =>
      if head.isHidden first then rest.members others
      else (head.name, head.codec.encode first) :: rest.members others

/-- Records whose fields are laid out as given. -/
def codec {τ ρ : Type} (layout : Layout τ) (pack : τ → ρ) (unpack : ρ → τ) : Codec ρ where
  encode record := Value.ofMembers (layout.members (unpack record))
  decode
    | .object given => do
        let draft ← given.foldlM layout.readMember layout.blank
        return pack (← layout.finish draft)
    | .array items => (layout.ofItems items).map pack
    | _ => .error .malformed

end Layout

/-! ## Whole texts -/

namespace Codec

variable {α : Type}

/-- The value in a document.  Whatever follows the value makes it malformed. -/
def ofDocument (codec : Codec α) (document : Document) : Except Fault α := do
  let value ← codec.decode document.value
  if document.isAlone then .ok value else .error .malformed

/-- The value in a text. -/
def ofText (codec : Codec α) (text : String) : Except Fault α :=
  codec.ofDocument (.ofText text)

/-- The value in a text that is given as bytes. -/
def ofBytes (codec : Codec α) (bytes : ByteArray) : Except Fault α :=
  codec.ofDocument (.ofBytes bytes)

/-- The compact text of a value. -/
def toText (codec : Codec α) (value : α) : String := (codec.encode value).text

end Codec

end SwarmManager.Json
