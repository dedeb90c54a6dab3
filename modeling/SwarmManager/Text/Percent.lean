import SwarmManager.Text.Split
import SwarmManager.Text.Utf8

/-!
# Percent escapes and form queries

A percent sign and two hexadecimal digits stand for one byte; any other percent
sign stands for itself.  Path segments are decoded strictly, so a segment whose
bytes are no UTF-8 has no reading.  A query is a form: pairs between ampersands,
a plus sign for a space, and the replacement character where bytes are no UTF-8.

`encodeSegment` writes a text as a path segment: letters, digits and the four
marks that mean nothing in a path stand for themselves, and every other byte is
escaped.  `decode_encode` says that the bytes read back.
-/

namespace SwarmManager.Percent

set_option autoImplicit false

/-- The value of an ASCII hexadecimal digit of either case. -/
def hexValue? (byte : UInt8) : Option UInt8 :=
  if 48 ≤ byte && byte ≤ 57 then some (byte - 48)
  else if 65 ≤ byte && byte ≤ 70 then some (byte - 55)
  else if 97 ≤ byte && byte ≤ 102 then some (byte - 87)
  else none

/-- The bytes that escaped bytes stand for. -/
def decode : List UInt8 → List UInt8
  | 37 :: high :: low :: rest =>
      match hexValue? high, hexValue? low with
      | some upper, some lower => (upper * 16 + lower) :: decode rest
      | _, _ => 37 :: decode (high :: low :: rest)
  | byte :: rest => byte :: decode rest
  | [] => []
termination_by bytes => bytes.length

/-- The symbols that an escaped text stands for. -/
def symbols (bytes : List UInt8) : List Utf8.Symbol :=
  Utf8.symbols ⟨(decode bytes).toArray⟩

/-- A path segment without its escapes, if it stands for a text. -/
def decodeSegment? (segment : String) : Option String :=
  Utf8.strict? (symbols segment.toUTF8.toList)

/-! ## Writing escapes -/

/-- The hexadecimal digit, in upper case, of a number below sixteen. -/
def hexDigit (half : UInt8) : UInt8 := if half < 10 then half + 48 else half + 55

/-- Whether a byte is a letter, a digit or one of the marks `-`, `.`, `_`, `~`. -/
def isUnreserved (byte : UInt8) : Bool :=
  (48 ≤ byte && byte ≤ 57) || (65 ≤ byte && byte ≤ 90) || (97 ≤ byte && byte ≤ 122) ||
    byte == 45 || byte == 46 || byte == 95 || byte == 126

/-- A byte as it is written. -/
def encodeByte (byte : UInt8) : List UInt8 :=
  if isUnreserved byte then [byte] else [37, hexDigit (byte / 16), hexDigit (byte % 16)]

/-- Bytes as they are written. -/
def encode (bytes : List UInt8) : List UInt8 := bytes.flatMap encodeByte

/-- A text as a path segment. -/
def encodeSegment (text : String) : String :=
  String.ofList ((encode text.toUTF8.toList).map fun byte => Char.ofNat byte.toNat)

theorem hexValue?_hexDigit {half : UInt8} (small : half < 16) :
    hexValue? (hexDigit half) = some half := by
  have each : ∀ number : Fin 16,
      hexValue? (hexDigit (UInt8.ofNat number.val)) = some (UInt8.ofNat number.val) := by decide
  have bound : half.toNat < 16 := UInt8.lt_iff_toNat_lt.mp small
  have instanceOfEach := each ⟨half.toNat, bound⟩
  rwa [UInt8.ofNat_toNat] at instanceOfEach

theorem decode_unescaped {byte : UInt8} (plain : byte ≠ 37) (rest : List UInt8) :
    decode (byte :: rest) = byte :: decode rest := by
  rw [decode.eq_def]
  split
  next heading =>
    simp only [List.cons.injEq] at heading
    exact absurd heading.1 plain
  next heading =>
    simp only [List.cons.injEq] at heading
    obtain ⟨rfl, rfl⟩ := heading
    rfl
  next heading => simp at heading

/-- A written byte reads back, whatever follows it. -/
theorem decode_encodeByte (byte : UInt8) (rest : List UInt8) :
    decode (encodeByte byte ++ rest) = byte :: decode rest := by
  unfold encodeByte
  split
  next unreserved =>
    have plain : byte ≠ 37 := by
      rintro rfl
      exact absurd unreserved (by decide)
    exact decode_unescaped plain rest
  next =>
    have wide : byte.toNat < 256 := byte.toNat_lt
    have upper : byte / 16 < 16 := by
      rw [UInt8.lt_iff_toNat_lt, UInt8.toNat_div]
      show byte.toNat / 16 < 16
      omega
    have lower : byte % 16 < 16 := by
      rw [UInt8.lt_iff_toNat_lt, UInt8.toNat_mod]
      show byte.toNat % 16 < 16
      omega
    have whole : byte / 16 * 16 + byte % 16 = byte := by
      apply UInt8.toNat_inj.mp
      rw [UInt8.toNat_add, UInt8.toNat_mul, UInt8.toNat_div, UInt8.toNat_mod]
      show (byte.toNat / 16 * 16 % 256 + byte.toNat % 16) % 256 = byte.toNat
      omega
    simp only [List.cons_append, List.nil_append]
    rw [decode, hexValue?_hexDigit upper, hexValue?_hexDigit lower]
    simp only [whole]

/-- Written bytes read back. -/
theorem decode_encode (bytes : List UInt8) : decode (encode bytes) = bytes := by
  unfold encode
  induction bytes with
  | nil => rw [List.flatMap_nil, decode]
  | cons byte rest ih => rw [List.flatMap_cons, decode_encodeByte, ih]

/-- Whether a byte may stand in what is written. -/
def isWritten (byte : UInt8) : Bool := isUnreserved byte || byte == 37

/-- What is found of every byte is so. -/
theorem of_each_byte (holds : UInt8 → Prop)
    (each : ∀ number < 256, holds (UInt8.ofNat number)) (byte : UInt8) : holds byte := by
  have instanceOfEach := each byte.toNat byte.toNat_lt
  rwa [UInt8.ofNat_toNat] at instanceOfEach

theorem lt_of_isWritten {byte : UInt8} : isWritten byte → byte.toNat < 128 :=
  of_each_byte (fun byte => isWritten byte → byte.toNat < 128) (by decide +kernel) byte

theorem isWritten_of_mem_encode {byte : UInt8} {bytes : List UInt8} (listed : byte ∈ encode bytes) :
    isWritten byte := by
  obtain ⟨source, _, part⟩ := List.mem_flatMap.mp listed
  have each := of_each_byte (fun source => (encodeByte source).all isWritten)
    (by decide +kernel) source
  exact List.all_eq_true.mp each byte part

theorem exists_byte_of_mem_encodeSegment {text : String} {character : Char}
    (listed : character ∈ (encodeSegment text).toList) :
    ∃ byte, isWritten byte ∧ character = Char.ofNat byte.toNat := by
  rw [encodeSegment, String.toList_ofList] at listed
  obtain ⟨byte, part, rfl⟩ := List.mem_map.mp listed
  exact ⟨byte, isWritten_of_mem_encode part, rfl⟩

/-- A text that is written as a segment reads back. -/
theorem decodeSegment?_encodeSegment (text : String) :
    decodeSegment? (encodeSegment text) = some text := by
  have written := Utf8.toList_toUTF8_ascii (encode text.toUTF8.toList)
    fun byte part => lt_of_isWritten (isWritten_of_mem_encode part)
  rw [decodeSegment?, encodeSegment, written, symbols, decode_encode, Utf8.toList_eq_data,
    Array.toArray_toList]
  exact (congrArg Utf8.strict? (Utf8.symbols_toUTF8 text)).trans (Utf8.strict?_ofText text)

theorem encodeSegment_inj {text other : String} (same : encodeSegment text = encodeSegment other) :
    text = other := by
  have read := decodeSegment?_encodeSegment text
  rw [same, decodeSegment?_encodeSegment] at read
  exact (Option.some.inj read).symm

/-! ## Forms -/

/-- A name or value of a form without its escapes. -/
def decodeFormPart (part : String) : String :=
  let spaced := part.toUTF8.toList.map fun byte => if byte == 43 then 32 else byte
  Utf8.lossy (symbols spaced)

/-- The name and value pairs of a form.  Empty stretches between ampersands are
no pairs, and a stretch without an equals sign has an empty value. -/
def formPairs (query : String) : List (String × String) :=
  let stretches := (Text.splitAll '&' query.toList).filter fun stretch => !stretch.isEmpty
  stretches.map fun stretch =>
    match Text.splitFirst '=' stretch with
    | some (name, value) =>
        (decodeFormPart (String.ofList name), decodeFormPart (String.ofList value))
    | none => (decodeFormPart (String.ofList stretch), "")

/-- The pairs of two forms with an ampersand between them are those of the one and of the
other. -/
theorem formPairs_join (left right : String) :
    formPairs (left ++ "&" ++ right) = formPairs left ++ formPairs right := by
  have joined : (left ++ "&" ++ right).toList = left.toList ++ '&' :: right.toList := by
    rw [String.toList_append, String.toList_append, List.append_assoc]
    rfl
  simp only [formPairs, joined, Text.splitAll_join, List.filter_append, List.map_append]

/-- The value of a name in a form: none when the name does not occur, and no
reading when it occurs twice. -/
def formValue? (query name : String) : Option (Option String) :=
  match (formPairs query).filter fun pair => pair.1 == name with
  | [] => some none
  | [pair] => some (some pair.2)
  | _ => none

theorem formValue?_eq_some_none {query name : String} :
    formValue? query name = some none ↔
      ((formPairs query).filter fun pair => pair.1 == name) = [] := by
  rw [formValue?]
  split
  next none => exact iff_of_true rfl none
  next one => simp [one]
  next more _ => exact iff_of_false nofun more

end SwarmManager.Percent
