import SwarmManager.Text.Blank

/-!
# Characters from bytes

A byte text is read as a list of symbols: the characters it encodes in UTF-8,
and a mark for each stretch of bytes that encodes none.  A stretch ends where no
longer stretch could still be the start of a character, so one mark stands for
one replacement character.

A strict reading is a list of symbols without marks; a lossy reading puts the
replacement character for each mark; a JSON text may hold marks inside strings
that nobody reads.
-/

namespace SwarmManager.Utf8

set_option autoImplicit false

/-- A character, or `none` for a stretch of bytes that encodes no character. -/
abbrev Symbol := Option Char

/-- The byte at an index, zero past the end. -/
def byteAt (bytes : ByteArray) (index : Nat) : Nat :=
  if inside : index < bytes.size then bytes[index].toNat else 0

/-- Whether the byte at an index lies in a range. -/
def byteIn (bytes : ByteArray) (index low high : Nat) : Bool :=
  low ≤ byteAt bytes index && byteAt bytes index ≤ high

/-- Whether the byte at `index + 1` may follow the lead byte at `index` in an
encoding of three or four bytes. -/
def secondFits (bytes : ByteArray) (index : Nat) : Bool :=
  let lead := byteAt bytes index
  if lead == 0xE0 then byteIn bytes (index + 1) 0xA0 0xBF
  else if lead == 0xED then byteIn bytes (index + 1) 0x80 0x9F
  else if lead == 0xF0 then byteIn bytes (index + 1) 0x90 0xBF
  else if lead == 0xF4 then byteIn bytes (index + 1) 0x80 0x8F
  else (0xE1 ≤ lead && lead ≤ 0xF3) && byteIn bytes (index + 1) 0x80 0xBF

/-- How many bytes, from an index at which no character is encoded, are the start
of some encoding; one byte if none is. -/
def strayLength (bytes : ByteArray) (index : Nat) : Nat :=
  if secondFits bytes index then
    if 0xF0 ≤ byteAt bytes index && byteIn bytes (index + 2) 0x80 0xBF then 3 else 2
  else 1

theorem strayLength_pos (bytes : ByteArray) (index : Nat) : 0 < strayLength bytes index := by
  unfold strayLength
  split
  · split <;> omega
  · omega

/-- The symbols of a byte text from an index on. -/
def symbolsFrom (bytes : ByteArray) (index : Nat) : List Symbol :=
  if index < bytes.size then
    match bytes.utf8DecodeChar? index with
    | some character => some character :: symbolsFrom bytes (index + character.utf8Size)
    | none => none :: symbolsFrom bytes (index + strayLength bytes index)
  else []
termination_by bytes.size - index
decreasing_by
  · have := Char.utf8Size_pos character
    omega
  · have := strayLength_pos bytes index
    omega

/-- The symbols of a byte text. -/
def symbols (bytes : ByteArray) : List Symbol := symbolsFrom bytes 0

/-- The symbols of a text that is given as characters. -/
def ofText (text : String) : List Symbol := text.toList.map some

/-- The text of symbols none of which is a mark. -/
def strict? (symbols : List Symbol) : Option String :=
  (symbols.mapM id).map String.ofList

/-- The text of symbols, with the replacement character for each mark. -/
def lossy (symbols : List Symbol) : String :=
  String.ofList (symbols.map fun symbol => symbol.getD (Char.ofNat 0xFFFD))

theorem strict?_ofText (text : String) : strict? (ofText text) = some text := by
  have all : ∀ characters : List Char, (characters.map some).mapM id = some characters := by
    intro characters
    induction characters with
    | nil => rfl
    | cons character rest ih => simp [List.mapM_cons, ih]
  simp [strict?, ofText, all]

/-! ## Encoded texts -/

theorem size_utf8Encode_singleton (character : Char) :
    [character].utf8Encode.size = character.utf8Size := by
  rw [List.utf8Encode_singleton, List.size_toByteArray, String.length_utf8EncodeChar]

/-- Behind the encoding of a text, the encoding of another one is read as it was
written. -/
theorem symbolsFrom_utf8Encode (before characters : List Char) :
    symbolsFrom (before ++ characters).utf8Encode before.utf8Encode.size =
      characters.map some := by
  induction characters generalizing before with
  | nil =>
      rw [symbolsFrom, List.append_nil, if_neg (Nat.lt_irrefl _)]
      rfl
  | cons first rest ih =>
      have whole : (before ++ first :: rest).utf8Encode =
          before.utf8Encode ++ (first :: rest).utf8Encode := List.utf8Encode_append
      have inside : before.utf8Encode.size < (before ++ first :: rest).utf8Encode.size := by
        have positive := Char.utf8Size_pos first
        rw [whole, List.utf8Encode_cons, ByteArray.size_append, ByteArray.size_append,
          size_utf8Encode_singleton]
        omega
      have found : (before ++ first :: rest).utf8Encode.utf8DecodeChar? before.utf8Encode.size =
          some first := by
        rw [ByteArray.utf8DecodeChar?_eq_utf8DecodeChar?_extract, whole,
          ByteArray.extract_append_eq_right rfl ByteArray.size_append]
        exact List.utf8DecodeChar?_utf8Encode_cons
      have grown : (before ++ [first]).utf8Encode.size =
          before.utf8Encode.size + first.utf8Size := by
        rw [List.utf8Encode_append, ByteArray.size_append, size_utf8Encode_singleton]
      have later := ih (before ++ [first])
      rw [List.append_assoc, grown] at later
      rw [symbolsFrom, if_pos inside, found]
      exact congrArg (some first :: ·) later

/-- The bytes of a text are read as its characters. -/
theorem symbols_toUTF8 (text : String) : symbols text.toUTF8 = ofText text := by
  have read := symbolsFrom_utf8Encode [] text.toList
  rw [List.nil_append, String.utf8Encode_toList] at read
  exact read

/-! ## Bytes of a text -/

/-- The list of the bytes is that of the array. -/
theorem toList_eq_data (bytes : ByteArray) : bytes.toList = bytes.data.toList := by
  have loop : ∀ index seen, ByteArray.toList.loop bytes index seen =
      seen.reverse ++ bytes.data.toList.drop index := by
    intro index seen
    induction index, seen using ByteArray.toList.loop.induct bytes with
    | case1 index seen inside ih =>
      have here : bytes.data.toList.drop index =
          bytes.get! index :: bytes.data.toList.drop (index + 1) := by
        have held : index < bytes.data.toList.length := inside
        rw [List.drop_eq_getElem_cons held, Array.getElem_toList, ByteArray.get!,
          getElem!_pos bytes.data index inside]
      rw [ByteArray.toList.loop, if_pos inside, ih, here, List.reverse_cons, List.append_assoc]
      rfl
    | case2 index seen outside =>
      have past : bytes.data.toList.length ≤ index := Nat.le_of_not_lt outside
      rw [ByteArray.toList.loop, if_neg outside, List.drop_eq_nil_of_le past, List.append_nil]
  exact loop 0 []

theorem utf8EncodeChar_ascii {byte : UInt8} (ascii : byte.toNat < 128) :
    String.utf8EncodeChar (Char.ofNat byte.toNat) = [byte] := by
  have code : (Char.ofNat byte.toNat).val.toNat = byte.toNat := by
    rw [Char.ofNat, dif_pos (.inl (by omega))]
    rfl
  rw [String.utf8EncodeChar, code]
  simp [Nat.le_of_lt_succ ascii]

/-- Characters below 128 are written in one byte each. -/
theorem toList_toUTF8_ascii (bytes : List UInt8) (ascii : ∀ byte ∈ bytes, byte.toNat < 128) :
    (String.ofList (bytes.map fun byte => Char.ofNat byte.toNat)).toUTF8.toList = bytes := by
  rw [toList_eq_data]
  change (String.ofList _).toByteArray.data.toList = _
  rw [← String.utf8Encode_toList, String.toList_ofList]
  induction bytes with
  | nil => rfl
  | cons first rest ih =>
    rw [List.map_cons, List.utf8Encode_cons, List.utf8Encode_singleton,
      utf8EncodeChar_ascii (ascii first List.mem_cons_self), ByteArray.toList_data_append,
      List.toList_data_toByteArray, ih fun byte later => ascii byte (List.mem_cons_of_mem _ later)]
    rfl

end SwarmManager.Utf8
