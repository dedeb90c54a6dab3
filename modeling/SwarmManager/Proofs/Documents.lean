import SwarmManager.Json.Codec

/-!
# Documents that were written

A value that has only leaves and keys that records write is called plain.  Its
text is read back as the value, whether it is read as characters or as bytes:
`Document.ofText_text` and `Document.ofBytes_text`.

The argument follows the two stages of reading.  The text of a plain value is cut
into the tokens that spell the value out (`tokens_render`), and these tokens are
read as the value inside any containers (`Document.resume_spelling`).  Both are
inductions over the value, its items and its members together.  What follows a
numeral has to end it; every mark that can follow a value does.
-/

namespace SwarmManager.Json

set_option autoImplicit false

open SwarmManager.Utf8 (Symbol)

/-! ## String literals -/

/-- A piece that stands for a character, whatever follows it. -/
def Piece.StandsFor (piece : Piece) (character : Char) : Prop :=
  ∀ rest : List Piece, assemble (piece :: rest) = (assemble rest).map (character :: ·)

/-- A piece that some symbols inside a literal are read as, whatever follows
them. -/
def Piece.IsReadFrom (piece : Piece) (symbols : List Symbol) : Prop :=
  ∀ rest : List Symbol, takeString (symbols ++ rest) =
    (takeString rest).map fun taken => (piece :: taken.1, taken.2)

theorem Piece.standsFor_unit {character : Char} (control : character.toNat < 32) :
    (Piece.unit character.toNat).StandsFor character := by
  intro rest
  have single : character.toNat < 0xD800 ∨ 0xDFFF < character.toNat := Or.inl (by omega)
  rw [assemble.eq_def]
  simp only [if_pos single, Char.ofNat_toNat]

/-- The four digits of a control character give its number. -/
theorem codeUnit?_hexDigits : ∀ number < 32,
    codeUnit? (some '0') (some '0') (some (hexDigit (number / 16)))
      (some (hexDigit (number % 16))) = some number := by
  decide

theorem Piece.isReadFrom_short {escaped : Symbol} {character : Char}
    (short : shortEscape? escaped = some character) :
    (Piece.character character).IsReadFrom [some '\\', escaped] := by
  intro rest
  have noUnit : escaped ≠ some 'u' := by
    rintro rfl
    have absent : shortEscape? (some 'u') = none := rfl
    exact absurd (absent.symm.trans short) nofun
  rw [List.cons_append, List.cons_append, List.nil_append, takeString, short]
  · cases takeString rest <;> rfl
  · intro first second third fourth after same
    exact absurd same noUnit

theorem Piece.isReadFrom_unit {number : Nat} (control : number < 32) :
    (Piece.unit number).IsReadFrom [some '\\', some 'u', some '0', some '0',
      some (hexDigit (number / 16)), some (hexDigit (number % 16))] := by
  intro rest
  simp only [List.cons_append, List.nil_append, takeString, codeUnit?_hexDigits number control]
  cases takeString rest <;> rfl

theorem Piece.isReadFrom_character {character : Char} (quote : character ≠ '"')
    (backslash : character ≠ '\\') (visible : ¬ character.toNat < 32) :
    (Piece.character character).IsReadFrom [some character] := by
  intro rest
  rw [List.cons_append, List.nil_append, takeString, if_neg (by simp [backslash, visible])]
  · cases takeString rest <;> rfl
  · exact quote
  · intro _ _ _ _ _ _ same
    exact absurd same backslash
  · intro _ _ _ same
    exact absurd same backslash

/-- What a character is written as is read as the character. -/
theorem exists_isReadFrom_escape (character : Char) :
    ∃ piece : Piece, piece.StandsFor character ∧
      piece.IsReadFrom ((escape character).map some) := by
  have short (letter : Char) (stands : shortEscape? (some letter) = some character)
      (written : escape character = ['\\', letter]) :
      ∃ piece : Piece, piece.StandsFor character ∧
        piece.IsReadFrom ((escape character).map some) :=
    ⟨.character character, fun _ => rfl, written ▸ Piece.isReadFrom_short stands⟩
  have ofCode {code : Nat} (same : character.toNat = code) : character = Char.ofNat code := by
    rw [← same, Char.ofNat_toNat]
  by_cases quote : character = '"'
  · exact short '"' (by rw [quote]; rfl) (by rw [quote]; rfl)
  by_cases backslash : character = '\\'
  · exact short '\\' (by rw [backslash]; rfl) (by rw [backslash]; rfl)
  by_cases backspace : character.toNat = 8
  · exact short 'b' (by rw [ofCode backspace]; rfl) (by rw [ofCode backspace]; rfl)
  by_cases tab : character.toNat = 9
  · exact short 't' (by rw [ofCode tab]; rfl) (by rw [ofCode tab]; rfl)
  by_cases lineFeed : character.toNat = 10
  · exact short 'n' (by rw [ofCode lineFeed]; rfl) (by rw [ofCode lineFeed]; rfl)
  by_cases formFeed : character.toNat = 12
  · exact short 'f' (by rw [ofCode formFeed]; rfl) (by rw [ofCode formFeed]; rfl)
  by_cases carriageReturn : character.toNat = 13
  · exact short 'r' (by rw [ofCode carriageReturn]; rfl) (by rw [ofCode carriageReturn]; rfl)
  simp only [escape, if_neg quote, if_neg backslash, if_neg backspace, if_neg tab,
    if_neg lineFeed, if_neg formFeed, if_neg carriageReturn]
  split
  next control => exact ⟨_, Piece.standsFor_unit control, Piece.isReadFrom_unit control⟩
  next visible =>
    exact ⟨_, fun _ => rfl, Piece.isReadFrom_character quote backslash visible⟩

/-- What a text is written as is read as the text, up to the closing quote. -/
theorem takeString_escape (characters : List Char) (rest : List Symbol) :
    ∃ pieces : List Piece,
      takeString ((characters.flatMap escape).map some ++ some '"' :: rest) =
        some (pieces, rest) ∧ assemble pieces = some characters := by
  induction characters with
  | nil => exact ⟨[], by rw [List.flatMap_nil, List.map_nil, List.nil_append, takeString], rfl⟩
  | cons character characters ih =>
      obtain ⟨pieces, taken, assembled⟩ := ih
      obtain ⟨piece, stands, isRead⟩ := exists_isReadFrom_escape character
      refine ⟨piece :: pieces, ?_, ?_⟩
      · rw [List.flatMap_cons, List.map_append, List.append_assoc, isRead, taken]
        rfl
      · rw [stands, assembled]
        rfl

theorem tokens_quote (text : String) (rest : List Symbol) :
    tokens ((quote text).map some ++ rest) = .string (some text) :: tokens rest := by
  obtain ⟨pieces, taken, assembled⟩ := takeString_escape text.toList rest
  have shape : (quote text).map some ++ rest =
      some '"' :: ((text.toList.flatMap escape).map some ++ some '"' :: rest) := by
    simp [quote]
  rw [shape, tokens]
  split
  next found =>
    rw [taken] at found
    cases found
    rw [assembled, Option.map_some, String.ofList_toList]
  next found => simp [taken] at found

/-! ## Numerals -/

/-- No numeral goes on at the start of a text. -/
def EndsNumeral (rest : List Symbol) : Prop :=
  ∀ (character : Char) (after : List Symbol), rest = some character :: after →
    Decimal.isDigit character = false ∧ character ≠ '.' ∧ character ≠ 'e' ∧ character ≠ 'E'

theorem endsNumeral_nil : EndsNumeral [] := by
  intro character after same
  cases same

theorem endsNumeral_cons {mark : Char} (after : List Symbol)
    (apart : Decimal.isDigit mark = false ∧ mark ≠ '.' ∧ mark ≠ 'e' ∧ mark ≠ 'E') :
    EndsNumeral (some mark :: after) := by
  intro character behind same
  cases same
  exact apart

theorem takeDigits_append {numeral : List Char} {rest : List Symbol}
    (digits : numeral.all Decimal.isDigit = true) (ends : EndsNumeral rest) :
    takeDigits (numeral.map some ++ rest) = (numeral, rest) := by
  induction numeral with
  | nil =>
      match rest with
      | [] => rfl
      | none :: _ => rfl
      | some character :: after =>
          have stops := (ends character after rfl).1
          simp [takeDigits, stops]
  | cons first more ih =>
      simp only [List.all_cons, Bool.and_eq_true] at digits
      simp [takeDigits, digits.1, ih digits.2]

/-- A written numeral is a whole number: only zero is written with a zero in
front. -/
theorem takeWhole_digits (number : Nat) {rest : List Symbol} (ends : EndsNumeral rest) :
    takeWhole ((Decimal.digits number).map some ++ rest) = some (Decimal.digits number, rest) := by
  rw [takeWhole, takeDigits_append (Decimal.all_isDigit_digits number) ends]
  rcases Nat.eq_zero_or_pos number with rfl | positive
  · rw [Decimal.digits]
    rfl
  · have nonempty := Decimal.digits_ne_nil number
    have head := Decimal.head?_digits_ne positive
    split
    next none => exact absurd (Prod.mk.inj none).1 nonempty
    next zero =>
      rw [(Prod.mk.inj zero).1] at head
      exact absurd rfl head
    next zero =>
      rw [(Prod.mk.inj zero).1] at head
      exact absurd rfl head
    next same =>
      cases same
      rfl

theorem takeFraction_of_endsNumeral {rest : List Symbol} (ends : EndsNumeral rest) :
    takeFraction rest = some (false, rest) := by
  unfold takeFraction
  split
  next after => exact absurd rfl (ends '.' after rfl).2.1
  next => rfl

theorem takeExponent_of_endsNumeral {rest : List Symbol} (ends : EndsNumeral rest) :
    takeExponent rest = some (false, rest) := by
  unfold takeExponent
  split
  next character after =>
    have apart := (ends character after rfl).2.2
    rw [if_neg (by simp [apart])]
  next => rfl

theorem takeUnsigned_digits (negative : Bool) (number : Nat) {rest : List Symbol}
    (ends : EndsNumeral rest) (proper : negative = true → number ≠ 0) :
    takeUnsigned negative ((Decimal.digits number).map some ++ rest) =
      some (.integer (if negative then -(number : Int) else number), rest) := by
  simp only [takeUnsigned, takeWhole_digits number ends, takeFraction_of_endsNumeral ends,
    takeExponent_of_endsNumeral ends, Option.bind_eq_bind, Option.bind_some,
    Decimal.value_digits]
  cases negative with
  | false => rfl
  | true => simp [proper rfl]

theorem tokens_minus {symbols rest : List Symbol} {token : Token}
    (taken : takeUnsigned true symbols = some (token, rest)) :
    tokens (some '-' :: symbols) = token :: tokens rest := by
  rw [tokens]
  split
  next found =>
    rw [taken] at found
    cases found
    rfl
  next found => simp [taken] at found

theorem tokens_digit {digit : Char} {symbols rest : List Symbol} {token : Token}
    (isDigit : Decimal.isDigit digit = true)
    (taken : takeUnsigned false (some digit :: symbols) = some (token, rest)) :
    tokens (some digit :: symbols) = token :: tokens rest := by
  have apart (other : Char) (noDigit : Decimal.isDigit other = false) : digit ≠ other := by
    rintro rfl
    simp [noDigit] at isDigit
  have solid : Text.isJsonBlank digit = false := by
    simp [Text.isJsonBlank, apart ' ' rfl, apart '\t' rfl, apart '\n' rfl, apart '\r' rfl]
  rw [tokens]
  · rw [if_neg (by simp [solid])]
    split
    next found =>
      rw [taken] at found
      cases found
      rfl
    next found => simp [taken] at found
  -- No mark and no word of JSON begins with a digit.
  all_goals first
    | exact apart _ rfl
    | (intros; exact apart _ rfl ‹_›)

theorem tokens_integerChars (number : Int) {rest : List Symbol} (ends : EndsNumeral rest) :
    tokens ((integerChars number).map some ++ rest) = .integer number :: tokens rest := by
  unfold integerChars
  split
  next negative =>
    have taken := takeUnsigned_digits true number.natAbs ends fun _ : true = true =>
      Int.natAbs_ne_zero.mpr (Int.ne_of_lt negative)
    rw [List.map_cons, List.cons_append, tokens_minus taken, if_pos rfl]
    congr 2
    omega
  next positive =>
    have taken := takeUnsigned_digits false number.natAbs ends nofun
    have digits := Decimal.all_isDigit_digits number.natAbs
    obtain ⟨first, more, shape⟩ :=
      List.exists_cons_of_ne_nil (Decimal.digits_ne_nil number.natAbs)
    rw [shape] at taken digits ⊢
    rw [List.all_cons, Bool.and_eq_true] at digits
    rw [List.map_cons, List.cons_append] at taken ⊢
    rw [tokens_digit digits.1 taken, if_neg nofun]
    congr 2
    omega

/-! ## Plain values -/

namespace Value

mutual
/-- Whether a value has only leaves and keys that records write. -/
def isPlain : Value → Bool
  | .array items => arePlain items
  | .object members => membersArePlain members
  | .string text => text.isSome
  | .null => true
  | .bool _ => true
  | .integer _ => true
  | .real => false
  | .broken => false

/-- Whether all of a list of values are plain. -/
def arePlain : List Value → Bool
  | [] => true
  | value :: rest => value.isPlain && arePlain rest

/-- Whether all members have a key and a plain value. -/
def membersArePlain : List (Option String × Value) → Bool
  | [] => true
  | (key, value) :: rest => key.isSome && value.isPlain && membersArePlain rest
end

mutual
/-- The tokens that spell out a value. -/
def spelling : Value → List Token
  | .array items => .beginArray :: spellItems items ++ [.endArray]
  | .object members => .beginObject :: spellMembers members ++ [.endObject]
  | .string text => [.string text]
  | .null => [.null]
  | .bool truth => [.bool truth]
  | .integer number => [.integer number]
  | .real => [.real]
  | .broken => [.bad]

/-- The tokens of values with commas between them. -/
def spellItems : List Value → List Token
  | [] => []
  | [value] => value.spelling
  | value :: next :: rest => value.spelling ++ .comma :: spellItems (next :: rest)

/-- The tokens of members with commas between them. -/
def spellMembers : List (Option String × Value) → List Token
  | [] => []
  | [(key, value)] => .string key :: .colon :: value.spelling
  | (key, value) :: next :: rest =>
      .string key :: .colon :: value.spelling ++ .comma :: spellMembers (next :: rest)
end

theorem isPlain_array {items : List Value} (plain : ∀ item ∈ items, item.isPlain = true) :
    (array items).isPlain = true := by
  rw [isPlain]
  induction items with
  | nil => rfl
  | cons first rest ih =>
      rw [arePlain, plain first List.mem_cons_self, Bool.true_and]
      exact ih fun item member => plain item (List.mem_cons_of_mem _ member)

theorem isPlain_ofMembers {members : List (String × Value)}
    (plain : ∀ member ∈ members, member.2.isPlain = true) :
    (ofMembers members).isPlain = true := by
  rw [ofMembers, isPlain]
  induction members with
  | nil => rfl
  | cons first rest ih =>
      rw [List.map_cons, membersArePlain, plain first List.mem_cons_self]
      exact ih fun member inside => plain member (List.mem_cons_of_mem _ inside)

end Value

/-! ## Cutting the text of a value -/

mutual
/-- The text of a plain value is cut into the tokens that spell it out, up to
anything that ends a numeral. -/
theorem tokens_render : ∀ (value : Value) (rest : List Symbol), value.isPlain = true →
    EndsNumeral rest → tokens (value.render.map some ++ rest) = value.spelling ++ tokens rest
  | .null, _, _, _ => by simp [Value.render, Value.spelling, tokens]
  | .bool true, _, _, _ => by simp [Value.render, Value.spelling, tokens]
  | .bool false, _, _, _ => by simp [Value.render, Value.spelling, tokens]
  | .integer number, _, _, ends => by
      rw [Value.render, tokens_integerChars number ends]
      rfl
  | .string (some text), rest, _, _ => by
      rw [Value.render, tokens_quote]
      rfl
  | .string none, _, plain, _ => absurd plain (by simp [Value.isPlain])
  | .real, _, plain, _ => absurd plain (by simp [Value.isPlain])
  | .broken, _, plain, _ => absurd plain (by simp [Value.isPlain])
  | .array items, rest, plain, _ => by
      rw [Value.isPlain] at plain
      have inside := tokens_renderItems items (some ']' :: rest) plain
        (endsNumeral_cons rest (by decide))
      simp only [Value.render, Value.spelling, List.map_cons, List.map_append, List.map_nil,
        List.cons_append, List.append_assoc, List.nil_append]
      rw [tokens, inside, tokens]
  | .object members, rest, plain, _ => by
      rw [Value.isPlain] at plain
      have inside := tokens_renderMembers members (some '\x7d' :: rest) plain
        (endsNumeral_cons rest (by decide))
      simp only [Value.render, Value.spelling, List.map_cons, List.map_append, List.map_nil,
        List.cons_append, List.append_assoc, List.nil_append]
      rw [tokens, inside, tokens]

theorem tokens_renderItems : ∀ (items : List Value) (rest : List Symbol),
    Value.arePlain items = true → EndsNumeral rest →
    tokens ((Value.renderItems items).map some ++ rest) = Value.spellItems items ++ tokens rest
  | [], _, _, _ => rfl
  | [value], rest, plain, ends => by
      simp only [Value.arePlain, Bool.and_true] at plain
      exact tokens_render value rest plain ends
  | value :: next :: more, rest, plain, ends => by
      rw [Value.arePlain, Bool.and_eq_true] at plain
      have later := tokens_renderItems (next :: more) rest plain.2 ends
      simp only [Value.renderItems, Value.spellItems, List.map_cons, List.map_append,
        List.cons_append, List.append_assoc]
      rw [tokens_render value _ plain.1 (endsNumeral_cons _ (by decide)), tokens, later]

theorem tokens_renderMembers : ∀ (members : List (Option String × Value)) (rest : List Symbol),
    Value.membersArePlain members = true → EndsNumeral rest →
    tokens ((Value.renderMembers members).map some ++ rest) =
      Value.spellMembers members ++ tokens rest
  | [], _, _, _ => rfl
  | [(some key, value)], rest, plain, ends => by
      simp only [Value.membersArePlain, Option.isSome_some, Bool.true_and, Bool.and_true] at plain
      simp only [Value.renderMembers, Value.spellMembers, List.map_cons, List.map_append,
        List.cons_append, List.append_assoc, Option.getD_some]
      rw [tokens_quote, tokens, tokens_render value rest plain ends]
  | (some key, value) :: next :: more, rest, plain, ends => by
      rw [Value.membersArePlain, Bool.and_eq_true, Option.isSome_some, Bool.true_and] at plain
      have later := tokens_renderMembers (next :: more) rest plain.2 ends
      simp only [Value.renderMembers, Value.spellMembers, List.map_cons, List.map_append,
        List.cons_append, List.append_assoc, Option.getD_some]
      rw [tokens_quote, tokens, tokens_render value _ plain.1 (endsNumeral_cons _ (by decide)),
        tokens, later]
  | [(none, _)], _, plain, _ => absurd plain (by simp [Value.membersArePlain])
  | (none, _) :: _ :: _, _, plain, _ => absurd plain (by simp [Value.membersArePlain])
end

/-! ## Reading tokens -/

namespace Document

/-- Whether a value may come next inside open containers. -/
def TakesValue : List Frame → Prop
  | .object _ :: _ => False
  | _ => True

/-- The document that tokens spell out after some progress. -/
def carryOn (rest : List Token) : Progress → Document
  | .open frames expectation => resume frames expectation rest
  | .done value => ⟨value, rest.isEmpty⟩
  | .failed => ⟨.broken, false⟩

/-- Reading goes on after a token that completes a value. -/
theorem resume_close {frames outer : List Frame} {expectation : Expectation} {token : Token}
    {value : Value} (takes : TakesValue outer)
    (closes : step frames expectation token = close value outer) (rest : List Token) :
    resume frames expectation (token :: rest) = carryOn rest (close value outer) := by
  rw [resume, closes]
  match outer with
  | [] => rfl
  | .array _ :: _ => rfl
  | .entry _ _ :: _ => rfl
  | .object _ :: _ => exact takes.elim

/-- A plain value does not begin with the end of an array. -/
theorem resume_itemOrEnd {value : Value} (plain : value.isPlain = true) (frames : List Frame)
    (rest : List Token) :
    resume frames .itemOrEnd (value.spelling ++ rest) =
      resume frames .value (value.spelling ++ rest) := by
  cases value with
  | real => exact absurd plain (by simp [Value.isPlain])
  | broken => exact absurd plain (by simp [Value.isPlain])
  | null => rfl
  | bool => rfl
  | integer => rfl
  | string => rfl
  | array => rfl
  | object => rfl

theorem exists_spellItems (first : Value) (more : List Value) :
    ∃ rest : List Token, Value.spellItems (first :: more) = first.spelling ++ rest := by
  cases more with
  | nil => exact ⟨[], by rw [Value.spellItems, List.append_nil]⟩
  | cons next more => exact ⟨_, by rw [Value.spellItems]⟩

mutual
/-- The tokens that spell out a plain value are read as the value. -/
theorem resume_spelling : ∀ (value : Value) (frames : List Frame) (rest : List Token),
    value.isPlain = true → TakesValue frames →
    resume frames .value (value.spelling ++ rest) = carryOn rest (close value frames)
  | .null, _, rest, _, takes => resume_close takes rfl rest
  | .bool _, _, rest, _, takes => resume_close takes rfl rest
  | .integer _, _, rest, _, takes => resume_close takes rfl rest
  | .string _, _, rest, _, takes => resume_close takes rfl rest
  | .real, _, _, plain, _ => absurd plain (by simp [Value.isPlain])
  | .broken, _, _, plain, _ => absurd plain (by simp [Value.isPlain])
  | .array [], frames, rest, _, takes => by
      show resume (.array [] :: frames) .itemOrEnd (.endArray :: rest) = _
      exact resume_close takes rfl rest
  | .array (first :: more), frames, rest, plain, takes => by
      rw [Value.isPlain] at plain
      have inside := resume_spellItems (first :: more) [] frames rest plain takes nofun
      rw [Value.arePlain, Bool.and_eq_true] at plain
      obtain ⟨tail, shape⟩ := exists_spellItems first more
      rw [shape, List.append_assoc] at inside
      rw [Value.spelling, shape, List.cons_append, List.cons_append, List.append_assoc,
        List.append_assoc]
      show resume (.array [] :: frames) .itemOrEnd _ = _
      rw [resume_itemOrEnd plain.1]
      exact inside
  | .object [], frames, rest, _, takes => by
      show resume (.object [] :: frames) .keyOrEnd (.endObject :: rest) = _
      exact resume_close takes rfl rest
  | .object (first :: more), frames, rest, plain, takes => by
      rw [Value.isPlain] at plain
      have inside := resume_spellMembers (first :: more) [] frames rest plain takes nofun
      rw [Value.spelling, List.cons_append, List.cons_append, List.append_assoc]
      cases more with
      | nil => exact inside
      | cons => exact inside

theorem resume_spellItems : ∀ (items held : List Value) (outer : List Frame)
    (rest : List Token), Value.arePlain items = true → TakesValue outer → items ≠ [] →
    resume (.array held :: outer) .value (Value.spellItems items ++ .endArray :: rest) =
      carryOn rest (close (.array (held.reverse ++ items)) outer)
  | [], _, _, _, _, _, nonempty => absurd rfl nonempty
  | [first], held, outer, rest, plain, takes, _ => by
      simp only [Value.arePlain, Bool.and_true] at plain
      rw [Value.spellItems, resume_spelling first (.array held :: outer) _ plain trivial]
      show resume (.array (first :: held) :: outer) .commaOrEnd (.endArray :: rest) = _
      rw [resume_close takes rfl rest, List.reverse_cons]
  | first :: next :: more, held, outer, rest, plain, takes, _ => by
      rw [Value.arePlain, Bool.and_eq_true] at plain
      have later :=
        resume_spellItems (next :: more) (first :: held) outer rest plain.2 takes nofun
      rw [List.reverse_cons, List.append_assoc] at later
      rw [Value.spellItems, List.append_assoc,
        resume_spelling first (.array held :: outer) _ plain.1 trivial]
      exact later

theorem resume_spellMembers : ∀ (members held : List (Option String × Value))
    (outer : List Frame) (rest : List Token), Value.membersArePlain members = true →
    TakesValue outer → members ≠ [] →
    resume (.object held :: outer) .key (Value.spellMembers members ++ .endObject :: rest) =
      carryOn rest (close (.object (held.reverse ++ members)) outer)
  | [], _, _, _, _, _, nonempty => absurd rfl nonempty
  | [(key, value)], held, outer, rest, plain, takes, _ => by
      simp only [Value.membersArePlain, Bool.and_true, Bool.and_eq_true] at plain
      show resume (.entry held key :: outer) .value (value.spelling ++ .endObject :: rest) = _
      rw [resume_spelling value (.entry held key :: outer) _ plain.2 trivial]
      show resume (.object ((key, value) :: held) :: outer) .commaOrEnd (.endObject :: rest) = _
      rw [resume_close takes rfl rest, List.reverse_cons]
  | (key, value) :: next :: more, held, outer, rest, plain, takes, _ => by
      rw [Value.membersArePlain, Bool.and_eq_true, Bool.and_eq_true] at plain
      have later :=
        resume_spellMembers (next :: more) ((key, value) :: held) outer rest plain.2 takes nofun
      rw [List.reverse_cons, List.append_assoc] at later
      rw [Value.spellMembers, List.cons_append, List.cons_append, List.cons_append,
        List.cons_append, List.append_assoc]
      show resume (.entry held key :: outer) .value _ = _
      rw [resume_spelling value (.entry held key :: outer) _ plain.1.2 trivial]
      exact later
end

/-- The text of a plain value is read as the value and nothing else. -/
theorem ofText_text {value : Value} (plain : value.isPlain = true) :
    ofText value.text = ⟨value, true⟩ := by
  have cut := tokens_render value [] plain endsNumeral_nil
  rw [List.append_nil, tokens] at cut
  rw [ofText, ofTokens, Utf8.ofText, Value.text, String.toList_ofList, cut,
    resume_spelling value [] [] plain trivial]
  rfl

/-- The bytes of the text of a plain value are read as the value and nothing
else. -/
theorem ofBytes_text {value : Value} (plain : value.isPlain = true) :
    ofBytes value.text.toUTF8 = ⟨value, true⟩ := by
  rw [ofBytes, Utf8.symbols_toUTF8]
  exact ofText_text plain

end Document

end SwarmManager.Json
