import SwarmManager.Json.Value

/-!
# Sizes of JSON texts

How many bytes a value takes when it is written matters only where a limit is set,
and mostly the limit is far away.  `sizeBound` is a number of bytes that is enough
for a value and is found without writing it, and `exceeds` writes the value out only
if that number is over the limit: `exceeds_iff`.

A text is no shorter than the texts in it (`length_render_member`, `length_render_text`).
-/

namespace SwarmManager.Json

set_option autoImplicit false

/-- A number of bytes that is enough for a string literal. -/
def quoteBound (text : String) : Nat := 6 * text.utf8ByteSize + 2

namespace Value

mutual
/-- A number of bytes that is enough for the text of a value. -/
def sizeBound : Value → Nat
  | .integer number => number.natAbs.log2 + 2
  | .string (some text) => quoteBound text
  | .array items => itemsBound items + 2
  | .object members => membersBound members + 2
  | .null => 5
  | .bool _ => 5
  | .real => 5
  | .string none => 5
  | .broken => 5

/-- A number of bytes that is enough for values with commas between them. -/
def itemsBound : List Value → Nat
  | [] => 0
  | value :: rest => value.sizeBound + 1 + itemsBound rest

/-- A number of bytes that is enough for members with commas between them. -/
def membersBound : List (Option String × Value) → Nat
  | [] => 0
  | (key, value) :: rest => quoteBound (key.getD "") + value.sizeBound + 2 + membersBound rest
end

/-- Whether the text of a value has more bytes than a limit. -/
def exceeds (value : Value) (limit : Nat) : Bool :=
  limit < value.sizeBound && limit < value.text.utf8ByteSize

end Value

/-! ## The bound holds -/

theorem utf8ByteSize_ofList_cons (character : Char) (text : List Char) :
    (String.ofList (character :: text)).utf8ByteSize =
      character.utf8Size + (String.ofList text).utf8ByteSize := by
  rw [String.ofList_cons, String.utf8ByteSize_append, String.utf8ByteSize_singleton]

theorem utf8ByteSize_ofList_append (left right : List Char) :
    (String.ofList (left ++ right)).utf8ByteSize =
      (String.ofList left).utf8ByteSize + (String.ofList right).utf8ByteSize := by
  rw [String.ofList_append, String.utf8ByteSize_append]

/-- A text has a byte at least for each of its characters. -/
theorem length_le_utf8ByteSize_ofList (text : List Char) :
    text.length ≤ (String.ofList text).utf8ByteSize := by
  induction text with
  | nil => exact Nat.zero_le _
  | cons character rest ih =>
      have positive := character.utf8Size_pos
      rw [utf8ByteSize_ofList_cons, List.length_cons]
      omega

theorem utf8Size_digit {number : Nat} (small : number < 10) :
    (Decimal.digit number).utf8Size = 1 := by
  rw [Char.utf8Size_eq_one_iff, UInt32.le_iff_toNat_le]
  have code := Decimal.toNat_digit small
  rw [Char.toNat] at code
  rw [code]
  show 48 + number ≤ 127
  omega

/-- A numeral has no more digits in decimal than in binary. -/
theorem utf8ByteSize_digits_le (number : Nat) :
    (String.ofList (Decimal.digits number)).utf8ByteSize ≤ number.log2 + 1 := by
  induction number using Nat.strongRecOn with
  | ind number ih =>
      rw [Decimal.digits]
      split
      next small =>
        rw [utf8ByteSize_ofList_cons, utf8Size_digit small]
        exact Nat.le_add_left 1 _
      next large =>
        have shorter := ih (number / 10) (by omega)
        have halved : (number / 10).log2 + 1 ≤ number.log2 := by
          have tenth := Nat.log2_self_le (n := number / 10) (by omega)
          have doubled : 2 ^ ((number / 10).log2 + 1) = 2 ^ (number / 10).log2 * 2 := rfl
          exact (Nat.le_log2 (by omega)).mpr (by omega)
        rw [utf8ByteSize_ofList_append, utf8ByteSize_ofList_cons,
          utf8Size_digit (Nat.mod_lt _ (by decide))]
        show _ + (1 + 0) ≤ _
        omega

theorem utf8ByteSize_integerChars_le (number : Int) :
    (String.ofList (integerChars number)).utf8ByteSize ≤ number.natAbs.log2 + 2 := by
  have digits := utf8ByteSize_digits_le number.natAbs
  rw [integerChars]
  split
  · rw [utf8ByteSize_ofList_cons]
    show 1 + _ ≤ _
    omega
  · omega

/-- An escaped character has at most six bytes, and only characters of one byte are escaped. -/
theorem utf8ByteSize_escape_le (character : Char) :
    (String.ofList (escape character)).utf8ByteSize ≤ 6 * character.utf8Size := by
  have positive := character.utf8Size_pos
  have hex {number : Nat} (small : number < 16) : (hexDigit number).utf8Size = 1 := by
    have each : ∀ number < 16, (hexDigit number).utf8Size = 1 := by decide
    exact each number small
  have short (first second : Char) (one : first.utf8Size = 1) (other : second.utf8Size = 1) :
      (String.ofList [first, second]).utf8ByteSize ≤ 6 * character.utf8Size := by
    rw [utf8ByteSize_ofList_cons, utf8ByteSize_ofList_cons, one, other]
    show 1 + (1 + 0) ≤ _
    omega
  unfold escape
  iterate 7
    split
    · exact short _ _ rfl rfl
  split
  next control =>
    simp only [utf8ByteSize_ofList_cons, hex (Nat.mod_lt _ (by decide : 0 < 16)),
      hex (show character.toNat / 16 < 16 by omega)]
    show 1 + (1 + (1 + (1 + (1 + (1 + 0))))) ≤ _
    omega
  next =>
    rw [utf8ByteSize_ofList_cons]
    show _ + 0 ≤ _
    omega

theorem utf8ByteSize_quote_le (text : String) :
    (String.ofList (quote text)).utf8ByteSize ≤ quoteBound text := by
  have escaped (characters : List Char) :
      (String.ofList (characters.flatMap escape)).utf8ByteSize ≤
        6 * (String.ofList characters).utf8ByteSize := by
    induction characters with
    | nil => exact Nat.le_refl _
    | cons character rest ih =>
        rw [List.flatMap_cons, utf8ByteSize_ofList_append, utf8ByteSize_ofList_cons]
        have first := utf8ByteSize_escape_le character
        omega
  have inner := escaped text.toList
  rw [String.ofList_toList] at inner
  rw [quote, List.cons_append, utf8ByteSize_ofList_cons, utf8ByteSize_ofList_append, quoteBound]
  show 1 + (_ + 1) ≤ _
  omega

namespace Value

mutual
theorem utf8ByteSize_render_le :
    (value : Value) → (String.ofList value.render).utf8ByteSize ≤ value.sizeBound
  | .integer number => utf8ByteSize_integerChars_le number
  | .string (some text) => utf8ByteSize_quote_le text
  | .array items => by
      have inner := utf8ByteSize_renderItems_le items
      rw [render, List.cons_append, utf8ByteSize_ofList_cons, utf8ByteSize_ofList_append, sizeBound]
      show 1 + (_ + 1) ≤ _
      omega
  | .object members => by
      have inner := utf8ByteSize_renderMembers_le members
      rw [render, List.cons_append, utf8ByteSize_ofList_cons, utf8ByteSize_ofList_append, sizeBound]
      show 1 + (_ + 1) ≤ _
      omega
  | .null => by decide
  | .bool true => by decide
  | .bool false => by decide
  | .real => by decide
  | .string none => by decide
  | .broken => by decide

theorem utf8ByteSize_renderItems_le :
    (items : List Value) → (String.ofList (renderItems items)).utf8ByteSize ≤ itemsBound items
  | [] => Nat.le_refl _
  | [value] => by
      have only := utf8ByteSize_render_le value
      rw [renderItems, itemsBound]
      omega
  | value :: next :: rest => by
      have first := utf8ByteSize_render_le value
      have others := utf8ByteSize_renderItems_le (next :: rest)
      rw [renderItems, utf8ByteSize_ofList_append, utf8ByteSize_ofList_cons, itemsBound]
      show _ + (1 + _) ≤ _
      omega

theorem utf8ByteSize_renderMembers_le :
    (members : List (Option String × Value)) →
      (String.ofList (renderMembers members)).utf8ByteSize ≤ membersBound members
  | [] => Nat.le_refl _
  | [(key, value)] => by
      have name := utf8ByteSize_quote_le (key.getD "")
      have only := utf8ByteSize_render_le value
      rw [renderMembers, utf8ByteSize_ofList_append, utf8ByteSize_ofList_cons, membersBound]
      show _ + (1 + _) ≤ _
      omega
  | (key, value) :: next :: rest => by
      have name := utf8ByteSize_quote_le (key.getD "")
      have first := utf8ByteSize_render_le value
      have others := utf8ByteSize_renderMembers_le (next :: rest)
      rw [renderMembers, utf8ByteSize_ofList_append, utf8ByteSize_ofList_append,
        utf8ByteSize_ofList_cons, utf8ByteSize_ofList_cons, membersBound]
      show _ + (1 + _) + (1 + _) ≤ _
      omega
end

/-- What is said to exceed a limit does so. -/
theorem exceeds_iff {value : Value} {limit : Nat} :
    value.exceeds limit = true ↔ limit < value.text.utf8ByteSize := by
  have bound : value.text.utf8ByteSize ≤ value.sizeBound := utf8ByteSize_render_le value
  simp only [exceeds, Bool.and_eq_true, decide_eq_true_eq]
  omega

/-! ## Texts in texts -/

/-- A string is written with all its characters. -/
theorem length_render_text (text : String) : text.length ≤ (ofText text).render.length := by
  have escaped (character : Char) : 1 ≤ (escape character).length := by
    unfold escape
    iterate 8
      split
      · exact Nat.le_add_left 1 _
    exact Nat.le_refl 1
  have characters (all : List Char) : all.length ≤ (all.flatMap escape).length := by
    induction all with
    | nil => exact Nat.le_refl 0
    | cons character rest ih =>
        have first := escaped character
        rw [List.flatMap_cons, List.length_append, List.length_cons]
        omega
  have whole := characters text.toList
  rw [String.length_toList] at whole
  rw [ofText, render, quote, List.cons_append, List.length_cons, List.length_append]
  omega

theorem length_render_of_mem {members : List (Option String × Value)}
    {member : Option String × Value} (present : member ∈ members) :
    member.2.render.length ≤ (renderMembers members).length := by
  induction members with
  | nil => exact absurd present List.not_mem_nil
  | cons first rest ih =>
      obtain ⟨key, value⟩ := first
      cases rest with
      | nil =>
        rw [List.mem_singleton.mp present, renderMembers, List.length_append, List.length_cons]
        show value.render.length ≤ _
        omega
      | cons next others =>
        rw [renderMembers, List.length_append, List.length_append, List.length_cons,
          List.length_cons]
        rcases List.mem_cons.mp present with rfl | later
        · show value.render.length ≤ _
          omega
        · have inner := ih later
          omega

/-- The members of an object are written as they are. -/
theorem length_render_member {members : List (String × Value)} {key : String} {value : Value}
    (present : (key, value) ∈ members) :
    value.render.length ≤ (ofMembers members).render.length := by
  have written : (some key, value) ∈ members.map fun member => (some member.1, member.2) :=
    List.mem_map_of_mem present
  have inner := length_render_of_mem written
  rw [ofMembers, render, List.cons_append, List.length_cons, List.length_append]
  exact Nat.le_succ_of_le (Nat.le_add_right_of_le inner)

end Value

end SwarmManager.Json
