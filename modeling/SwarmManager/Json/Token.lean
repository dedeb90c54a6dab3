import SwarmManager.Text.Blank
import SwarmManager.Text.Decimal
import SwarmManager.Text.Utf8

/-!
# Tokens of JSON

A JSON text is cut into tokens from left to right.  The first stretch that is no
token is the token `bad`, and it is the last one.

Cutting ends because every token takes at least one symbol off the text; the
lemmas named `_length` say so for the tokens of more than one symbol.
-/

namespace SwarmManager.Json

set_option autoImplicit false

open SwarmManager.Utf8 (Symbol)

/-- The smallest parts of a JSON text. -/
inductive Token where
  | beginObject
  | endObject
  | beginArray
  | endArray
  | colon
  | comma
  | null
  | bool (truth : Bool)
  | integer (number : Int)
  | real
  | string (text : Option String)
  | bad
  deriving DecidableEq

/-! ## Strings -/

/-- What a string literal is made of: characters, escaped code units of sixteen
bits, and stretches that encode no character. -/
inductive Piece where
  | character (character : Char)
  | unit (number : Nat)
  | stray
  deriving DecidableEq

/-- The value of a hexadecimal digit. -/
def hexValue? : Symbol → Option Nat
  | none => none
  | some character =>
      let point := character.toNat
      if 48 ≤ point ∧ point ≤ 57 then some (point - 48)
      else if 65 ≤ point ∧ point ≤ 70 then some (point - 55)
      else if 97 ≤ point ∧ point ≤ 102 then some (point - 87)
      else none

/-- The number four hexadecimal digits stand for. -/
def codeUnit? (first second third fourth : Symbol) : Option Nat := do
  return (((← hexValue? first) * 16 + (← hexValue? second)) * 16 + (← hexValue? third)) * 16 +
    (← hexValue? fourth)

/-- The character a backslash and a letter stand for. -/
def shortEscape? : Symbol → Option Char
  | some '"' => some '"'
  | some '\\' => some '\\'
  | some '/' => some '/'
  | some 'b' => some (Char.ofNat 8)
  | some 'f' => some (Char.ofNat 12)
  | some 'n' => some '\n'
  | some 'r' => some '\r'
  | some 't' => some '\t'
  | _ => none

/-- The pieces of a string literal after its opening quote, and the text after
its closing quote. -/
def takeString : List Symbol → Option (List Piece × List Symbol)
  | [] => none
  | some '"' :: rest => some ([], rest)
  | some '\\' :: some 'u' :: first :: second :: third :: fourth :: rest => do
      let number ← codeUnit? first second third fourth
      let (pieces, after) ← takeString rest
      return (.unit number :: pieces, after)
  | some '\\' :: escaped :: rest => do
      let character ← shortEscape? escaped
      let (pieces, after) ← takeString rest
      return (.character character :: pieces, after)
  | some character :: rest =>
      if character = '\\' ∨ character.toNat < 32 then none
      else do
        let (pieces, after) ← takeString rest
        return (.character character :: pieces, after)
  | none :: rest => do
      let (pieces, after) ← takeString rest
      return (.stray :: pieces, after)

/-- The characters that pieces stand for.  A leading surrogate has to be followed
by a trailing one, and the two are one character. -/
def assemble : List Piece → Option (List Char)
  | [] => some []
  | .character character :: rest => (assemble rest).map (character :: ·)
  | .stray :: _ => none
  | .unit number :: rest =>
      if number < 0xD800 ∨ 0xDFFF < number then
        (assemble rest).map (Char.ofNat number :: ·)
      else if 0xDC00 ≤ number then none
      else
        match rest with
        | .unit trailing :: rest =>
            if 0xDC00 ≤ trailing ∧ trailing ≤ 0xDFFF then
              (assemble rest).map
                (Char.ofNat (0x10000 + (number - 0xD800) * 0x400 + (trailing - 0xDC00)) :: ·)
            else none
        | _ => none

theorem takeString_length {symbols : List Symbol} {pieces : List Piece} {after : List Symbol}
    (taken : takeString symbols = some (pieces, after)) : after.length < symbols.length := by
  fun_induction takeString symbols generalizing pieces after with
  | case1 => simp at taken
  | case2 rest =>
      simp only [Option.some.injEq, Prod.mk.injEq] at taken
      obtain ⟨_, rfl⟩ := taken
      simp
  | case3 first second third fourth rest ih =>
      simp only [Option.bind_eq_bind, Option.bind_eq_some_iff, Option.pure_def, Option.some.injEq,
        Prod.mk.injEq, Prod.exists] at taken
      obtain ⟨_, _, _, _, inner, _, rfl⟩ := taken
      have := ih inner
      simp only [List.length_cons]
      omega
  | case4 escaped rest _ ih =>
      simp only [Option.bind_eq_bind, Option.bind_eq_some_iff, Option.pure_def, Option.some.injEq,
        Prod.mk.injEq, Prod.exists] at taken
      obtain ⟨_, _, _, _, inner, _, rfl⟩ := taken
      have := ih inner
      simp only [List.length_cons]
      omega
  | case5 => simp at taken
  | case6 character rest _ _ _ _ ih =>
      simp only [Option.bind_eq_bind, Option.bind_eq_some_iff, Option.pure_def, Option.some.injEq,
        Prod.mk.injEq, Prod.exists] at taken
      obtain ⟨_, _, inner, _, rfl⟩ := taken
      have := ih inner
      simp only [List.length_cons]
      omega
  | case7 rest ih =>
      simp only [Option.bind_eq_bind, Option.bind_eq_some_iff, Option.pure_def, Option.some.injEq,
        Prod.mk.injEq, Prod.exists] at taken
      obtain ⟨_, _, inner, _, rfl⟩ := taken
      have := ih inner
      simp only [List.length_cons]
      omega

/-! ## Numbers -/

/-- The digits at the start of a text, and what follows them. -/
def takeDigits : List Symbol → List Char × List Symbol
  | [] => ([], [])
  | none :: rest => ([], none :: rest)
  | some character :: rest =>
      if Decimal.isDigit character then
        let taken := takeDigits rest
        (character :: taken.1, taken.2)
      else ([], some character :: rest)

/-- The digits of a whole number, without leading zeros, and the rest. -/
def takeWhole (symbols : List Symbol) : Option (List Char × List Symbol) :=
  match takeDigits symbols with
  | ([], _) => none
  | (['0'], rest) => some (['0'], rest)
  | ('0' :: _, _) => none
  | (numeral, rest) => some (numeral, rest)

/-- Whether there is a fraction, and the rest.  A fraction has a digit. -/
def takeFraction : List Symbol → Option (Bool × List Symbol)
  | some '.' :: rest =>
      match takeDigits rest with
      | ([], _) => none
      | (_, after) => some (true, after)
  | symbols => some (false, symbols)

/-- A text without a leading sign. -/
def skipSign : List Symbol → List Symbol
  | some '+' :: rest => rest
  | some '-' :: rest => rest
  | symbols => symbols

/-- Whether there is an exponent, and the rest.  An exponent has a digit. -/
def takeExponent : List Symbol → Option (Bool × List Symbol)
  | some character :: rest =>
      if character = 'e' ∨ character = 'E' then
        match takeDigits (skipSign rest) with
        | ([], _) => none
        | (_, after) => some (true, after)
      else some (false, some character :: rest)
  | symbols => some (false, symbols)

/-- The token of an unsigned number, and the rest. -/
def takeUnsigned (negative : Bool) (symbols : List Symbol) : Option (Token × List Symbol) := do
  let (numeral, rest) ← takeWhole symbols
  let (hasFraction, rest) ← takeFraction rest
  let (hasExponent, rest) ← takeExponent rest
  let number := Decimal.value numeral
  if hasFraction || hasExponent || (negative && number == 0) then return (.real, rest)
  else if negative then return (.integer (-(number : Int)), rest)
  else return (.integer number, rest)

theorem takeDigits_length (symbols : List Symbol) :
    (takeDigits symbols).1.length + (takeDigits symbols).2.length = symbols.length := by
  fun_induction takeDigits symbols with
  | case1 => rfl
  | case2 => simp
  | case3 character rest _ taken ih =>
      simp only [List.length_cons, taken]
      omega
  | case4 => simp

theorem takeWhole_length {symbols rest : List Symbol} {numeral : List Char}
    (taken : takeWhole symbols = some (numeral, rest)) : rest.length < symbols.length := by
  have total := takeDigits_length symbols
  unfold takeWhole at taken
  split at taken
  next => simp at taken
  next after found =>
    simp only [Option.some.injEq, Prod.mk.injEq] at taken
    obtain ⟨_, rfl⟩ := taken
    simp only [found, List.length_cons, List.length_nil] at total
    omega
  next => simp at taken
  next digits after nonempty _ _ found =>
    simp only [Option.some.injEq, Prod.mk.injEq] at taken
    obtain ⟨rfl, rfl⟩ := taken
    simp only [found] at total
    have : 0 < digits.length := by
      rcases digits with _ | ⟨first, more⟩
      · exact absurd rfl nonempty
      · simp
    omega

theorem takeFraction_length {symbols rest : List Symbol} {present : Bool}
    (taken : takeFraction symbols = some (present, rest)) : rest.length ≤ symbols.length := by
  unfold takeFraction at taken
  split at taken
  next after =>
    have total := takeDigits_length after
    split at taken
    next => simp at taken
    next digits behind _ found =>
      simp only [Option.some.injEq, Prod.mk.injEq] at taken
      obtain ⟨_, rfl⟩ := taken
      simp only [found] at total
      simp only [List.length_cons]
      omega
  next =>
    simp only [Option.some.injEq, Prod.mk.injEq] at taken
    obtain ⟨_, rfl⟩ := taken
    exact Nat.le_refl _

theorem skipSign_length (symbols : List Symbol) : (skipSign symbols).length ≤ symbols.length := by
  unfold skipSign
  split <;> simp

theorem takeExponent_length {symbols rest : List Symbol} {present : Bool}
    (taken : takeExponent symbols = some (present, rest)) : rest.length ≤ symbols.length := by
  unfold takeExponent at taken
  split at taken
  next character after =>
    split at taken
    next =>
      have total := takeDigits_length (skipSign after)
      have shorter := skipSign_length after
      split at taken
      next => simp at taken
      next digits behind _ found =>
        simp only [Option.some.injEq, Prod.mk.injEq] at taken
        obtain ⟨_, rfl⟩ := taken
        simp only [found] at total
        simp only [List.length_cons]
        omega
    next =>
      simp only [Option.some.injEq, Prod.mk.injEq] at taken
      obtain ⟨_, rfl⟩ := taken
      exact Nat.le_refl _
  next =>
    simp only [Option.some.injEq, Prod.mk.injEq] at taken
    obtain ⟨_, rfl⟩ := taken
    exact Nat.le_refl _

theorem takeUnsigned_length {negative : Bool} {symbols rest : List Symbol} {token : Token}
    (taken : takeUnsigned negative symbols = some (token, rest)) :
    rest.length < symbols.length := by
  simp only [takeUnsigned, Option.bind_eq_bind, Option.bind_eq_some_iff, Prod.exists] at taken
  obtain ⟨numeral, afterWhole, whole, _, afterFraction, fraction, _, afterExponent, exponent,
    result⟩ := taken
  have first := takeWhole_length whole
  have second := takeFraction_length fraction
  have third := takeExponent_length exponent
  have same : afterExponent = rest := by
    split at result
    · simp only [Option.pure_def, Option.some.injEq, Prod.mk.injEq] at result
      exact result.2
    · split at result <;>
        · simp only [Option.pure_def, Option.some.injEq, Prod.mk.injEq] at result
          exact result.2
  subst same
  omega

/-! ## Cutting a text into tokens -/

/-- The tokens of a text. -/
def tokens (symbols : List Symbol) : List Token :=
  match symbols with
  | [] => []
  | some '\x7b' :: rest => .beginObject :: tokens rest
  | some '\x7d' :: rest => .endObject :: tokens rest
  | some '[' :: rest => .beginArray :: tokens rest
  | some ']' :: rest => .endArray :: tokens rest
  | some ':' :: rest => .colon :: tokens rest
  | some ',' :: rest => .comma :: tokens rest
  | some 'n' :: some 'u' :: some 'l' :: some 'l' :: rest => .null :: tokens rest
  | some 't' :: some 'r' :: some 'u' :: some 'e' :: rest => .bool true :: tokens rest
  | some 'f' :: some 'a' :: some 'l' :: some 's' :: some 'e' :: rest => .bool false :: tokens rest
  | some '"' :: rest =>
      match _taken : takeString rest with
      | some (pieces, after) => .string ((assemble pieces).map String.ofList) :: tokens after
      | none => [.bad]
  | some '-' :: rest =>
      match _taken : takeUnsigned true rest with
      | some (token, after) => token :: tokens after
      | none => [.bad]
  | some character :: rest =>
      if Text.isJsonBlank character then tokens rest
      else
        match _taken : takeUnsigned false (some character :: rest) with
        | some (token, after) => token :: tokens after
        | none => [.bad]
  | none :: _ => [.bad]
termination_by symbols.length
decreasing_by
  all_goals first
    | (simp only [List.length_cons]; omega)
    | (have shorter := takeString_length _taken; simp only [List.length_cons]; omega)
    | (have shorter := takeUnsigned_length _taken; simp only [List.length_cons] at shorter ⊢; omega)

end SwarmManager.Json
