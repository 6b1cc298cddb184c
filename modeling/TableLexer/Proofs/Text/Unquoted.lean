/-
**Reading texts in quotation marks back.**

A reader goes over what stands between the quotation marks character by character, and keeps the text
it has made out and how far it is in the writing of the next character.

* `Unquoting.next`: what one character does to the reader.
* `foldlM_flatMap_escape`: what is written for a text is read as that text.
* `not_mem_flatMap_escape`: no line break stands in what is written for a text.
-/

import Mathlib.Data.Nat.Basic
import TableLexer.Text.Quoted

namespace TableLexer.Text

/-! ### Numbers in hexadecimal -/

/-- The value of a hexadecimal digit. -/
def hexDigit? (c : Char) : Option Nat :=
  if '0' ≤ c ∧ c ≤ '9' then some (c.toNat - '0'.toNat)
  else if 'a' ≤ c ∧ c ≤ 'f' then some (c.toNat - 'a'.toNat + 10)
  else none

theorem hexDigit?_digitChar {digit : Nat} (small : digit < 16) :
    hexDigit? (Nat.digitChar digit) = some digit := by
  revert digit
  decide

theorem digitChar_ne_brace {digit : Nat} (small : digit < 16) : Nat.digitChar digit ≠ '}' := by
  revert digit
  decide

/-- The digits of a number, of which the later ones weigh less. -/
theorem exists_toDigits_eq (n : Nat) :
    ∃ digits : List Nat, (∀ digit ∈ digits, digit < 16) ∧
      Nat.toDigits 16 n = digits.map Nat.digitChar ∧
      digits.foldl (fun value digit => 16 * value + digit) 0 = n := by
  induction n using Nat.strongRecOn with
  | ind n earlier =>
    by_cases small : n < 16
    · exact ⟨[n], by simpa using small, by simp [Nat.toDigits_of_lt_base small], by simp⟩
    · obtain ⟨digits, each, shown, value⟩ := earlier (n / 16) (by omega)
      refine ⟨digits ++ [n % 16], ?_, ?_, ?_⟩
      · intro digit among
        rcases List.mem_append.mp among with before | last
        · exact each digit before
        · rw [List.mem_singleton] at last
          omega
      · rw [Nat.toDigits_of_base_le (by omega) (by omega), shown, List.map_append]
        rfl
      · rw [List.foldl_append, value]
        exact Nat.div_add_mod n 16

/-! ### The reader -/

/-- How far the writing of a character has been read. -/
inductive Spelling where
  /-- Nothing of it. -/
  | fresh
  /-- A backslash. -/
  | backslash
  /-- A backslash and the letter that announces a number. -/
  | announced
  /-- The number up to the digits that make this value. -/
  | number (value : Nat)
  deriving DecidableEq, Repr

/-- What a reader between two quotation marks has made out. -/
structure Unquoting where
  text : List Char := []
  spelling : Spelling := .fresh
  deriving DecidableEq, Repr

/-- The character that one letter after a backslash stands for. -/
def letterMeant? : Char → Option Char
  | '"' => some '"'
  | '\\' => some '\\'
  | 't' => some '\t'
  | 'n' => some '\n'
  | 'r' => some '\r'
  | '0' => some '\x00'
  | _ => none

namespace Unquoting

/-- The text goes on with the character, which has been read to its end. -/
def take (reading : Unquoting) (c : Char) : Unquoting := ⟨reading.text ++ [c], .fresh⟩

/-- Reads one more character. A quotation mark or a line break that stands for itself is refused. -/
def next (reading : Unquoting) (c : Char) : Option Unquoting :=
  match reading.spelling with
  | .fresh =>
    if c = '\\' then some { reading with spelling := .backslash }
    else if c = '"' ∨ c = '\n' then none
    else some (reading.take c)
  | .backslash =>
    if c = 'u' then some { reading with spelling := .announced }
    else (letterMeant? c).map reading.take
  | .announced => if c = '{' then some { reading with spelling := .number 0 } else none
  | .number value =>
    if c = '}' then some (reading.take (Char.ofNat value))
    else (hexDigit? c).map fun digit => { reading with spelling := .number (16 * value + digit) }

/-- Whether a quotation mark now ends the text, since no character is half written. -/
def complete (reading : Unquoting) : Bool := reading.spelling = .fresh

end Unquoting

/-! ### What is written is read -/

theorem foldlM_digits (text : List Char) (digits : List Nat) (value : Nat)
    (each : ∀ digit ∈ digits, digit < 16) :
    (digits.map Nat.digitChar).foldlM Unquoting.next ⟨text, .number value⟩ =
      some ⟨text, .number (digits.foldl (fun value digit => 16 * value + digit) value)⟩ := by
  induction digits generalizing value with
  | nil => rfl
  | cons digit rest onwards =>
    have small : digit < 16 := each digit List.mem_cons_self
    simp [Unquoting.next, digitChar_ne_brace small, hexDigit?_digitChar small,
      onwards _ fun other among => each other (List.mem_cons_of_mem digit among)]

/-- A character that is written by its number is read. -/
theorem foldlM_escapeByNumber (text : List Char) (c : Char) :
    (escapeByNumber c).foldlM Unquoting.next ⟨text, .fresh⟩ = some ⟨text ++ [c], .fresh⟩ := by
  obtain ⟨digits, each, shown, value⟩ := exists_toDigits_eq c.toNat
  simp [escapeByNumber, Unquoting.next, shown, foldlM_digits text digits 0 each, value,
    Unquoting.take]

/-- **What is written for a character is read as that character.** -/
theorem foldlM_escape (text : List Char) (c : Char) :
    (escape c).foldlM Unquoting.next ⟨text, .fresh⟩ = some ⟨text ++ [c], .fresh⟩ := by
  unfold escape
  split_ifs with mark backslash tab feed back nul unshown
  · simp [Unquoting.next, letterMeant?, Unquoting.take, mark]
  · simp [Unquoting.next, letterMeant?, Unquoting.take, backslash]
  · simp [Unquoting.next, letterMeant?, Unquoting.take, tab]
  · simp [Unquoting.next, letterMeant?, Unquoting.take, feed]
  · simp [Unquoting.next, letterMeant?, Unquoting.take, back]
  · simp [Unquoting.next, letterMeant?, Unquoting.take, nul]
  · exact foldlM_escapeByNumber text c
  · simp [Unquoting.next, Unquoting.take, mark, backslash, feed]

/-- What is written for a text is read as that text. -/
theorem foldlM_flatMap_escape (text before : List Char) :
    (text.flatMap escape).foldlM Unquoting.next ⟨before, .fresh⟩ =
      some ⟨before ++ text, .fresh⟩ := by
  induction text generalizing before with
  | nil => simp
  | cons c rest onwards =>
    rw [List.flatMap_cons, List.foldlM_append, foldlM_escape, Option.bind_eq_bind, Option.bind_some,
      onwards, List.append_assoc, List.singleton_append]

/-! ### Line breaks -/

/-- The reader refuses a line break wherever it is. -/
theorem next_line_break (reading : Unquoting) : reading.next '\n' = none := by
  obtain ⟨text, spelling⟩ := reading
  cases spelling <;> simp [Unquoting.next, letterMeant?, hexDigit?]

/-- A reading that comes to its end has met nothing that is refused everywhere. -/
theorem not_mem_of_foldlM {α β : Type} {step : α → β → Option α} {refused : β}
    (never : ∀ state, step state refused = none) {written : List β} {first last : α}
    (read : written.foldlM step first = some last) : refused ∉ written := by
  induction written generalizing first with
  | nil => simp
  | cons head rest onwards =>
    rw [List.foldlM_cons] at read
    obtain ⟨between, one, others⟩ := Option.bind_eq_some_iff.mp read
    refine List.not_mem_cons_of_ne_of_not_mem ?_ (onwards others)
    rintro rfl
    rw [never] at one
    cases one

/-- No line break stands in what is written for a text. -/
theorem not_mem_flatMap_escape (text : List Char) : '\n' ∉ text.flatMap escape :=
  not_mem_of_foldlM next_line_break (foldlM_flatMap_escape text [])

end TableLexer.Text
