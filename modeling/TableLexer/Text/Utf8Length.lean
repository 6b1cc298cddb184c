/-
**Positions in a text, counted in UTF-8 bytes.**

* `byteLength`: the bytes that a text takes.
* `dropBytes?`: the text after so many bytes, if they end between two characters.
* `takeBytes`: the characters that fit into so many bytes.
* `slice`: the characters between two positions.
* `dropBytes?_byteLength_append`: dropping the bytes of a first part leaves the second part.
-/

namespace TableLexer.Text

/-- The number of bytes of the text. -/
def byteLength : List Char → Nat
  | [] => 0
  | c :: rest => c.utf8Size + byteLength rest

/-- The text that follows the first `count` bytes: `none` when these end inside a character or
beyond the text. -/
def dropBytes? : List Char → Nat → Option (List Char)
  | text, 0 => some text
  | [], _ + 1 => none
  | c :: rest, count + 1 =>
    if c.utf8Size ≤ count + 1 then dropBytes? rest (count + 1 - c.utf8Size) else none

/-- The longest beginning of the text that fits into `count` bytes. -/
def takeBytes : List Char → Nat → List Char
  | [], _ => []
  | c :: rest, count =>
    if c.utf8Size ≤ count then c :: takeBytes rest (count - c.utf8Size) else []

/-- The text from position `start` up to position `stop`. -/
def slice (text : List Char) (start stop : Nat) : List Char :=
  takeBytes ((dropBytes? text start).getD []) (stop - start)

theorem byteLength_append (first second : List Char) :
    byteLength (first ++ second) = byteLength first + byteLength second := by
  induction first with
  | nil => simp [byteLength]
  | cons c rest ih => simp [byteLength, ih, Nat.add_assoc]

theorem dropBytes?_zero (text : List Char) : dropBytes? text 0 = some text := by
  cases text <;> rfl

/-- Dropping one character's bytes drops the character. -/
theorem dropBytes?_cons (c : Char) (rest : List Char) (count : Nat) :
    dropBytes? (c :: rest) (c.utf8Size + count) = dropBytes? rest count := by
  obtain ⟨more, size⟩ : ∃ more, c.utf8Size + count = more + 1 :=
    ⟨c.utf8Size + count - 1, by have := c.utf8Size_pos; omega⟩
  have fits : c.utf8Size ≤ more + 1 := by omega
  have left : more + 1 - c.utf8Size = count := by omega
  rw [size, dropBytes?, if_pos fits, left]

/-- Dropping the bytes of the first part of a text leaves the second part. -/
theorem dropBytes?_byteLength_append (first second : List Char) :
    dropBytes? (first ++ second) (byteLength first) = some second := by
  induction first with
  | nil => exact dropBytes?_zero second
  | cons c rest ih => rw [List.cons_append, byteLength, dropBytes?_cons, ih]

/-- What is left after dropping bytes takes exactly the other bytes. -/
theorem byteLength_of_dropBytes? {text rest : List Char} {count : Nat}
    (dropped : dropBytes? text count = some rest) : byteLength text = count + byteLength rest := by
  fun_induction dropBytes? text count with
  | case1 => simp_all
  | case2 => simp at dropped
  | case3 c tail count fits ih => rw [byteLength, ih dropped]; omega
  | case4 => simp at dropped

/-- The characters of the first part of a text fit into its bytes, and no others do. -/
theorem takeBytes_byteLength_append (first second : List Char) :
    takeBytes (first ++ second) (byteLength first) = first := by
  induction first with
  | nil =>
    cases second with
    | nil => rfl
    | cons c rest => simp [byteLength, takeBytes, Nat.not_le.mpr c.utf8Size_pos]
  | cons c rest ih => simp [byteLength, takeBytes, ih]

/-- The slice at the bytes of the middle part is the middle part. -/
theorem slice_append (first middle last : List Char) :
    slice (first ++ (middle ++ last)) (byteLength first) (byteLength first + byteLength middle) =
      middle := by
  rw [slice, dropBytes?_byteLength_append, Nat.add_sub_cancel_left]
  exact takeBytes_byteLength_append middle last

end TableLexer.Text
