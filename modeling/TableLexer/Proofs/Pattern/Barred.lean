/-
**Words with bars between them, as they are written.**

A letter, a digit and an underscore mean themselves in a pattern. So the text of words with bars between them is
cut into these letters and bars, and is put together to the choice between the words.

* `Lexeme.Reads`: into which parts a text is cut, whatever follows it; `Reads.append` puts texts together.
* `Lexeme.ofWords`, `Lexeme.reads_ofWords`: the parts of words with bars between them.
* `OpenGroup.body_withWords`, `Assembly.takeAll_group`: what these parts are put together to.
-/

import TableLexer.Pattern.Assembly

namespace TableLexer.Pattern

/-- The character is an ASCII letter, a digit or an underscore. -/
def isPlainLetter (c : Char) : Bool := c.isAlphanum || c == '_'

namespace Lexeme

/-! ### Cutting a text -/

/-- The text is cut into these parts, whatever follows it. -/
structure Reads (text : List Char) (lexemes : List Lexeme) : Prop where
  /-- Each part takes a character at least. -/
  length_le : lexemes.length ≤ text.length
  reads : ∀ fuel rest, readMany? (fuel + lexemes.length) (text ++ rest) =
    (readMany? fuel rest).map (lexemes ++ ·)

variable {text other : List Char} {lexemes others : List Lexeme} {lexeme : Lexeme} {c : Char}

theorem Reads.nil : Reads [] [] where
  length_le := Nat.le_refl _
  reads fuel rest := by simp

/-- One part, which is read so before the others. -/
theorem Reads.cons (first : ∀ rest, read? (c :: (text ++ (other ++ rest))) = some (lexeme, other ++ rest))
    (behind : Reads other others) : Reads (c :: text ++ other) (lexeme :: others) where
  length_le := by
    have := behind.length_le
    simp only [List.length_cons, List.length_append]
    omega
  reads fuel rest := by
    have turn : readMany? (fuel + others.length + 1) (c :: (text ++ (other ++ rest))) =
        (read? (c :: (text ++ (other ++ rest)))).bind fun found =>
          (readMany? (fuel + others.length) found.2).bind fun others => some (found.1 :: others) := rfl
    rw [List.length_cons, ← Nat.add_assoc, List.append_assoc, List.cons_append, turn, first, Option.bind_some,
      behind.reads]
    cases readMany? fuel rest <;> rfl

/-- One part, whatever follows. -/
theorem Reads.one (first : ∀ rest, read? (c :: (text ++ rest)) = some (lexeme, rest)) :
    Reads (c :: text) [lexeme] := by
  have alone := Reads.cons first .nil
  rwa [List.append_nil] at alone

/-- One text behind another one. -/
theorem Reads.append (front : Reads text lexemes) (back : Reads other others) :
    Reads (text ++ other) (lexemes ++ others) where
  length_le := by
    have := front.length_le
    have := back.length_le
    simp only [List.length_append]
    omega
  reads fuel rest := by
    have fuels : fuel + (lexemes ++ others).length = fuel + others.length + lexemes.length := by
      simp only [List.length_append]
      omega
    rw [fuels, List.append_assoc, front.reads, back.reads, Option.map_map]
    simp [Function.comp_def]

/-- The whole text is cut into these parts. -/
theorem Reads.readAll? (reads : Reads text lexemes) : readAll? text = some lexemes := by
  obtain ⟨fuel, enough⟩ := Nat.exists_eq_add_of_le' reads.length_le
  have whole := reads.reads fuel []
  rw [List.append_nil, ← enough] at whole
  rw [Lexeme.readAll?, whole, readMany?]
  simp

/-! ### Letters and bars -/

/-- A letter means itself. -/
theorem read?_letter (letter : isPlainLetter c = true) (rest : List Char) :
    read? (c :: rest) = some (.literal c, rest) := by
  unfold read?
  split
  · contradiction
  · rename_i d more same
    obtain ⟨rfl, rfl⟩ := List.cons.inj same
    split <;> first | rfl | exact absurd letter (by decide)

/-- The parts of words with bars between them. -/
def ofWords (words : List (List Char)) : List Lexeme :=
  [bar].intercalate (words.map (·.map literal))

variable {word : List Char} {words : List (List Char)}

/-- Behind the first word stands a bar before the others. -/
theorem ofWords_cons (some_word : words ≠ []) :
    ofWords (word :: words) = word.map literal ++ bar :: ofWords words := by
  obtain ⟨next, rest, rfl⟩ := List.exists_cons_of_ne_nil some_word
  simp [ofWords]

theorem reads_word (letters : ∀ c ∈ word, isPlainLetter c = true) : Reads word (word.map literal) := by
  induction word with
  | nil => exact .nil
  | cons c rest ih =>
    obtain ⟨letter, letters⟩ := List.forall_mem_cons.mp letters
    have first : Reads [c] [literal c] := .one (read?_letter letter)
    exact first.append (ih letters)

/-- **Words with bars between them** are cut into their letters and these bars. -/
theorem reads_ofWords (letters : ∀ word ∈ words, ∀ c ∈ word, isPlainLetter c = true) :
    Reads (['|'].intercalate words) (ofWords words) := by
  have barred : Reads ['|'] [bar] := .one fun _ => rfl
  obtain _ | ⟨word, rest⟩ := words
  · exact .nil
  · induction rest generalizing word with
    | nil => simpa [ofWords] using reads_word (letters word List.mem_cons_self)
    | cons next rest ih =>
      obtain ⟨first, letters⟩ := List.forall_mem_cons.mp letters
      simpa [ofWords, List.intercalate] using ((reads_word first).append barred).append (ih next letters)

end Lexeme

/-! ### Putting words together -/

namespace Part

/-- The part for a letter. -/
def letter (c : Char) : Part := { node := .literal [c] }

/-- The part for the letters of a word. -/
def word (letters : List Char) : Part := .sequence (letters.map letter)

/-- The part for a choice between words, in brackets. -/
def choice (words : List (List Char)) : Part := (Part.alternatives (words.map word)).group none

end Part

namespace OpenGroup

/-- The group when the words have been read in it, with bars between them. -/
def withWords (group : OpenGroup) : List (List Char) → OpenGroup
  | [] => group
  | [word] => { group with items := (word.map Part.letter).reverse }
  | word :: words => { group with branches := .word word :: group.branches, items := [] }.withWords words

variable {group : OpenGroup} {words : List (List Char)}

@[simp] theorem index_withWords : (group.withWords words).index = group.index := by
  fun_induction withWords group words with
  | case1 | case2 => rfl
  | case3 group word words more ih => exact ih

@[simp] theorem outerFlags_withWords : (group.withWords words).outerFlags = group.outerFlags := by
  fun_induction withWords group words with
  | case1 | case2 => rfl
  | case3 group word words more ih => exact ih

/-- The words are the latest alternatives of the group. -/
theorem body_withWords (some_word : words ≠ []) (empty : group.items = []) :
    (group.withWords words).body = .alternatives (group.branches.reverse ++ words.map Part.word) := by
  fun_induction withWords group words with
  | case1 => exact absurd rfl some_word
  | case2 group word => simp [body, branch, Part.word]
  | case3 group word words more ih => simp [ih more rfl]

end OpenGroup

namespace Assembly

variable {assembly : Assembly} {word : List Char} {words : List (List Char)}

/-- Letters are added to the current alternative, where case counts. -/
theorem takeAll_letters (exact_case : assembly.flags.ignoreCase = false) :
    (word.map Lexeme.literal).foldlM take? assembly =
      some { assembly with
        current := { assembly.current with
          items := (word.map Part.letter).reverse ++ assembly.current.items } } := by
  induction word generalizing assembly with
  | nil => rfl
  | cons c rest ih =>
    have one : assembly.take? (.literal c) = some (assembly.add (Part.letter c)) := by
      simp [take?, Node.ofChar, exact_case, Part.letter]
    have others := @ih (assembly.add (Part.letter c)) exact_case
    rw [List.map_cons, List.foldlM_cons, one, Option.bind_eq_bind, Option.bind_some, others]
    simp [add, OpenGroup.add]

/-- Words with bars between them become alternatives of the current group. -/
theorem takeAll_ofWords (exact_case : assembly.flags.ignoreCase = false) (empty : assembly.current.items = []) :
    (Lexeme.ofWords words).foldlM take? assembly =
      some { assembly with current := assembly.current.withWords words } := by
  induction words generalizing assembly with
  | nil => rfl
  | cons word rest ih =>
    by_cases last : rest = []
    · subst last
      simp [Lexeme.ofWords, takeAll_letters exact_case, empty, OpenGroup.withWords]
    · obtain ⟨next, others, rfl⟩ := List.exists_cons_of_ne_nil last
      rw [Lexeme.ofWords_cons last, List.foldlM_append, takeAll_letters exact_case, Option.bind_eq_bind,
        Option.bind_some, List.foldlM_cons]
      -- The bar closes the alternative, which holds the letters of the word and nothing else.
      have ended : (assembly.current.items.reverse ++ word.map Part.letter) = word.map Part.letter := by
        rw [empty]
        rfl
      simp only [take?, OpenGroup.branch, List.reverse_append, List.reverse_reverse, ended, Option.bind_eq_bind,
        Option.bind_some]
      exact ih exact_case rfl

/-- **Words with bars between them, in brackets**, are added as a choice between the words. -/
theorem takeAll_group (exact_case : assembly.flags.ignoreCase = false) (some_word : words ≠ []) :
    (Lexeme.openPlain {} :: (Lexeme.ofWords words ++ [.close])).foldlM take? assembly =
      some (assembly.add (.choice words)) := by
  have opened : assembly.take? (.openPlain {}) = some (assembly.openGroup none assembly.flags) := rfl
  have read : (Lexeme.ofWords words).foldlM take? (assembly.openGroup none assembly.flags) =
      some { assembly.openGroup none assembly.flags with
        current := (assembly.openGroup none assembly.flags).current.withWords words } :=
    takeAll_ofWords exact_case rfl
  have choice : ((assembly.openGroup none assembly.flags).current.withWords words).body =
      .alternatives (words.map Part.word) := OpenGroup.body_withWords some_word rfl
  rw [List.foldlM_cons, opened, Option.bind_eq_bind, Option.bind_some, List.foldlM_append, read,
    Option.bind_eq_bind, Option.bind_some, List.foldlM_cons]
  simp only [take?, openGroup] at choice ⊢
  simp [choice, add, Part.choice]

end Assembly

end TableLexer.Pattern
