/-
**Vocabularies, whatever their words.**

The rule of a vocabulary is written as its words with bars between them, where a word ends. What is known of such a
rule is known of any words made of ASCII letters, digits and underscores, however they are listed: it matches the
word characters with which a text begins, all of them, if they are one of the words, and nothing otherwise.

* `IsVocabulary`: words of which such a rule can be written.
* `parse?_vocabulary`, `fits_vocabulary`: the rule is well formed, and is refused for its size only.
* `find?_vocabulary_iff`: what it matches.
* `whole_words_match_in_any_order`: all of this, and that the list counts as a set.
-/

import TableLexer.Proofs.Java.Reserved

namespace TableLexer

open Java (inWord)
open Pattern (Match Node Regex)

/-- There are words, and each is made of ASCII letters, digits and underscores, of one at least. -/
def IsVocabulary (words : List String) : Prop :=
  words ≠ [] ∧ ∀ word ∈ words, word ≠ "" ∧ ∀ c ∈ word.toList, inWord c = true

instance (words : List String) : Decidable (IsVocabulary words) :=
  decidable_of_iff (words ≠ [] ∧ (words.all fun word => word != "" && word.toList.all inWord) = true)
    (by simp [IsVocabulary])

namespace IsVocabulary

variable {words others : List String}

/-- Only what the words are matters, not how they are listed. -/
theorem congr (vocabulary : IsVocabulary words) (same : ∀ word, word ∈ others ↔ word ∈ words) :
    IsVocabulary others := by
  obtain ⟨some_word, proper⟩ := vocabulary
  obtain ⟨word, member⟩ := List.exists_mem_of_ne_nil _ some_word
  exact ⟨List.ne_nil_of_mem ((same word).mpr member), fun word listed => proper word ((same word).mp listed)⟩

theorem some_word (vocabulary : IsVocabulary words) : words.map String.toList ≠ [] := by
  simpa using vocabulary.1

/-- The words, character by character. -/
theorem proper (vocabulary : IsVocabulary words) :
    ∀ word ∈ words.map String.toList, word ≠ [] ∧ ∀ c ∈ word, inWord c = true := by
  rw [List.forall_mem_map]
  intro word member
  obtain ⟨some_letter, letters⟩ := vocabulary.2 word member
  exact ⟨by simpa using some_letter, letters⟩

theorem wordChars (vocabulary : IsVocabulary words) :
    ∀ word ∈ words.map String.toList, word ≠ [] ∧ ∀ c ∈ word, Text.isWordChar c = true :=
  fun word member => (vocabulary.proper word member).imp_right fun letters c inside =>
    Java.isWordChar_of_inWord (letters c inside)

theorem ascii (vocabulary : IsVocabulary words) :
    ∀ word ∈ words.map String.toList, ∀ c ∈ word, c.toNat < 0x80 := by
  intro word member c inside
  have letter := Java.inWord_iff.mp ((vocabulary.proper word member).2 c inside)
  omega

end IsVocabulary

variable {words others : List String}

/-- The tree of the rule of a vocabulary. -/
def vocabularyNode (words : List String) : Node :=
  Pattern.atWordEnd (.alternatives ((words.map String.toList).map .literal))

/-- The rule of a vocabulary is well formed. -/
theorem parse?_vocabulary (vocabulary : IsVocabulary words) :
    Node.parse? defaultFlags (Pattern.anchoredText (wholeWords words)).toList = some (vocabularyNode words) := by
  have text : (Pattern.anchoredText (wholeWords words)).toList =
      "\\A(?:".toList ++ Java.wholeWordsText words ++ [')'] := by
    simp [Pattern.anchoredText, Java.toList_wholeWords]
  rw [text]
  exact Pattern.parse?_wholeWords rfl vocabulary.some_word vocabulary.proper

/-- So it is compiled if its automaton is not too large. -/
theorem compile?_vocabulary (vocabulary : IsVocabulary words) :
    Regex.compile? defaultFlags (wholeWords words) =
      if (vocabularyNode words).fits then some (.ofNode (vocabularyNode words)) else none := by
  rw [Regex.compile?, parse?_vocabulary vocabulary]
  rfl

/-- The room for a vocabulary, by the number of its letters and words. -/
theorem room_vocabulary_le (words : List String) :
    Pattern.room (words.map String.toList) ≤ 80 * (words.map fun word => word.toList.length + 1).sum := by
  induction words with
  | nil => exact Nat.le_refl _
  | cons word rest ih =>
    simp only [List.map_cons, List.sum_cons, Pattern.room_cons]
    omega

/-- The rule of a vocabulary is not refused unless there are a great many words, or very long ones. -/
theorem fits_vocabulary (vocabulary : IsVocabulary words)
    (few : (words.map fun word => word.toList.length + 1).sum ≤ 100000) : (vocabularyNode words).fits = true := by
  have room_le := room_vocabulary_le words
  refine Pattern.fits_atWordEnd vocabulary.some_word vocabulary.ascii ?_
  simp only [Pattern.Tally.bound]
  omega

/-- What the rule of a vocabulary matches. -/
theorem find?_vocabulary_iff (vocabulary : IsVocabulary words) {tail : List Char} {found : Match} :
    (Regex.ofNode (vocabularyNode words)).find? tail = some found ↔
      String.ofList (tail.takeWhile Text.isWordChar) ∈ words ∧
        found = ⟨⟨0, Text.byteLength (tail.takeWhile Text.isWordChar)⟩, []⟩ := by
  have listed : tail.takeWhile Text.isWordChar ∈ words.map String.toList ↔
      String.ofList (tail.takeWhile Text.isWordChar) ∈ words := by
    rw [List.mem_map]
    constructor
    · rintro ⟨word, member, same⟩
      rwa [← same, String.ofList_toList]
    · exact fun member => ⟨_, member, String.toList_ofList⟩
  rw [← listed]
  exact Pattern.find?_atWordEnd_iff (Node.chooses_alternatives vocabulary.some_word) vocabulary.wordChars

/-- Vocabularies with the same words match the same. -/
theorem find?_vocabulary_congr (vocabulary : IsVocabulary words) (same : ∀ word, word ∈ others ↔ word ∈ words)
    (tail : List Char) :
    (Regex.ofNode (vocabularyNode others)).find? tail = (Regex.ofNode (vocabularyNode words)).find? tail := by
  refine Option.ext fun found => ?_
  rw [find?_vocabulary_iff vocabulary, find?_vocabulary_iff (vocabulary.congr same), same]

/-- **The rule of a vocabulary matches whole words, in whatever order they are listed.** Its pattern is well formed,
and is compiled but for its size. What is compiled matches the text just if all the word characters with which it
begins are one of the words, and then takes these. The same words listed otherwise, or more than once, are matched
alike. -/
theorem whole_words_match_in_any_order (vocabulary : IsVocabulary words) :
    (∃ node, Node.parse? defaultFlags (Pattern.anchoredText (wholeWords words)).toList = some node ∧
      (Regex.compile? defaultFlags (wholeWords words) = none ↔ node.fits = false)) ∧
    ((words.map fun word => word.toList.length + 1).sum ≤ 100000 →
      ∃ regex, Regex.compile? defaultFlags (wholeWords words) = some regex) ∧
    ∀ regex, Regex.compile? defaultFlags (wholeWords words) = some regex →
      (∀ tail found, regex.find? tail = some found ↔
        String.ofList (tail.takeWhile Text.isWordChar) ∈ words ∧
          found = ⟨⟨0, Text.byteLength (tail.takeWhile Text.isWordChar)⟩, []⟩) ∧
      ∀ others other, (∀ word, word ∈ others ↔ word ∈ words) →
        Regex.compile? defaultFlags (wholeWords others) = some other →
        ∀ tail, other.find? tail = regex.find? tail := by
  have compiled {list : List String} (proper : IsVocabulary list) {regex : Regex}
      (compiles : Regex.compile? defaultFlags (wholeWords list) = some regex) :
      regex = .ofNode (vocabularyNode list) := by
    rw [compile?_vocabulary proper] at compiles
    exact (Option.some.inj (Option.ite_none_right_eq_some.mp compiles).2).symm
  refine ⟨⟨_, parse?_vocabulary vocabulary, ?_⟩, fun few => ?_, fun regex compiles => ⟨?_, ?_⟩⟩
  · simp [compile?_vocabulary vocabulary]
  · exact ⟨_, (compile?_vocabulary vocabulary).trans (if_pos (fits_vocabulary vocabulary few))⟩
  · intro tail found
    rw [compiled vocabulary compiles]
    exact find?_vocabulary_iff vocabulary
  · intro others other same compiles_other tail
    rw [compiled vocabulary compiles, compiled (vocabulary.congr same) compiles_other]
    exact find?_vocabulary_congr vocabulary same tail

/-- Of two words, the first of which is the beginning of the second, each is matched where it stands alone. -/
theorem whole_words_match_in_any_order_of_prefix :
    ∃ regex, Regex.compile? defaultFlags (wholeWords ["do", "double"]) = some regex ∧
      regex.find? "double x".toList = some ⟨⟨0, 6⟩, []⟩ ∧ regex.find? "do(".toList = some ⟨⟨0, 2⟩, []⟩ ∧
      regex.find? "doub".toList = none ∧
      ∀ other, Regex.compile? defaultFlags (wholeWords ["double", "do", "do"]) = some other →
        other.find? "double x".toList = regex.find? "double x".toList := by
  obtain ⟨_, few, matches_of⟩ := @whole_words_match_in_any_order ["do", "double"] (by decide)
  obtain ⟨regex, compiles⟩ := few (by decide)
  obtain ⟨matched, alike⟩ := matches_of regex compiles
  refine ⟨regex, compiles, ?_, ?_, ?_, ?_⟩
  · exact (matched _ _).mpr (by decide)
  · exact (matched _ _).mpr (by decide)
  · refine Option.eq_none_iff_forall_ne_some.mpr fun found find?_found => ?_
    exact absurd ((matched _ _).mp find?_found).1 (by decide)
  · intro other compiles_other
    exact alike _ other (by grind) compiles_other _

end TableLexer
