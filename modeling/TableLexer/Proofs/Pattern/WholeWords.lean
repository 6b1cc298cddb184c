/-
**Patterns of whole words.**

Such a pattern is a choice between words, behind which a word must end. It is tried at the start of a text, and
it commits to the first of its words with which it comes to such an end. There a text has no more than one
word: all its first word characters. So the order of the words is of no account, and it does no harm if one word
is the beginning of another.

* `parse?_wholeWords`: such a pattern as it is written, and as a tree.
* `atWordEnd`, `leads_atWordEnd`: a choice between words at the start of a text, and where it leads.
* `find?_atWordEnd_iff`: what it matches, by the word characters with which the text begins.
* `fits_atWordEnd`: how much room its automaton may take.
-/

import TableLexer.Proofs.Pattern.Anchored
import TableLexer.Proofs.Pattern.Barred
import TableLexer.Proofs.Pattern.Choices
import TableLexer.Proofs.Pattern.Complete
import TableLexer.Proofs.Pattern.Room
import TableLexer.Proofs.Text.Cuts

namespace TableLexer.Pattern

variable {words : List (List Char)} {text taken : List Char}

/-! ### From the text to the tree -/

/-- The pattern at the start of a text, where a word ends behind it. -/
def atWordEnd (body : Node) : Node := .seq (.look .textStart) (.seq body (.look .wordBoundary))

namespace Part

/-- The part for a pattern of whole words. -/
def wholeWords (words : List (List Char)) : Part :=
  .sequence [{ node := .look .textStart },
    (sequence [choice words, { node := .look .wordBoundary }]).group none]

/-- Parts that are nested no deeper than a bound are nested at most one level deeper together. -/
theorem depthOf_le {parts : List Part} {bound : Nat} (each : ∀ part ∈ parts, part.depth ≤ bound) :
    depthOf parts ≤ bound + 1 := by
  have deepest (start : Nat) (low : start ≤ bound) :
      parts.foldl (fun deepest part => max deepest part.depth) start ≤ bound := by
    induction parts generalizing start with
    | nil => exact low
    | cons part rest ih =>
      rw [List.forall_mem_cons] at each
      exact ih each.2 _ (Nat.max_le.mpr ⟨low, each.1⟩)
  unfold depthOf
  split
  · omega
  · rename_i part
    have := each part List.mem_cons_self
    omega
  · have := deepest 0 (Nat.zero_le _)
    omega

/-- A pattern of whole words is nested no deeper with more words or longer ones. -/
theorem depth_wholeWords : (wholeWords words).depth ≤ 6 := by
  have word_depth (letters : List Char) : (word letters).depth ≤ 1 := depthOf_le (by simp [letter])
  have words_depth : depthOf (words.map word) ≤ 2 := depthOf_le (by simpa using fun letters _ => word_depth letters)
  have choice_depth : (choice words).depth ≤ 3 := Nat.succ_le_succ words_depth
  have inside_depth : depthOf [choice words, { node := .look .wordBoundary }] ≤ 4 :=
    depthOf_le (by simpa using choice_depth)
  have group_depth : ((sequence [choice words, { node := .look .wordBoundary }]).group none).depth ≤ 5 :=
    Nat.succ_le_succ inside_depth
  have whole_depth : depthOf [{ node := .look .textStart },
      (sequence [choice words, { node := .look .wordBoundary }]).group none] ≤ 6 :=
    depthOf_le (List.forall_mem_cons.mpr ⟨Nat.zero_le _, List.forall_mem_singleton.mpr group_depth⟩)
  exact whole_depth

/-- The tree of a choice between words. -/
theorem node_choice (some_letter : ∀ word ∈ words, word ≠ []) :
    (choice words).node = .alternatives (words.map .literal) := by
  have one (letters : List Char) (member : letters ∈ words) : (word letters).node = .literal letters := by
    have each : (letters.map letter).map node = letters.map fun c => .literal [c] := by simp [letter]
    exact (congrArg Node.sequence each).trans (Node.sequence_letters (some_letter letters member))
  have each : (words.map word).map node = words.map Node.literal := by
    simpa using one
  exact congrArg Node.alternatives each

/-- The tree of a single part between the two conditions. -/
theorem sequence_atWordEnd {body : Node} (single : body.parts = [body]) :
    Node.sequence [.look .textStart, .sequence [body, .look .wordBoundary]] = atWordEnd body := by
  have inner : Node.sequence [body, .look .wordBoundary] = .seq body (.look .wordBoundary) := by
    have last : Node.consPart body (.look .wordBoundary) = .seq body (.look .wordBoundary) := by
      cases body <;> rfl
    rw [← last, Node.sequence, List.flatMap_cons, single]
    rfl
  rw [inner]
  simp [Node.sequence, single, Node.parts, Node.consPart, atWordEnd]

/-- The tree of a pattern of whole words. -/
theorem node_wholeWords (some_word : words ≠ []) (some_letter : ∀ word ∈ words, word ≠ []) :
    (wholeWords words).node = atWordEnd (.alternatives (words.map .literal)) := by
  rw [← sequence_atWordEnd (Node.chooses_alternatives some_word).single, ← node_choice some_letter]
  rfl

end Part

/-- The parts of a pattern of whole words. -/
def Lexeme.ofWholeWords (words : List (List Char)) : List Lexeme :=
  [.look .textStart, .openPlain {}] ++ .openPlain {} :: (ofWords words ++ [.close]) ++
    [.look .wordBoundary, .close]

/-- The text of such a pattern is cut into the brackets and conditions, and the letters of the words. -/
theorem readAll?_wholeWords (letters : ∀ word ∈ words, ∀ c ∈ word, isPlainLetter c = true) :
    Lexeme.readAll? ("\\A(?:".toList ++ ("(?:".toList ++ ['|'].intercalate words ++ ")\\b".toList) ++ [')']) =
      some (Lexeme.ofWholeWords words) := by
  have start : Lexeme.Reads ['\\', 'A'] [.look .textStart] := .one fun _ => rfl
  have opening : Lexeme.Reads ['(', '?', ':'] [.openPlain {}] := .one fun _ => rfl
  have closing : Lexeme.Reads [')'] [.close] := .one fun _ => rfl
  -- A brace behind the assertion would be read with it, so it matters that there is a bracket.
  have boundary : Lexeme.Reads ('\\' :: ['b'] ++ [')']) [.look .wordBoundary, .close] :=
    .cons (fun _ => rfl) closing
  have whole := ((start.append opening).append (opening.append (Lexeme.reads_ofWords letters))).append
    (closing.append boundary)
  simpa [Lexeme.ofWholeWords] using whole.readAll?

/-- The parts of such a pattern are put together. -/
theorem assemble_wholeWords {flags : Flags} (exact_case : flags.ignoreCase = false) (some_word : words ≠ []) :
    ((Lexeme.ofWholeWords words).foldlM Assembly.take? (.start flags)).bind Assembly.finish? =
      some (Part.wholeWords words).node := by
  generalize begun : ((Assembly.start flags).add { node := .look .textStart }).openGroup none flags = opened
  have start : [Lexeme.look .textStart, .openPlain {}].foldlM Assembly.take? (.start flags) = some opened :=
    congrArg some begun
  have chosen : (Lexeme.openPlain {} :: (Lexeme.ofWords words ++ [.close])).foldlM Assembly.take? opened =
      some (opened.add (.choice words)) := Assembly.takeAll_group (begun ▸ exact_case) some_word
  have ended : (([Lexeme.look .wordBoundary, .close].foldlM Assembly.take? (opened.add (.choice words))).bind
      Assembly.finish?) = if (Part.wholeWords words).depth ≤ Assembly.depthBound
        then some (Part.wholeWords words).node else none := by
    rw [← begun]
    rfl
  have shallow : (Part.wholeWords words).depth ≤ Assembly.depthBound :=
    Nat.le_trans Part.depth_wholeWords (by decide)
  simp only [Lexeme.ofWholeWords, List.foldlM_append, start, chosen, Option.bind_eq_bind, Option.bind_some]
  rw [ended, if_pos shallow]

/-- **The pattern of whole words** is put together to a choice between these at the end of a word. -/
theorem parse?_wholeWords {flags : Flags} (exact_case : flags.ignoreCase = false) (some_word : words ≠ [])
    (proper : ∀ word ∈ words, word ≠ [] ∧ ∀ c ∈ word, isPlainLetter c = true) :
    Node.parse? flags ("\\A(?:".toList ++ ("(?:".toList ++ ['|'].intercalate words ++ ")\\b".toList) ++ [')']) =
      some (atWordEnd (.alternatives (words.map .literal))) := by
  rw [Node.parse?, readAll?_wholeWords fun word member => (proper word member).2, Option.bind_eq_bind,
    Option.bind_some, Option.bind_eq_bind, assemble_wholeWords exact_case some_word,
    Part.node_wholeWords some_word fun word member => (proper word member).1]

/-! ### What such a pattern matches -/

section Match

variable {body : Node} {word rest : List Char}

/-- Behind a word is a boundary if no other word character follows. -/
theorem wordBoundary_past_iff (some_letter : word ≠ []) (inside : ∀ c ∈ word, Text.isWordChar c = true) :
    Assertion.wordBoundary.holds ((Place.start text).past word rest) = true ↔
      rest.head?.any Text.isWordChar = false := by
  have last : word.getLast?.any Text.isWordChar = true := by
    rw [List.getLast?_eq_some_getLast some_letter]
    exact inside _ (List.getLast_mem some_letter)
  have after : ((Place.start text).past word rest).afterWordChar = true := by
    simpa [Place.afterWordChar, Place.past, Place.start] using last
  have ahead : ((Place.start text).past word rest).atWordChar = rest.head?.any Text.isWordChar := rfl
  simp [Assertion.holds, after, ahead]

/-- The pattern leads over the words behind which no other word character follows. -/
theorem leads_atWordEnd (chooses : body.Chooses words)
    (proper : ∀ word ∈ words, word ≠ [] ∧ ∀ c ∈ word, Text.isWordChar c = true) {ended : Place} :
    (atWordEnd body).Leads (.start text) ended ↔
      ∃ word ∈ words, ∃ rest, text = word ++ rest ∧ rest.head?.any Text.isWordChar = false ∧
        ended = (Place.start text).past word rest := by
  constructor
  · rintro ⟨_, ⟨_, rfl⟩, middle, along, boundary, rfl⟩
    obtain ⟨word, rest, spells, split, rfl⟩ := (Node.leads_iff_past chooses.plain).mp along
    have member := (chooses.spells word).mp spells
    obtain ⟨some_letter, inside⟩ := proper word member
    exact ⟨word, member, rest, split, (wordBoundary_past_iff some_letter inside).mp boundary, rfl⟩
  · rintro ⟨word, member, rest, split, behind, rfl⟩
    obtain ⟨some_letter, inside⟩ := proper word member
    refine ⟨_, ⟨rfl, rfl⟩, _, ?_, (wordBoundary_past_iff some_letter inside).mpr behind, rfl⟩
    exact (Node.leads_iff_past chooses.plain).mpr ⟨word, rest, (chooses.spells word).mpr member, split, rfl⟩

/-- A pattern of whole words matches where one of the words stands first and no other word character follows. -/
theorem find?_atWordEnd_iff_exists (chooses : body.Chooses words)
    (proper : ∀ word ∈ words, word ≠ [] ∧ ∀ c ∈ word, Text.isWordChar c = true) {found : Match} :
    (Regex.ofNode (atWordEnd body)).find? text = some found ↔
      ∃ word ∈ words, ∃ rest, text = word ++ rest ∧ rest.head?.any Text.isWordChar = false ∧
        found = ⟨⟨0, Text.byteLength word⟩, []⟩ := by
  -- Only one word ends where a text has a word boundary, so it does not matter which is tried first.
  have unique (one other : Place) (leads : (atWordEnd body).Leads (.start text) one)
      (leads_too : (atWordEnd body).Leads (.start text) other) : one = other := by
    obtain ⟨word, member, rest, split, behind, rfl⟩ := (leads_atWordEnd chooses proper).mp leads
    obtain ⟨another, listed, left, same, behind_too, rfl⟩ := (leads_atWordEnd chooses proper).mp leads_too
    obtain ⟨rfl, rfl⟩ := Text.cut_unique (split.symm.trans same) (proper word member).2
      (proper another listed).2 behind behind_too
    rfl
  rw [Regex.find?_ofNode_iff rfl unique]
  simp only [leads_atWordEnd chooses proper]
  constructor
  · rintro ⟨ended, ⟨word, member, rest, split, behind, rfl⟩, rfl⟩
    exact ⟨word, member, rest, split, behind, by simp [Place.past, Place.start]⟩
  · rintro ⟨word, member, rest, split, behind, rfl⟩
    exact ⟨_, ⟨word, member, rest, split, behind, rfl⟩, by simp [Place.past, Place.start]⟩

/-- **What a pattern of whole words matches**: the word characters with which the text begins, all of them, if they
are one of the words. -/
theorem find?_atWordEnd_iff (chooses : body.Chooses words)
    (proper : ∀ word ∈ words, word ≠ [] ∧ ∀ c ∈ word, Text.isWordChar c = true) {found : Match} :
    (Regex.ofNode (atWordEnd body)).find? text = some found ↔
      text.takeWhile Text.isWordChar ∈ words ∧
        found = ⟨⟨0, Text.byteLength (text.takeWhile Text.isWordChar)⟩, []⟩ := by
  have front : text = text.takeWhile Text.isWordChar ++ text.dropWhile Text.isWordChar :=
    List.takeWhile_append_dropWhile.symm
  have ends : (text.dropWhile Text.isWordChar).head?.any Text.isWordChar = false := by
    have stops := List.head?_dropWhile_not Text.isWordChar text
    cases next : (text.dropWhile Text.isWordChar).head? with
    | none => rfl
    | some c => simpa [next] using stops
  rw [find?_atWordEnd_iff_exists chooses proper]
  constructor
  · rintro ⟨word, member, rest, split, behind, rfl⟩
    obtain ⟨same, _⟩ := Text.cut_unique (front.symm.trans split) (List.all_eq_true.mp List.all_takeWhile)
      (proper word member).2 ends behind
    rw [same]
    exact ⟨member, rfl⟩
  · rintro ⟨member, rfl⟩
    exact ⟨_, member, _, front, ends, rfl⟩

end Match

/-! ### Whether there is room for it -/

/-- A pattern of whole words fits if there is room for the words. -/
theorem fits_atWordEnd (some_word : words ≠ []) (ascii : ∀ word ∈ words, ∀ c ∈ word, c.toNat < 0x80)
    (enough : room words + 480 ≤ Tally.bound) : (atWordEnd (.alternatives (words.map .literal))).fits = true := by
  have inside (backward : Bool) :=
    Node.spends_seq (Node.spends_look .textStart)
      (Node.spends_seq (Node.spends_alternatives some_word ascii backward) (Node.spends_look .wordBoundary))
  exact Node.fits_of_spends inside (by simp only [Tally.stateBytes]; omega)

end TableLexer.Pattern
