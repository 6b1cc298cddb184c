/-
**The heads of methods.**

A head is some words, each with white space behind it, then the name of the method, white space and the
opening parenthesis. The rule for heads matches nothing else, and there is only one way to see a head in a
text, so neither the lazy repetition nor backtracking has a say in what its groups are.

* `Head`: what the rule matches, part by part.
* `Head.parts_eq`: two heads with which a text begins have the same parts.
* `leads_signatureNode`: where the pattern leads.
* `find?_signature_iff`: the rule matches where a head stands first, and its groups are the parts.
-/

import Mathlib.Data.Set.List
import TableLexer.Java
import TableLexer.Proofs.Pattern.Complete
import TableLexer.Proofs.Pattern.Spelled

namespace TableLexer.Java

open Pattern (CharSet Match Node Place Plan Regex Span)

/-! ### Characters -/

/-- An ASCII letter or an underscore. -/
def beginsWord (c : Char) : Bool := c.isAlpha || c == '_'

/-- An ASCII letter, a digit or an underscore. -/
def inWord (c : Char) : Bool := c.isAlphanum || c == '_'

/-- A character of words that may be qualified, or types of arrays. -/
def inPath (c : Char) : Bool := inWord c || c == '.' || c == '[' || c == ']'

/-- The characters that begin a word. -/
def wordStarts : CharSet := ⟨[(65, 90), (95, 95), (97, 122)]⟩

/-- The characters of a word. -/
def wordParts : CharSet := ⟨[(48, 57), (65, 90), (95, 95), (97, 122)]⟩

/-- The characters of words that may be qualified, or types of arrays. -/
def pathParts : CharSet := ⟨[(46, 46), (48, 57), (65, 91), (93, 93), (95, 95), (97, 122)]⟩

/-- White space. -/
def blanks : CharSet := ⟨Text.blankRanges⟩

section Characters

variable {c : Char}

theorem isAlpha_iff :
    c.isAlpha = true ↔ 65 ≤ c.toNat ∧ c.toNat ≤ 90 ∨ 97 ≤ c.toNat ∧ c.toNat ≤ 122 := by
  show (decide (65 ≤ c.val ∧ c.val ≤ 90) || (decide (97 ≤ c.val) && decide (c.val ≤ 122))) = true ↔ _
  simp [UInt32.le_iff_toNat_le]

theorem isAlphanum_iff :
    c.isAlphanum = true ↔ c.isAlpha = true ∨ 48 ≤ c.toNat ∧ c.toNat ≤ 57 := by
  show (c.isAlpha || (decide (48 ≤ c.val) && decide (c.val ≤ 57))) = true ↔ _
  simp [UInt32.le_iff_toNat_le]

theorem beginsWord_iff : beginsWord c = true ↔
    65 ≤ c.toNat ∧ c.toNat ≤ 90 ∨ c.toNat = 95 ∨ 97 ≤ c.toNat ∧ c.toNat ≤ 122 := by
  simp only [beginsWord, Bool.or_eq_true, isAlpha_iff, beq_iff_eq, ← Char.toNat_inj, Char.reduceToNat]
  omega

theorem inWord_iff : inWord c = true ↔
    48 ≤ c.toNat ∧ c.toNat ≤ 57 ∨ 65 ≤ c.toNat ∧ c.toNat ≤ 90 ∨ c.toNat = 95 ∨
      97 ≤ c.toNat ∧ c.toNat ≤ 122 := by
  simp only [inWord, Bool.or_eq_true, isAlphanum_iff, isAlpha_iff, beq_iff_eq, ← Char.toNat_inj,
    Char.reduceToNat]
  omega

theorem inPath_iff : inPath c = true ↔
    inWord c = true ∨ c.toNat = 46 ∨ c.toNat = 91 ∨ c.toNat = 93 := by
  simp [inPath, or_assoc, ← Char.toNat_inj]

theorem contains_wordStarts : wordStarts.contains c = beginsWord c := by
  rw [Bool.eq_iff_iff, beginsWord_iff]
  simp [wordStarts, CharSet.contains, Text.inRanges]
  omega

theorem contains_wordParts : wordParts.contains c = inWord c := by
  rw [Bool.eq_iff_iff, inWord_iff]
  simp [wordParts, CharSet.contains, Text.inRanges]
  omega

theorem contains_pathParts : pathParts.contains c = inPath c := by
  rw [Bool.eq_iff_iff, inPath_iff, inWord_iff]
  simp [pathParts, CharSet.contains, Text.inRanges]
  omega

theorem inWord_of_beginsWord (begins : beginsWord c = true) : inWord c = true := by
  rw [beginsWord_iff] at begins
  rw [inWord_iff]
  omega

theorem not_blank_of_inWord (inside : inWord c = true) : Text.isBlank c = false := by
  rw [inWord_iff] at inside
  simp [Text.isBlank, Text.inRanges, Text.blankRanges]
  omega

/-- No word, and no white space, has a parenthesis in it. -/
theorem ne_paren_of_inPath (inside : inPath c = true) : c ≠ '(' := by
  rintro rfl
  cases inside

theorem ne_paren_of_isBlank (blank : Text.isBlank c = true) : c ≠ '(' := by
  rintro rfl
  cases blank

end Characters

/-! ### Heads -/

/-- A word, with white space behind it. -/
structure Word where
  first : Char
  more : List Char
  gap : List Char
  begins : beginsWord first = true
  goesOn : ∀ c ∈ more, inPath c = true
  apart : gap ≠ []
  blank : ∀ c ∈ gap, Text.isBlank c = true

/-- The word and the white space. -/
def Word.text (word : Word) : List Char := word.first :: (word.more ++ word.gap)

/-- The head of a method: white space, words, the name, white space and a parenthesis. -/
structure Head where
  lead : List Char
  words : List Word
  first : Char
  more : List Char
  gap : List Char
  leads : ∀ c ∈ lead, Text.isBlank c = true
  some_word : words ≠ []
  begins : beginsWord first = true
  goesOn : ∀ c ∈ more, inWord c = true
  blank : ∀ c ∈ gap, Text.isBlank c = true

namespace Head

/-- What stands before the name. -/
def front (head : Head) : List Char := head.lead ++ head.words.flatMap Word.text

/-- The name of the method. -/
def name (head : Head) : List Char := head.first :: head.more

/-- The whole head. -/
def text (head : Head) : List Char := head.front ++ (head.name ++ (head.gap ++ ['(']))

/-- The groups of a match of the head, the last one first. -/
def groups (head : Head) : List (Nat × Span) :=
  let front := Text.byteLength head.front
  let name := front + Text.byteLength head.name
  let gap := name + Text.byteLength head.gap
  [(4, ⟨gap, gap + 1⟩), (3, ⟨name, gap⟩), (2, ⟨front, name⟩), (1, ⟨0, front⟩)]

/-- The match of the head at the start of a text. -/
def found (head : Head) : Match := ⟨⟨0, Text.byteLength head.text⟩, head.groups⟩

/-! ### There is one way to see a head -/

variable {head other : Head} {rest left : List Char}

/-- White space stands before the name. -/
theorem blank_before_name (head : Head) : ∃ more c, head.front = more ++ [c] ∧ Text.isBlank c = true := by
  obtain ⟨words, last, all⟩ := List.eq_nil_or_concat' head.words |>.resolve_left head.some_word
  obtain ⟨gap, c, split⟩ := List.eq_nil_or_concat' last.gap |>.resolve_left last.apart
  refine ⟨head.lead ++ (words.flatMap Word.text ++ last.first :: (last.more ++ gap)), c, ?_, ?_⟩
  · simp [front, all, Word.text, split]
  · exact last.blank c (by simp [split])

theorem inWord_of_mem_name {c : Char} (member : c ∈ head.name) : inWord c = true := by
  rcases List.mem_cons.mp member with rfl | later
  · exact inWord_of_beginsWord head.begins
  · exact head.goesOn c later

/-- The parenthesis at the end of a head is the first in it. -/
theorem ne_paren_of_mem {c : Char} (member : c ∈ head.front ++ (head.name ++ head.gap)) : c ≠ '(' := by
  simp only [front, List.mem_append, List.mem_flatMap] at member
  rcases member with (lead | ⟨word, _, within⟩) | named | gap
  · exact ne_paren_of_isBlank (head.leads c lead)
  · rcases List.mem_cons.mp within with rfl | within
    · exact ne_paren_of_inPath (inPath_iff.mpr (.inl (inWord_of_beginsWord word.begins)))
    · rcases List.mem_append.mp within with more | gap
      · exact ne_paren_of_inPath (word.goesOn c more)
      · exact ne_paren_of_isBlank (word.blank c gap)
  · exact ne_paren_of_inPath (inPath_iff.mpr (.inl (inWord_of_mem_name named)))
  · exact ne_paren_of_isBlank (head.blank c gap)

/-- **Two heads with which a text begins have the same parts.** -/
theorem parts_eq (same : head.text ++ rest = other.text ++ left) :
    head.front = other.front ∧ head.name = other.name ∧ head.gap = other.gap ∧ rest = left := by
  -- The parenthesis is the first, the white space before it is all that stands there, and so is the name.
  have before : (head.front ++ (head.name ++ head.gap)) ++ '(' :: rest =
      (other.front ++ (other.name ++ other.gap)) ++ '(' :: left := by
    simpa [text] using same
  have unlike (head : Head) (c : Char) (member : c ∈ head.front ++ (head.name ++ head.gap)) :
      (c != '(') = true := bne_iff_ne.mpr (ne_paren_of_mem member)
  obtain ⟨whole, behind⟩ := Text.cut_unique before (unlike head) (unlike other) rfl rfl
  have backwards : head.gap.reverse ++ (head.name.reverse ++ head.front.reverse) =
      other.gap.reverse ++ (other.name.reverse ++ other.front.reverse) := by
    simpa using congrArg List.reverse whole
  have blank (head : Head) (c : Char) (member : c ∈ head.gap.reverse) : Text.isBlank c = true :=
    head.blank c (List.mem_reverse.mp member)
  have solid (head : Head) (c : Char) (member : c ∈ head.name.reverse) : (!Text.isBlank c) = true := by
    rw [not_blank_of_inWord (inWord_of_mem_name (List.mem_reverse.mp member))]
    rfl
  have named (head : Head) :
      (head.name.reverse ++ head.front.reverse).head?.any Text.isBlank = false := by
    cases reversed : head.name.reverse with
    | nil => simp [name] at reversed
    | cons c more =>
      have inside := solid head c (by rw [reversed]; exact List.mem_cons_self)
      simpa using inside
  have fronted (head : Head) : head.front.reverse.head?.any (fun c => !Text.isBlank c) = false := by
    obtain ⟨more, c, split, blank⟩ := head.blank_before_name
    simp [split, blank]
  obtain ⟨gaps, rests⟩ := Text.cut_unique backwards (blank head) (blank other) (named head) (named other)
  obtain ⟨names, fronts⟩ := Text.cut_unique rests (solid head) (solid other) (fronted head) (fronted other)
  exact ⟨List.reverse_injective fronts, List.reverse_injective names, List.reverse_injective gaps,
    List.tail_eq_of_cons_eq behind⟩

end Head

/-! ### The pattern -/

/-- The pattern of a word with white space behind it. -/
def wordNode : Node :=
  .seq (.one wordStarts) (.seq (.repeated 0 none true (.one pathParts)) (.repeated 1 none true (.one blanks)))

/-- The pattern of what stands before the name. -/
def frontNode : Node := .seq (.repeated 0 none true (.one blanks)) (.repeated 1 none false wordNode)

/-- The pattern of the name. -/
def nameNode : Node := .seq (.one wordStarts) (.repeated 0 none true (.one wordParts))

/-- The pattern of the white space behind the name. -/
def gapNode : Node := .repeated 0 none true (.one blanks)

/-- The pattern of a head, wrapped. -/
def signatureNode : Node :=
  .seq (.look .textStart) (.seq (.look .lineStart) (.seq (.group 1 frontNode)
    (.seq (.group 2 nameNode) (.seq (.group 3 gapNode) (.group 4 (.literal ['(']))))))

/-- The rule for heads is compiled to this pattern. -/
theorem compile?_signature : Regex.compile? source.flags signature.pattern = some (.ofNode signatureNode) := by
  decide +kernel

section Spells

variable {taken : List Char}

theorem spells_blanks {least : Nat} :
    (Node.repeated least none true (.one blanks)).Spells taken ↔
      least ≤ taken.length ∧ ∀ c ∈ taken, Text.isBlank c = true :=
  Node.spells_run

theorem spells_wordNode : wordNode.Spells taken ↔ ∃ word : Word, taken = word.text := by
  constructor
  · rintro ⟨_, _, rfl, ⟨first, begins, rfl⟩, more, gap, rfl, goesOn, blank⟩
    obtain ⟨some_gap, blank⟩ := spells_blanks.mp blank
    obtain ⟨_, goesOn⟩ := Node.spells_run.mp goesOn
    simp only [contains_wordStarts, contains_pathParts] at begins goesOn
    exact ⟨⟨first, more, gap, begins, goesOn, List.ne_nil_of_length_pos some_gap, blank⟩, rfl⟩
  · rintro ⟨word, rfl⟩
    refine ⟨[word.first], word.more ++ word.gap, rfl,
      ⟨word.first, contains_wordStarts.trans word.begins, rfl⟩, word.more, word.gap, rfl, ?_, ?_⟩
    · exact Node.spells_run.mpr ⟨Nat.zero_le _, fun c member => contains_pathParts.trans (word.goesOn c member)⟩
    · exact spells_blanks.mpr ⟨List.length_pos_of_ne_nil word.apart, word.blank⟩

theorem spells_frontNode :
    frontNode.Spells taken ↔ ∃ (lead : List Char) (words : List Word), words ≠ [] ∧
      (∀ c ∈ lead, Text.isBlank c = true) ∧ taken = lead ++ words.flatMap Word.text := by
  constructor
  · rintro ⟨lead, _, rfl, leads, pieces, rfl, ⟨more, _, many⟩, each⟩
    have texts : pieces ∈ Set.range (List.map Word.text) := by
      rw [Set.range_list_map]
      intro piece among
      obtain ⟨word, same⟩ := spells_wordNode.mp (each piece among)
      exact ⟨word, same.symm⟩
    obtain ⟨words, rfl⟩ := texts
    rw [List.length_map] at many
    refine ⟨lead, words, ?_, (spells_blanks.mp leads).2, by rw [List.flatMap_def]⟩
    rintro rfl
    simp at many
    omega
  · rintro ⟨lead, words, some_word, leads, rfl⟩
    refine ⟨lead, words.flatMap Word.text, rfl, spells_blanks.mpr ⟨Nat.zero_le _, leads⟩,
      words.map Word.text, List.flatMap_def .., ⟨words.length - 1, by simp, ?_⟩, ?_⟩
    · have := List.length_pos_of_ne_nil some_word
      rw [List.length_map]
      omega
    · intro piece among
      obtain ⟨word, _, rfl⟩ := List.mem_map.mp among
      exact spells_wordNode.mpr ⟨word, rfl⟩

theorem spells_nameNode :
    nameNode.Spells taken ↔ ∃ (first : Char) (more : List Char), beginsWord first = true ∧
      (∀ c ∈ more, inWord c = true) ∧ taken = first :: more := by
  constructor
  · rintro ⟨_, more, rfl, ⟨first, begins, rfl⟩, goesOn⟩
    obtain ⟨_, goesOn⟩ := Node.spells_run.mp goesOn
    simp only [contains_wordStarts, contains_wordParts] at begins goesOn
    exact ⟨first, more, begins, goesOn, rfl⟩
  · rintro ⟨first, more, begins, goesOn, rfl⟩
    exact ⟨[first], more, rfl, ⟨first, contains_wordStarts.trans begins, rfl⟩,
      Node.spells_run.mpr ⟨Nat.zero_le _, fun c member => contains_wordParts.trans (goesOn c member)⟩⟩

end Spells

/-! ### Where the pattern leads -/

/-- The place behind a head with which a text begins. -/
def Head.behind (head : Head) (rest : List Char) : Place where
  offset := Text.byteLength head.text
  before := some '('
  rest := rest
  groups := head.groups

/-- Behind all parts of a head lies the place behind the head. -/
theorem Head.past_parts (head : Head) (text rest : List Char) :
    let first := ((Place.start text).past head.front (head.name ++ (head.gap ++ '(' :: rest))).close 1 0
    let second := (first.past head.name (head.gap ++ '(' :: rest)).close 2 first.offset
    let third := (second.past head.gap ('(' :: rest)).close 3 second.offset
    (third.past ['('] rest).close 4 third.offset = head.behind rest := by
  have one_byte : '('.utf8Size = 1 := by decide
  simp [Place.past, Place.close, Place.start, Head.behind, Head.groups, Head.text, Text.byteLength_append,
    Text.byteLength, Nat.add_assoc, one_byte]

/-- **Where the pattern leads**: behind the heads with which the text begins. -/
theorem leads_signatureNode {text : List Char} {ended : Place} :
    signatureNode.Leads (.start text) ended ↔
      ∃ (head : Head) (rest : List Char), text = head.text ++ rest ∧ ended = head.behind rest := by
  constructor
  · rintro ⟨_, ⟨_, rfl⟩, _, ⟨_, rfl⟩, _, ⟨_, one, rfl⟩, _, ⟨_, two, rfl⟩, _, ⟨_, three, rfl⟩, _, four, rfl⟩
    obtain ⟨_, behind_front, fronts, rfl, rfl⟩ := (Node.leads_iff_past rfl).mp one
    obtain ⟨_, behind_name, names, rfl, rfl⟩ := (Node.leads_iff_past rfl).mp two
    obtain ⟨gap, behind_gap, gaps, rfl, rfl⟩ := (Node.leads_iff_past rfl).mp three
    obtain ⟨_, rest, rfl, rfl, rfl⟩ := (Node.leads_iff_past rfl).mp four
    obtain ⟨lead, words, some_word, leads, rfl⟩ := spells_frontNode.mp fronts
    obtain ⟨first, more, begins, goesOn, rfl⟩ := spells_nameNode.mp names
    let head : Head := ⟨lead, words, first, more, gap, leads, some_word, begins, goesOn, (spells_blanks.mp gaps).2⟩
    exact ⟨head, rest, by simp [head, Head.text, Head.front, Head.name], head.past_parts _ rest⟩
  · rintro ⟨head, rest, rfl, rfl⟩
    have fronts : frontNode.Spells head.front :=
      spells_frontNode.mpr ⟨head.lead, head.words, head.some_word, head.leads, rfl⟩
    have names : nameNode.Spells head.name :=
      spells_nameNode.mpr ⟨head.first, head.more, head.begins, head.goesOn, rfl⟩
    have gaps : gapNode.Spells head.gap := spells_blanks.mpr ⟨Nat.zero_le _, head.blank⟩
    have whole : head.text ++ rest = head.front ++ (head.name ++ (head.gap ++ '(' :: rest)) := by
      simp [Head.text]
    rw [← head.past_parts (head.text ++ rest) rest]
    refine ⟨_, ⟨rfl, rfl⟩, _, ⟨rfl, rfl⟩, _, ⟨_, ?_, rfl⟩, _, ⟨_, ?_, rfl⟩, _, ⟨_, ?_, rfl⟩, _, ?_, rfl⟩
    · exact (Node.leads_iff_past rfl).mpr ⟨_, _, fronts, whole, rfl⟩
    · exact (Node.leads_iff_past rfl).mpr ⟨_, _, names, rfl, rfl⟩
    · exact (Node.leads_iff_past rfl).mpr ⟨_, _, gaps, rfl, rfl⟩
    · exact (Node.leads_iff_past rfl).mpr ⟨_, _, rfl, rfl, rfl⟩

/-- **The rule matches where a head stands first**, and the groups of the match are the parts of the head. -/
theorem find?_signature_iff {text : List Char} {found : Match} :
    (Regex.ofNode signatureNode).find? text = some found ↔
      ∃ (head : Head) (rest : List Char), text = head.text ++ rest ∧ found = head.found := by
  have unique (one other : Place) (leads : signatureNode.Leads (.start text) one)
      (leads_too : signatureNode.Leads (.start text) other) : one = other := by
    obtain ⟨head, rest, split, rfl⟩ := leads_signatureNode.mp leads
    obtain ⟨another, left, same, rfl⟩ := leads_signatureNode.mp leads_too
    obtain ⟨fronts, names, gaps, rests⟩ := Head.parts_eq (split.symm.trans same)
    simp only [Head.behind, Head.groups, Head.text, fronts, names, gaps, rests]
  rw [Regex.find?_ofNode_iff rfl unique]
  constructor
  · rintro ⟨ended, leads, rfl⟩
    obtain ⟨head, rest, split, rfl⟩ := leads_signatureNode.mp leads
    exact ⟨head, rest, split, rfl⟩
  · rintro ⟨head, rest, split, rfl⟩
    exact ⟨head.behind rest, leads_signatureNode.mpr ⟨head, rest, split, rfl⟩, rfl⟩

end TableLexer.Java
