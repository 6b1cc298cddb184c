/-
**Heads end at the first parenthesis.**

What stands before the first opening parenthesis of a text settles whether a head stands first in the text, and
where its parts are: read backwards from the parenthesis they are the white space, the word before it, and all the
rest. So the rule for heads needs no choice, and there is no other way through its pattern.

* `Head.before_injective`: there is one way to see a head in what stands before its parenthesis, word by word.
* `Head.frontOf_before`, `lastWord_before`, `endGap_before`: the parts of a head, read from its end.
* `find?_signature_isSome_iff`: a head stands first in a text if it is what stands before the first parenthesis.
* `heads_end_at_first_parenthesis`: where the rule for heads matches, and what its groups are.
-/

import Mathlib.Data.List.DropRight
import TableLexer.Proofs.Java.Lexemes
import TableLexer.Proofs.Java.Table

namespace TableLexer.Java

open Pattern (Match Node Place Plan Regex)

/-! ### Texts read from their end -/

/-- The white space with which a text ends. -/
def endGap (text : List Char) : List Char := text.rtakeWhile Text.isBlank

/-- The letters, digits and underscores before the white space at the end. -/
def lastWord (text : List Char) : List Char := (text.rdropWhile Text.isBlank).rtakeWhile inWord

/-- What stands before the last word. -/
def frontOf (text : List Char) : List Char := (text.rdropWhile Text.isBlank).rdropWhile inWord

section Ends

variable {kind : Char → Bool} {front back text : List Char}

/-- The last characters of a kind are what stands behind the last character of another kind. -/
theorem rdropWhile_append_of_last (inside : ∀ c ∈ back, kind c = true)
    (last : front.getLast?.any kind = false) :
    (front ++ back).rdropWhile kind = front ∧ (front ++ back).rtakeWhile kind = back := by
  have dropped : (front ++ back).rdropWhile kind = front := by
    induction back using List.reverseRecOn with
    | nil =>
      rw [List.append_nil, List.rdropWhile_eq_self_iff]
      intro some_char
      simpa [List.getLast?_eq_some_getLast some_char] using last
    | append_singleton back c ih =>
      rw [← List.append_assoc, List.rdropWhile_concat_pos kind _ _ (inside c (by simp))]
      exact ih fun d among => inside d (List.mem_append_left _ among)
  refine ⟨dropped, ?_⟩
  have whole := List.rdropWhile_append_rtakeWhile (p := kind) (l := front ++ back)
  rw [dropped] at whole
  exact List.append_cancel_left whole

/-- The three parts of a text, read from its end, make it up. -/
theorem frontOf_append (text : List Char) : frontOf text ++ (lastWord text ++ endGap text) = text := by
  rw [frontOf, lastWord, endGap, ← List.append_assoc, List.rdropWhile_append_rtakeWhile,
    List.rdropWhile_append_rtakeWhile]

end Ends

/-! ### Words -/

theorem not_blank_of_inPath {c : Char} (inside : inPath c = true) : Text.isBlank c = false := by
  rcases inPath_iff.mp inside with word | sign
  · exact not_blank_of_inWord word
  · simp [Text.isBlank, Text.inRanges, Text.blankRanges]
    omega

namespace Word

variable {word other : Word} {rest left : List Char}

/-- No white space stands in a word. -/
theorem solid (word : Word) : ∀ c ∈ word.first :: word.more, (!Text.isBlank c) = true := by
  intro c among
  rw [Bool.not_eq_true']
  rcases List.mem_cons.mp among with rfl | later
  · exact not_blank_of_inWord (inWord_of_beginsWord word.begins)
  · exact not_blank_of_inPath (word.goesOn c later)

/-- A text begins with a word, and with white space behind it, in one way only if something else follows. -/
theorem eq_of_text_append (same : word.text ++ rest = other.text ++ left)
    (behind : rest.head?.any Text.isBlank = false) (behindOther : left.head?.any Text.isBlank = false) :
    word = other ∧ rest = left := by
  have parted : (word.first :: word.more) ++ (word.gap ++ rest) =
      (other.first :: other.more) ++ (other.gap ++ left) := by
    simpa [text] using same
  have gapped (word : Word) (rest : List Char) :
      (word.gap ++ rest).head?.any (fun c => !Text.isBlank c) = false := by
    obtain ⟨c, gap, split⟩ := List.exists_cons_of_ne_nil word.apart
    have blank : Text.isBlank c = true := word.blank c (by simp [split])
    simp [split, blank]
  obtain ⟨letters, behind_letters⟩ :=
    Text.cut_unique parted word.solid other.solid (gapped word rest) (gapped other left)
  obtain ⟨gaps, rests⟩ := Text.cut_unique behind_letters word.blank other.blank behind behindOther
  obtain ⟨firsts, mores⟩ := List.cons.inj letters
  cases word
  cases other
  simp_all

/-- What begins with a word begins with no white space. -/
theorem not_blank_head (words : List Word) :
    (words.flatMap Word.text).head?.any Text.isBlank = false := by
  cases words with
  | nil => rfl
  | cons word words =>
    have letter := word.solid word.first List.mem_cons_self
    simpa [Word.text] using letter

/-- A text is made up of words in one way only. -/
theorem eq_of_flatMap_text {words others : List Word}
    (same : words.flatMap Word.text = others.flatMap Word.text) : words = others := by
  induction words generalizing others with
  | nil =>
    cases others with
    | nil => rfl
    | cons other others => simp [Word.text] at same
  | cons word words ih =>
    cases others with
    | nil => simp [Word.text] at same
    | cons other others =>
      rw [List.flatMap_cons, List.flatMap_cons] at same
      obtain ⟨rfl, rests⟩ := eq_of_text_append same (not_blank_head words) (not_blank_head others)
      rw [ih rests]

end Word

/-! ### Heads -/

namespace Head

variable {head other : Head} {text : List Char}

/-- What stands before the parenthesis of a head. -/
def before (head : Head) : List Char := head.front ++ (head.name ++ head.gap)

theorem text_append (head : Head) (rest : List Char) : head.text ++ rest = head.before ++ '(' :: rest := by
  simp [Head.text, before]

/-- **There is one way to see a head** in what stands before its parenthesis, word by word. -/
theorem before_injective : Function.Injective before := by
  intro head other same
  have texts : head.text ++ [] = other.text ++ [] := by
    rw [text_append, text_append, same]
  obtain ⟨fronts, names, gaps, _⟩ := parts_eq texts
  obtain ⟨leads, flat⟩ := Text.cut_unique fronts head.leads other.leads
    (Word.not_blank_head head.words) (Word.not_blank_head other.words)
  have words := Word.eq_of_flatMap_text flat
  obtain ⟨firsts, mores⟩ := List.cons.inj names
  cases head
  cases other
  simp_all

/-- The white space at the end of a head is what it ends with. -/
theorem ends_with_gap (head : Head) :
    head.before.rdropWhile Text.isBlank = head.front ++ head.name ∧ endGap head.before = head.gap := by
  have solid : (head.front ++ head.name).getLast?.any Text.isBlank = false := by
    have some_letter : head.name ≠ [] := List.cons_ne_nil _ _
    rw [List.getLast?_append_of_ne_nil _ some_letter, List.getLast?_eq_some_getLast some_letter]
    exact not_blank_of_inWord (inWord_of_mem_name (List.getLast_mem some_letter))
  rw [before, ← List.append_assoc]
  exact rdropWhile_append_of_last head.blank solid

/-- Before the name stands white space, so the name is the last word. -/
theorem ends_with_name (head : Head) :
    (head.front ++ head.name).rdropWhile inWord = head.front ∧
      (head.front ++ head.name).rtakeWhile inWord = head.name := by
  obtain ⟨more, c, split, blank⟩ := head.blank_before_name
  refine rdropWhile_append_of_last (fun c among => inWord_of_mem_name among) ?_
  have no_letter : inWord c = false := by
    by_contra letter
    rw [not_blank_of_inWord (Bool.not_eq_false _ ▸ letter)] at blank
    cases blank
  simp [split, no_letter]

theorem endGap_before (head : Head) : endGap head.before = head.gap := head.ends_with_gap.2

theorem lastWord_before (head : Head) : lastWord head.before = head.name := by
  rw [lastWord, head.ends_with_gap.1, head.ends_with_name.2]

theorem frontOf_before (head : Head) : frontOf head.before = head.front := by
  rw [frontOf, head.ends_with_gap.1, head.ends_with_name.1]

/-- The parenthesis of a head is the first of the text. -/
theorem takeWhile_text (head : Head) (rest : List Char) :
    (head.text ++ rest).takeWhile (· != '(') = head.before := by
  have unlike : ∀ c ∈ head.before, (c != '(') = true := fun c among => bne_iff_ne.mpr (ne_paren_of_mem among)
  rw [text_append, List.takeWhile_append_of_pos unlike]
  simp

end Head

/-! ### Where the rule matches -/

/-- The match is of a text and of the parenthesis behind it. Its groups are the parts of the text, read from its
end, and the parenthesis: each begins where the one before it ends, and together they are the match. -/
structure FoundBehind (before : List Char) (found : Match) : Prop where
  whole : found.span = ⟨0, Text.byteLength before + 1⟩
  front : found.group? 1 = some ⟨0, Text.byteLength (frontOf before)⟩
  name : found.group? 2 = some ⟨Text.byteLength (frontOf before),
    Text.byteLength (frontOf before) + Text.byteLength (lastWord before)⟩
  gap : found.group? 3 = some ⟨Text.byteLength (frontOf before) + Text.byteLength (lastWord before),
    Text.byteLength before⟩
  parenthesis : found.group? 4 = some ⟨Text.byteLength before, Text.byteLength before + 1⟩
  /-- The last word is an identifier. -/
  begins : (lastWord before).head?.any beginsWord = true
  /-- White space stands before it, so it is not a part of a longer word. -/
  apart : (frontOf before).getLast?.any Text.isBlank = true
  unmarked : '(' ∉ frontOf before

section Found

variable {text : List Char} {found : Match}

theorem Head.foundBehind (head : Head) : FoundBehind head.before head.found := by
  have one_byte : '('.utf8Size = 1 := by decide
  have bytes : Text.byteLength head.before =
      Text.byteLength head.front + Text.byteLength head.name + Text.byteLength head.gap := by
    simp [before, Text.byteLength_append, Nat.add_assoc]
  have whole : Text.byteLength head.text = Text.byteLength head.before + 1 := by
    rw [← List.append_nil head.text, head.text_append, Text.byteLength_append]
    simp [Text.byteLength, one_byte]
  obtain ⟨more, c, split, blank⟩ := head.blank_before_name
  constructor
  case whole => rw [← whole]; rfl
  case front => rw [head.frontOf_before]; rfl
  case name => rw [head.frontOf_before, head.lastWord_before]; rfl
  case gap => rw [head.frontOf_before, head.lastWord_before, bytes]; rfl
  case parenthesis => rw [bytes]; rfl
  case begins => rw [head.lastWord_before]; exact head.begins
  case apart => rw [head.frontOf_before, split]; simpa using blank
  case unmarked =>
    rw [head.frontOf_before]
    exact fun among => Head.ne_paren_of_mem (List.mem_append_left _ among) rfl

/-- **A head stands first in a text** if what stands before the first parenthesis is one. -/
theorem find?_signature_isSome_iff :
    ((Regex.ofNode signatureNode).find? text).isSome = true ↔
      '(' ∈ text ∧ ∃ head : Head, head.before = text.takeWhile (· != '(') := by
  rw [Option.isSome_iff_exists]
  constructor
  · rintro ⟨found, matched⟩
    obtain ⟨head, rest, rfl, _⟩ := find?_signature_iff.mp matched
    exact ⟨by simp [Head.text], head, (head.takeWhile_text rest).symm⟩
  · rintro ⟨marked, head, same⟩
    obtain ⟨c, rest, split⟩ : ∃ c rest, text.dropWhile (· != '(') = c :: rest := by
      refine List.exists_cons_of_ne_nil fun none_left => ?_
      exact absurd (List.dropWhile_eq_nil_iff.mp none_left '(' marked) (by decide)
    obtain rfl : c = '(' := by
      have stops := List.head?_dropWhile_not (· != '(') text
      simpa [split] using stops
    refine ⟨head.found, find?_signature_iff.mpr ⟨head, rest, ?_, rfl⟩⟩
    rw [head.text_append, same, ← split, List.takeWhile_append_dropWhile]

/-- All ways through the pattern are the match. -/
theorem upTo_of_leads_signature {ended : Place} (matched : (Regex.ofNode signatureNode).find? text = some found)
    (leads : (Regex.ofNode signatureNode).plan.Leads (.start text) ended) : Match.upTo 0 ended = found := by
  obtain ⟨head, rest, split, rfl⟩ := leads_signatureNode.mp (Node.leads_plan.mp leads)
  have same := find?_signature_iff.mpr ⟨head, rest, split, rfl⟩
  exact Option.some.inj (same.symm.trans matched)

end Found

/-! ### The first rule -/

section Rule

variable {table : Table}

/-- The first rule of the root state is the one for heads. -/
theorem exists_rule_of_heads (built : Java.table = .ok table) :
    ∃ rule others, (table.state table.root).rules = rule :: others ∧ rule.source = signature.pattern ∧
      ReadsHeads rule := by
  obtain ⟨rule, others, describes, _, rules⟩ := List.forall₂_cons_left_iff.mp (describes_root built)
  exact ⟨rule, others, rules, describes.pattern, readsHeads_of_describes describes⟩

/-- **Heads end at the first parenthesis.** The first rule of the root state matches a text exactly when there is an
opening parenthesis in it and what stands before the first one is white space, words with white space behind each,
an identifier and white space. The match ends behind that parenthesis, and its groups are the parts. There is one
way only to see these in a text, and one way only through the pattern, whatever is preferred and tried again. -/
theorem heads_end_at_first_parenthesis (built : Java.table = .ok table) :
    ∃ rule others, (table.state table.root).rules = rule :: others ∧ rule.source = signature.pattern ∧
      Function.Injective Head.before ∧ ∀ text : List Char,
        let before := text.takeWhile (· != '(')
        ((rule.regex.find? text).isSome = true ↔ '(' ∈ text ∧ ∃ head : Head, head.before = before) ∧
        ∀ found, rule.regex.find? text = some found → FoundBehind before found ∧
          frontOf before ++ (lastWord before ++ endGap before) = before ∧
          ∀ ended, rule.regex.plan.Leads (.start text) ended → Match.upTo 0 ended = found := by
  obtain ⟨rule, others, rules, pattern, reads⟩ := exists_rule_of_heads built
  refine ⟨rule, others, rules, pattern, Head.before_injective, fun text => ?_⟩
  rw [reads.regex]
  refine ⟨find?_signature_isSome_iff, fun found matched => ⟨?_, frontOf_append _, ?_⟩⟩
  · obtain ⟨head, rest, rfl, rfl⟩ := find?_signature_iff.mp matched
    rw [head.takeWhile_text]
    exact head.foundBehind
  · exact fun ended leads => upTo_of_leads_signature matched leads

/-- White space that is not ASCII parts the type from the name, and only the first of two parentheses counts. -/
theorem heads_end_at_first_parenthesis_of_wide_gap :
    ∃ table, Java.table = .ok table ∧ ∃ rule others, (table.state table.root).rules = rule :: others ∧
      ∃ found, rule.regex.find? "\tpublic int[]\u3000run (a) (b)".toList = some found ∧ found.span = ⟨0, 21⟩ ∧
        found.group? 1 = some ⟨0, 16⟩ ∧ found.group? 2 = some ⟨16, 19⟩ ∧ found.group? 3 = some ⟨19, 20⟩ ∧
        found.group? 4 = some ⟨20, 21⟩ := by
  obtain ⟨table, built, _⟩ := exists_table
  obtain ⟨rule, others, rules, _, _, finds⟩ := heads_end_at_first_parenthesis built
  obtain ⟨matches_iff, parts⟩ := finds "\tpublic int[]\u3000run (a) (b)".toList
  let head : Head :=
    { lead := ['\t']
      words :=
        [⟨'p', "ublic".toList, [' '], rfl, List.all_eq_true.mp rfl, by decide, List.all_eq_true.mp rfl⟩,
          ⟨'i', "nt[]".toList, ['\u3000'], rfl, List.all_eq_true.mp rfl, by decide, List.all_eq_true.mp rfl⟩]
      first := 'r'
      more := "un".toList
      gap := [' ']
      leads := List.all_eq_true.mp rfl
      some_word := by decide
      begins := rfl
      goesOn := List.all_eq_true.mp rfl
      blank := List.all_eq_true.mp rfl }
  have same : head.before = "\tpublic int[]\u3000run (a) (b)".toList.takeWhile (· != '(') := by decide
  obtain ⟨found, matched⟩ := Option.isSome_iff_exists.mp (matches_iff.mpr ⟨by decide, head, same⟩)
  have behind := (parts found matched).1
  exact ⟨table, built, rule, others, rules, found, matched, behind.whole, behind.front, behind.name, behind.gap,
    behind.parenthesis⟩

end Rule

end TableLexer.Java
