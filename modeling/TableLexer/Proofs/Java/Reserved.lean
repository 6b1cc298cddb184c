/-
**The words that are reserved.**

Each vocabulary has a rule of its own, which matches a word of the vocabulary where no other word character
follows. The rules stand one after another in the root state, behind rules whose matches begin otherwise, so
where such a word stands first, and no head of a method, the rule of its vocabulary is chosen.

* `vocabularies`, `reserved`: the words, and the kinds of their tokens.
* `find?_words_iff`: what the rule of a vocabulary matches.
* `Ranked`, `ranked_of_build`: the order of the rules of the root state.
* `classifies_of_word`, `classifies_before_paren`: where the rule of a vocabulary is chosen.
-/

import TableLexer.Proofs.Java.Signature
import TableLexer.Proofs.Pattern.Chars
import TableLexer.Proofs.Pattern.WholeWords
import TableLexer.Proofs.Table.Described

namespace TableLexer.Java

open Pattern (CharTest Match Node Place Regex)

/-! ### The vocabularies -/

/-- The fixed vocabularies, and the kinds of the tokens for their words. -/
def vocabularies : List (List String × Kind) :=
  [(keywords, .keyword), (declarations, .keywordDeclaration), (types, .keywordType),
    (["package"], .keywordNamespace), (["true", "false", "null"], .keywordConstant),
    (["class", "interface"], .keywordDeclaration), (["import"], .keywordNamespace)]

/-- The words that are reserved. -/
def reserved : List String := vocabularies.flatMap Prod.fst

/-- No word is in two vocabularies. -/
theorem vocabularies_apart :
    vocabularies.Pairwise fun one other => ∀ word ∈ one.1, word ∉ other.1 := by
  decide +kernel

/-- The words that are reserved are made of the letters that words are made of. -/
theorem inWord_of_reserved {entry : List String × Kind} (listed : entry ∈ vocabularies) {word : String}
    (member : word ∈ entry.1) : word.toList ≠ [] ∧ ∀ c ∈ word.toList, inWord c = true := by
  have all : (vocabularies.all fun entry => entry.1.all fun word =>
      !word.toList.isEmpty && word.toList.all inWord) = true := by
    decide +kernel
  have letters := List.all_eq_true.mp (List.all_eq_true.mp all entry listed) word member
  simpa using letters

/-! ### The pattern of a vocabulary -/

/-- The pattern of any of the words. -/
def anyOf : List String → Node
  | [] => .one ⟨[]⟩
  | [word] => .literal word.toList
  | word :: words => .alt (.literal word.toList) (anyOf words)

/-- The pattern of any of the words where a word ends, wrapped. -/
def wordsNode (words : List String) : Node :=
  .seq (.look .textStart) (.seq (anyOf words) (.look .wordBoundary))

section Words

variable {words : List String} {text : List Char}

/-- The pattern is a choice between the words. -/
theorem chooses_anyOf : (anyOf words).Chooses (words.map String.toList) := by
  have alternatives : anyOf words = Node.alternation ((words.map String.toList).map .literal) := by
    fun_induction anyOf words with
    | case1 | case2 => rfl
    | case3 word words more ih =>
      obtain ⟨next, rest, rfl⟩ := List.exists_cons_of_ne_nil more
      rw [ih]
      rfl
  exact alternatives ▸ Node.chooses_alternation _

theorem isWordChar_of_inWord {c : Char} (inside : inWord c = true) : Text.isWordChar c = true := by
  have ascii : c.toNat < 0x80 := by
    rw [inWord_iff] at inside
    omega
  rw [Text.isWordChar_of_ascii ascii]
  exact inside

/-- A text begins with one word only behind which no other word character follows. -/
theorem word_unique {word other rest left : List Char} (same : word ++ rest = other ++ left)
    (inside : ∀ c ∈ word, inWord c = true) (insideOther : ∀ c ∈ other, inWord c = true)
    (behind : rest.head?.any Text.isWordChar = false) (behindOther : left.head?.any Text.isWordChar = false) :
    word = other ∧ rest = left :=
  Text.cut_unique same (fun c member => isWordChar_of_inWord (inside c member))
    (fun c member => isWordChar_of_inWord (insideOther c member)) behind behindOther

/-- **The rule of a vocabulary** matches where one of its words stands first and no other word character
follows. -/
theorem find?_words_iff (proper : ∀ word ∈ words, word.toList ≠ [] ∧ ∀ c ∈ word.toList, inWord c = true)
    {found : Match} :
    (Regex.ofNode (wordsNode words)).find? text = some found ↔
      ∃ word ∈ words, ∃ rest, text = word.toList ++ rest ∧ rest.head?.any Text.isWordChar = false ∧
        found = ⟨⟨0, Text.byteLength word.toList⟩, []⟩ := by
  have letters : ∀ word ∈ words.map String.toList, word ≠ [] ∧ ∀ c ∈ word, Text.isWordChar c = true := by
    rw [List.forall_mem_map]
    exact fun word member => (proper word member).imp_right fun inside c letter =>
      isWordChar_of_inWord (inside c letter)
  exact (Pattern.find?_atWordEnd_iff_exists chooses_anyOf letters).trans (by simp)

end Words

/-! ### The order of the rules -/

/-- The rule is the one for the heads of methods. -/
structure ReadsHeads (rule : Rule) : Prop where
  regex : rule.regex = .ofNode signatureNode
  behavior : rule.behavior = .composite
    [.delegate 1 .current, .emit 2 .nameFunction, .emit 3 .text, .emit 4 .punctuation]

/-- The rule is the one for the words of the vocabulary. -/
structure ReadsWords (rule : Rule) (entry : List String × Kind) : Prop where
  regex : rule.regex = .ofNode (wordsNode entry.1)
  kinds : rule.behavior.kinds = [entry.2]

/-- White space, and other characters that are part of no word. -/
def outsideWords : CharTest := .ofSpans Text.blankRanges (fun c => !inWord c) (by decide)

/-- The pattern matches nothing where a word stands first. -/
def opensOtherwise (regex : Regex) : Bool := regex.anchored && regex.plan.beginsWith outsideWords

/-- The behaviour names no method, and hands nothing on. -/
def namesNoMethod {State : Type} (behavior : Behavior State) : Bool :=
  behavior.targets.isEmpty && !behavior.kinds.contains .nameFunction

/-- The order of the rules: in the root state the one for heads comes first, then such as match nothing where a
word stands first, then those of the vocabularies. Only the first names methods. -/
structure Ranked (table : Table) : Prop where
  root : ∃ heads openers readers later,
    (table.state table.root).rules = heads :: (openers ++ (readers ++ later)) ∧ ReadsHeads heads ∧
      (∀ rule ∈ openers, opensOtherwise rule.regex = true) ∧ List.Forall₂ ReadsWords readers vocabularies
  rules : ∀ id, ∀ rule ∈ (table.state id).rules,
    id = table.root ∧ ReadsHeads rule ∨ namesNoMethod rule.behavior = true

section Build

variable {described : RuleSource} {rule : Rule} {sources : List RuleSource} {rules : List Rule}
  {names : List String}

theorem readsHeads_of_describes (describes : Rule.Describes source.flags names signature rule) :
    ReadsHeads rule where
  regex := Option.some.inj (describes.compiled.symm.trans compile?_signature)
  behavior := by
    have alike : Behavior.Alike _ signature.behavior rule.behavior := describes.behavior
    generalize rule.behavior = behavior at alike
    cases alike with
    | composite each =>
      rcases each with _ | ⟨⟨⟩, _ | ⟨⟨⟩, _ | ⟨⟨⟩, _ | ⟨⟨⟩, _ | _⟩⟩⟩⟩
      rfl

/-- What all sources of rules have, the rules have. -/
theorem forall_of_describes {holds : RuleSource → Bool} {kept : Rule → Prop}
    (each : List.Forall₂ (Rule.Describes source.flags names) sources rules)
    (all : sources.all holds = true)
    (keeps : ∀ described rule, Rule.Describes source.flags names described rule → holds described = true →
      kept rule) : ∀ rule ∈ rules, kept rule := by
  intro rule member
  have all (described : RuleSource) (listed : described ∈ sources) : holds described = true :=
    List.all_eq_true.mp all described listed
  have both := (List.forall₂_and_left _ _).mpr ⟨all, each⟩
  obtain ⟨described, holds, describes⟩ := exists_forall₂_iff.mp ⟨_, both.flip⟩ rule member
  exact keeps described rule describes holds

theorem namesNoMethod_of_describes (describes : Rule.Describes source.flags names described rule)
    (silent : namesNoMethod described.behavior = true) : namesNoMethod rule.behavior = true := by
  obtain ⟨targets, kinds⟩ := describes.behavior.reads_eq
  unfold namesNoMethod at *
  rwa [targets, kinds]

theorem opensOtherwise_of_describes (describes : Rule.Describes source.flags names described rule)
    (opens : (Regex.compile? source.flags described.pattern).any opensOtherwise = true) :
    opensOtherwise rule.regex = true := by
  rw [describes.compiled] at opens
  exact opens

/-- A pattern is compiled character by character. -/
theorem compile?_of_toList {flags : Pattern.Flags} {pattern : String} {text : List Char}
    (same : pattern.toList = text) :
    Regex.compile? flags pattern =
      (Node.parse? flags ("\\A(?:".toList ++ text ++ [')'])).bind fun node =>
        if node.fits then some (.ofNode node) else none := by
  have whole : (Pattern.anchoredText pattern).toList = "\\A(?:".toList ++ text ++ [')'] := by
    simp [Pattern.anchoredText, same]
  rw [Regex.compile?, whole]
  rfl

/-- The text of a pattern of whole words. -/
def wholeWordsText (words : List String) : List Char :=
  "(?:".toList ++ List.intercalate ['|'] (words.map String.toList) ++ ")\\b".toList

theorem toList_wholeWords (words : List String) : (wholeWords words).toList = wholeWordsText words := by
  simp [wholeWords, wholeWordsText]

/-- The pattern of whole words is compiled to the pattern of these. -/
theorem compile?_wholeWords {words : List String} (listed : words ∈ [keywords, declarations, types]) :
    Regex.compile? source.flags (wholeWords words) = some (.ofNode (wordsNode words)) := by
  -- The words are put together as lists, because long texts take long to be evaluated.
  have compiled : ∀ words ∈ [keywords, declarations, types],
      ((Node.parse? source.flags ("\\A(?:".toList ++ wholeWordsText words ++ [')'])).bind fun node =>
        if node.fits then some (Regex.ofNode node) else none) = some (.ofNode (wordsNode words)) := by
    decide +kernel
  rw [compile?_of_toList (toList_wholeWords words)]
  exact compiled words listed

/-- The rules of the vocabularies, in the order of these. -/
theorem compile?_vocabularies :
    List.Forall₂ (fun described entry =>
        Regex.compile? source.flags described.pattern = some (.ofNode (wordsNode entry.1)) ∧
          described.behavior.kinds = [entry.2])
      ((rootRules.drop 5).take 7) vocabularies := by
  refine .cons ⟨compile?_wholeWords (by simp), rfl⟩ (.cons ⟨compile?_wholeWords (by simp), rfl⟩
    (.cons ⟨compile?_wholeWords (by simp), rfl⟩ ?_))
  decide +kernel

variable {table : Table}

theorem root_of_build (built : Table.build descriptor source = .ok table) : table.root = ⟨0⟩ := by
  obtain ⟨_, _, at_root, _⟩ := Table.build_eq_ok_iff.mp built
  have first : stateIndex? (source.states.map Prod.fst) rootName = some ⟨0⟩ := by decide
  exact Option.some.inj (at_root.symm.trans first)

/-- The rules of states other than the root state name no methods. -/
theorem namesNoMethod_of_state (built : Table.build descriptor source = .ok table) {id : StateId}
    (other : id ≠ ⟨0⟩) : ∀ rule ∈ (table.state id).rules, namesNoMethod rule.behavior = true := by
  have describes := Table.describes_of_build built id
  split at describes
  · rename_i state declared
    have later : state ∈ source.states.tail := by
      obtain ⟨_ | index⟩ := id
      · exact absurd rfl other
      · exact List.mem_of_getElem? declared
    have silent : source.states.tail.all (·.2.all (namesNoMethod ·.behavior)) = true := by decide
    exact forall_of_describes describes.rules (List.all_eq_true.mp silent _ later)
      fun _ _ => namesNoMethod_of_describes
  · simp [describes]

/-- In the table of the language, the rules are in this order. -/
theorem ranked_of_build (built : Java.table = .ok table) : Ranked table := by
  have built : Table.build descriptor source = .ok table := built
  have root := root_of_build built
  obtain ⟨heads, others, describes, each, rules⟩ :=
    List.forall₂_cons_left_iff.mp (Table.describes_of_build built ⟨0⟩).rules
  rw [← root] at rules
  have reads := readsHeads_of_describes describes
  constructor
  · refine ⟨heads, others.take 4, (others.drop 4).take 7, (others.drop 4).drop 7, ?_, reads, ?_, ?_⟩
    · rw [List.take_append_drop, List.take_append_drop, rules]
    · have opens : (rootRules.tail.take 4).all fun described =>
          (Regex.compile? source.flags described.pattern).any opensOtherwise := by decide +kernel
      exact forall_of_describes (List.forall₂_take 4 each) opens fun _ _ => opensOtherwise_of_describes
    · exact forall₂_meet (fun described rule entry describes reads =>
        { regex := Option.some.inj (describes.compiled.symm.trans reads.1)
          kinds := describes.behavior.reads_eq.2.trans reads.2 })
        (List.forall₂_take 7 (List.forall₂_drop 4 each)) compile?_vocabularies
  · intro id rule member
    by_cases at_root : id = table.root
    · rw [at_root, rules] at member
      rcases List.mem_cons.mp member with rfl | later
      · exact .inl ⟨at_root, reads⟩
      · have silent : rootRules.tail.all (namesNoMethod ·.behavior) = true := by decide
        exact .inr (forall_of_describes each silent (fun _ _ => namesNoMethod_of_describes) rule later)
    · exact .inr (namesNoMethod_of_state built (root ▸ at_root) rule member)

end Build

/-! ### Where a word is classified -/

/-- Where the word stands first in the root state, before the rest, a rule that makes a token of the kind is
chosen and takes the word. -/
def Classifies (table : Table) (word : String) (kind : Kind) (rest : List Char) : Prop :=
  ∃ selection, (table.state table.root).select (word.toList ++ rest) = some selection ∧
    selection.rule.behavior.kinds = [kind] ∧
    selection.found.span = ⟨0, Text.byteLength word.toList⟩

/-- Rules that match nothing are passed over. -/
theorem exists_selectFrom_append {text : List Char} {rules : List Rule}
    (missing : ∀ rule ∈ rules, rule.regex.find? text = none) (others : List Rule) (index : Nat) :
    ∃ place, selectFrom text index (rules ++ others) = selectFrom text place others := by
  induction rules generalizing index with
  | nil => exact ⟨index, rfl⟩
  | cons rule rest ih =>
    obtain ⟨here, later⟩ := List.forall_mem_cons.mp missing
    obtain ⟨place, same⟩ := ih later (index + 1)
    refine ⟨place, ?_⟩
    rw [List.cons_append, selectFrom, here]
    exact same

section Classify

variable {entry : List String × Kind} {word : String} {rest : List Char}

/-- Of the rules of vocabularies, the one of the vocabulary of the word is chosen. -/
theorem exists_selectFrom_of_readers {readers : List Rule} {entries : List (List String × Kind)}
    (each : List.Forall₂ ReadsWords readers entries)
    (apart : entries.Pairwise fun one other => ∀ word ∈ one.1, word ∉ other.1)
    (known : ∀ entry ∈ entries, entry ∈ vocabularies) (listed : entry ∈ entries) (member : word ∈ entry.1)
    (behind : rest.head?.any Text.isWordChar = false) (later : List Rule) (index : Nat) :
    ∃ selection, selectFrom (word.toList ++ rest) index (readers ++ later) = some selection ∧
      selection.rule.behavior.kinds = [entry.2] ∧
      selection.found.span = ⟨0, Text.byteLength word.toList⟩ := by
  induction each generalizing index with
  | nil => cases listed
  | @cons reader first readers entries reads each ih =>
    have letters := inWord_of_reserved (known entry listed) member
    obtain ⟨first_known, known⟩ := List.forall_mem_cons.mp known
    obtain ⟨first_apart, apart⟩ := List.pairwise_cons.mp apart
    have proper (other : String) (here : other ∈ first.1) := inWord_of_reserved first_known here
    by_cases here : word ∈ first.1
    · obtain rfl : entry = first := by
        rcases List.mem_cons.mp listed with same | further
        · exact same
        · exact absurd member (first_apart entry further word here)
      have found : reader.regex.find? (word.toList ++ rest) =
          some ⟨⟨0, Text.byteLength word.toList⟩, []⟩ := by
        rw [reads.regex]
        exact (find?_words_iff proper).mpr ⟨word, here, rest, rfl, behind, rfl⟩
      refine ⟨⟨index, reader, ⟨0, Text.byteLength word.toList⟩, []⟩, ?_, reads.kinds, rfl⟩
      rw [List.cons_append, selectFrom, found]
      exact if_neg (Nat.ne_of_gt (Text.byteLength_pos letters.1))
    · have missing : reader.regex.find? (word.toList ++ rest) = none := by
        rw [reads.regex, Option.eq_none_iff_forall_ne_some]
        intro found find?_found
        obtain ⟨other, among, left, same, behind_too, _⟩ := (find?_words_iff proper).mp find?_found
        obtain ⟨same, _⟩ := word_unique same letters.2 (proper other among).2 behind behind_too
        exact here (String.toList_injective same ▸ among)
      have further : entry ∈ entries := by
        rcases List.mem_cons.mp listed with rfl | further
        · exact absurd member here
        · exact further
      rw [List.cons_append, selectFrom, missing]
      exact ih apart known further (index + 1)

/-- **Where a word of a vocabulary stands first**, and no head of a method, the word is classified. -/
theorem classifies_of_word {table : Table} (ranked : Ranked table) (listed : entry ∈ vocabularies)
    (member : word ∈ entry.1) (behind : rest.head?.any Text.isWordChar = false)
    (no_head : ∀ (head : Head) left, word.toList ++ rest ≠ head.text ++ left) :
    Classifies table word entry.2 rest := by
  obtain ⟨heads, openers, readers, later, rules, reads, opens, each⟩ := ranked.root
  obtain ⟨some_word, inside⟩ := inWord_of_reserved listed member
  have no_match : heads.regex.find? (word.toList ++ rest) = none := by
    rw [reads.regex, Option.eq_none_iff_forall_ne_some]
    intro found find?_found
    obtain ⟨head, left, same, _⟩ := find?_signature_iff.mp find?_found
    exact no_head head left same
  have missing (rule : Rule) (opener : rule ∈ openers) : rule.regex.find? (word.toList ++ rest) = none := by
    obtain ⟨anchored, begins⟩ := (Bool.and_eq_true _ _).mp (opens rule opener)
    obtain ⟨c, more, letters⟩ := List.exists_cons_of_ne_nil some_word
    have letter : inWord c = true := inside c (by simp [letters])
    have other : (word.toList ++ rest).head?.any outsideWords.passes = false := by
      simpa [letters, outsideWords, CharTest.ofSpans] using letter
    exact Regex.find?_of_beginsWith anchored begins other
  obtain ⟨place, passed⟩ := exists_selectFrom_append missing (readers ++ later) 1
  obtain ⟨selection, chosen, kinds, span⟩ := exists_selectFrom_of_readers each vocabularies_apart
    (fun _ known => known) listed member behind later place
  refine ⟨selection, ?_, kinds, span⟩
  rw [State.select, rules, selectFrom, no_match]
  exact passed.trans chosen

/-- White space is no part of words. -/
theorem not_isWordChar_of_isBlank {c : Char} (blank : Text.isBlank c = true) : Text.isWordChar c = false := by
  let test : CharTest := .ofSpans Text.blankRanges (fun c => !Text.isWordChar c) (by decide +kernel)
  have passes := test.sound ⟨Text.blankRanges⟩ (by decide) c blank
  simpa [test, CharTest.ofSpans] using passes

/-- Where only white space stands between a word and a parenthesis, the word begins no head of a method. -/
theorem ne_head_of_paren {gap : List Char} (inside : ∀ c ∈ word.toList, inWord c = true)
    (blank : ∀ c ∈ gap, Text.isBlank c = true) (head : Head) (left : List Char) :
    word.toList ++ (gap ++ '(' :: rest) ≠ head.text ++ left := by
  intro same
  have before : (word.toList ++ gap) ++ '(' :: rest =
      (head.front ++ (head.name ++ head.gap)) ++ '(' :: left := by
    simpa [Head.text] using same
  have apart (c : Char) (member : c ∈ word.toList ++ gap) : (c != '(') = true := by
    rw [bne_iff_ne]
    rcases List.mem_append.mp member with letter | white
    · exact ne_paren_of_inPath (inPath_iff.mpr (.inl (inside c letter)))
    · exact ne_paren_of_isBlank (blank c white)
  have apart_too (c : Char) (member : c ∈ head.front ++ (head.name ++ head.gap)) : (c != '(') = true :=
    bne_iff_ne.mpr (Head.ne_paren_of_mem member)
  obtain ⟨whole, _⟩ := Text.cut_unique before apart apart_too rfl rfl
  -- The name does not stand in the white space, nor the white space before it in the word.
  rcases List.append_eq_append_iff.mp whole with ⟨between, _, gaps⟩ | ⟨between, words, _⟩
  · have white := blank head.first (by simp [gaps, Head.name])
    simp [not_blank_of_inWord (inWord_of_beginsWord head.begins)] at white
  · obtain ⟨more, c, front, white⟩ := head.blank_before_name
    have letter := inside c (by simp [words, front])
    simp [not_blank_of_inWord letter] at white

/-- **A word of a vocabulary before a parenthesis** is classified, where it stands first. -/
theorem classifies_before_paren {table : Table} (ranked : Ranked table) (listed : entry ∈ vocabularies)
    (member : word ∈ entry.1) {gap : List Char} (blank : ∀ c ∈ gap, Text.isBlank c = true) :
    Classifies table word entry.2 (gap ++ '(' :: rest) := by
  have behind : (gap ++ '(' :: rest).head?.any Text.isWordChar = false := by
    cases gap with
    | nil =>
      show Text.isWordChar '(' = false
      decide
    | cons c more => exact not_isWordChar_of_isBlank (blank c List.mem_cons_self)
  exact classifies_of_word ranked listed member behind
    (ne_head_of_paren (inWord_of_reserved listed member).2 blank)

end Classify

end TableLexer.Java
