/-
**How words are classified.**

A text that begins with a letter or an underscore begins with a word, and no rule takes less of it: the rules of
the vocabularies want the word to end, and the rules for names are greedy. So a word is a token as a whole. Its
kind is that of its vocabulary, if it is in one and no other word character follows; otherwise it is a label
before a colon, and else a name.

* `find?_label`, `find?_name`: what the rules for names match.
* `words_are_classified`: the token that is made of a word.
-/

import TableLexer.Proofs.Java.Patterns
import TableLexer.Proofs.Java.Table
import TableLexer.Proofs.Pattern.Preferred

namespace TableLexer.Java

open Pattern (Node Place Plan Regex)

/-! ### The rules for names -/

section Names

variable {c : Char} {text taken rest left : List Char}

theorem spells_labelNode : labelNode.Spells taken ↔ ∃ (first : Char) (more : List Char),
    beginsWord first = true ∧ (∀ c ∈ more, inWord c = true) ∧ taken = (first :: more) ++ [':'] := by
  constructor
  · rintro ⟨_, _, rfl, ⟨first, begins, rfl⟩, more, _, rfl, goesOn, rfl⟩
    obtain ⟨_, goesOn⟩ := Node.spells_run.mp goesOn
    simp only [contains_wordStarts, contains_wordParts] at begins goesOn
    exact ⟨first, more, begins, goesOn, rfl⟩
  · rintro ⟨first, more, begins, goesOn, rfl⟩
    exact ⟨[first], more ++ [':'], rfl, ⟨first, contains_wordStarts.trans begins, rfl⟩, more, [':'], rfl,
      Node.spells_run.mpr ⟨Nat.zero_le _, fun c member => contains_wordParts.trans (goesOn c member)⟩, rfl⟩

/-- The word of a label ends where the letters do. -/
theorem takeWhile_of_label (spells : labelNode.Spells taken) (rest : List Char) :
    ∃ word, taken = word ++ [':'] ∧ (taken ++ rest).takeWhile inWord = word ∧
      (taken ++ rest).dropWhile inWord = ':' :: rest := by
  obtain ⟨first, more, begins, goesOn, rfl⟩ := spells_labelNode.mp spells
  have inside : ∀ c ∈ first :: more, inWord c = true :=
    List.forall_mem_cons.mpr ⟨inWord_of_beginsWord begins, goesOn⟩
  refine ⟨first :: more, rfl, ?_, ?_⟩
  · rw [List.append_assoc, List.takeWhile_append_of_pos inside]
    simp [show inWord ':' = false by decide]
  · rw [List.append_assoc, List.dropWhile_append_of_pos inside]
    simp [show inWord ':' = false by decide]

/-- The rule for labels matches a word and the colon behind it. -/
theorem find?_label (begins : text.head?.any beginsWord = true)
    (colon : text.dropWhile inWord = ':' :: left) :
    (Regex.ofNode labelNode.atStart).find? text = some (.ofFirst (text.takeWhile inWord ++ [':'])) := by
  have word_of (taken rest : List Char) (split : text = taken ++ rest) (spells : labelNode.Spells taken) :
      taken = text.takeWhile inWord ++ [':'] := by
    obtain ⟨word, same, letters, _⟩ := takeWhile_of_label spells rest
    rw [same, split, letters]
  have whole : text = (text.takeWhile inWord ++ [':']) ++ left := by
    rw [List.append_assoc, List.singleton_append, ← colon, List.takeWhile_append_dropWhile]
  refine (Regex.find?_atStart_iff rfl fun taken rest other left split same spells spells_too => ?_).mpr
    ⟨_, left, whole, ?_, rfl⟩
  · rw [word_of taken rest split spells, word_of other left same spells_too]
  · cases text with
    | nil => cases begins
    | cons c more =>
      rw [List.takeWhile_cons_of_pos (inWord_of_beginsWord begins)]
      exact spells_labelNode.mpr ⟨c, _, begins, fun d member => List.all_eq_true.mp List.all_takeWhile d member, rfl⟩

/-- The rule for labels matches nothing where no colon stands behind the word. -/
theorem find?_label_of_no_colon (no_colon : (text.dropWhile inWord).head? ≠ some ':') :
    (Regex.ofNode labelNode.atStart).find? text = none := by
  refine Regex.find?_atStart_of_none rfl fun taken rest split spells => no_colon ?_
  obtain ⟨_, _, _, behind⟩ := takeWhile_of_label spells rest
  rw [split, behind]
  rfl

/-- The rule for names matches the word with which a text begins. -/
theorem find?_name (begins : text.head?.any beginsWord = true) :
    (Regex.ofNode dollarNode.atStart).find? text = some (.ofFirst (text.takeWhile inWord)) := by
  obtain ⟨c, rest, rfl⟩ : ∃ c rest, text = c :: rest := by
    cases text with
    | nil => cases begins
    | cons c rest => exact ⟨c, rest, rfl⟩
  have begins : beginsWord c = true := begins
  rw [Regex.find?_eq_run (by decide)]
  have not_dollar : c ≠ '$' := by
    rintro rfl
    cases begins
  have no_dollar : (Place.start (c :: rest)).after? ['$'] = none := if_neg not_dollar
  have one_letter : (Place.start (c :: rest)).afterOne? wordStarts =
      some ((Place.start (c :: rest)).advance c rest) := if_pos (contains_wordStarts.trans begins)
  have run : dollarNode.atStart.plan.run some (.start (c :: rest)) =
      Plan.runThrough true wordParts some rest ((Place.start (c :: rest)).advance c rest) := by
    show Plan.preferred true (((Place.start (c :: rest)).after? ['$']).bind _)
      (((Place.start (c :: rest)).afterOne? wordStarts).bind _) = _
    rw [no_dollar, one_letter]
    rfl
  have letters : wordParts.contains = inWord := funext fun _ => contains_wordParts
  have whole := List.takeWhile_append_dropWhile (p := inWord) (l := rest)
  have behind := (Place.start (c :: rest)).past_advance c (rest.takeWhile inWord) (rest.dropWhile inWord)
  rw [whole] at behind
  have ahead : ((Place.start (c :: rest)).advance c rest).rest = rest := rfl
  rw [run, Plan.runThrough_greedy wordParts ahead, letters, behind,
    List.takeWhile_cons_of_pos (inWord_of_beginsWord begins),
    ← Regex.upTo_past (c :: rest) _ (rest.dropWhile inWord)]
  rfl

end Names

/-! ### The order of the rules -/

/-- Elements that are related to those of a list are parted where it is. -/
theorem exists_split_of_forall₂ {α β : Type} {related : α → β → Prop} {elements : List α} {others : List β}
    (each : List.Forall₂ related elements others) {b : β} (member : b ∈ others) :
    ∃ front a later frontOthers laterOthers, elements = front ++ a :: later ∧
      others = frontOthers ++ b :: laterOthers ∧ List.Forall₂ related front frontOthers ∧ related a b := by
  induction each with
  | nil => cases member
  | @cons a first rest others one each ih =>
    rcases List.mem_cons.mp member with rfl | later
    · exact ⟨[], a, rest, [], others, rfl, rfl, .nil, one⟩
    · obtain ⟨front, x, tail, frontOthers, laterOthers, rfl, rfl, before, here⟩ := ih later
      exact ⟨a :: front, x, tail, first :: frontOthers, laterOthers, rfl, rfl, .cons one before, here⟩

section Order

variable {table : Table} {text : List Char}

/-- A text that begins as a word does begins with a letter of it. -/
theorem any_inWord_of_begins (begins : text.head?.any beginsWord = true) :
    text.head?.any inWord = true ∧ text.takeWhile inWord ≠ [] := by
  cases text with
  | nil => cases begins
  | cons c rest =>
    have letter : inWord c = true := inWord_of_beginsWord begins
    exact ⟨letter, by simp [letter]⟩

/-- A letter of a word is no character with which the other rules begin. -/
theorem passesOver_openers (begins : text.head?.any inWord = true) :
    ∀ described ∈ openers ++ literals, described.PassesOver source.flags text := by
  obtain ⟨c, rest, rfl⟩ : ∃ c rest, text = c :: rest := by
    cases text with
    | nil => cases begins
    | cons c rest => exact ⟨c, rest, rfl⟩
  have letter : inWord c = true := begins
  have other {d : Char} (sign : inWord d = false) : (c == d) = false := by
    refine beq_false_of_ne ?_
    rintro rfl
    rw [letter] at sign
    cases sign
  have known : (rootStarts.drop 1).take 7 ⊆ rootStarts :=
    List.Subset.trans (List.take_subset ..) (List.drop_subset ..)
  refine passesOver_of_rootStarts known ?_ rest
  simp only [rootStarts, List.drop_succ_cons, List.drop_zero, List.take_succ_cons, List.take_zero,
    List.forall_mem_cons]
  exact ⟨not_blank_of_inWord letter, other rfl, other rfl, other rfl, other rfl, other rfl, other rfl,
    List.forall_mem_nil _⟩

theorem passesOver_signature (built : Java.table = .ok table)
    (no_head : ∀ rule ∈ (table.state table.root).rules, rule.source = signature.pattern →
      rule.regex.find? text = none) : signature.PassesOver source.flags text := by
  obtain ⟨heads, others, describes, _, rules⟩ := List.forall₂_cons_left_iff.mp (describes_root built)
  have none_found := no_head heads (rules ▸ List.mem_cons_self) describes.pattern
  exact RuleSource.passesOver_of_none describes.compiled none_found

/-- The rules of vocabularies pass over a text that begins with a word of none of them. -/
theorem passesOver_vocabularies {front : List RuleSource} {entries : List (List String × Kind)}
    (each : List.Forall₂ Reads front entries) (listed : ∀ entry ∈ entries, entry ∈ vocabularies)
    (other : ∀ entry ∈ entries, String.ofList (text.takeWhile inWord) ∈ entry.1 →
      (text.dropWhile inWord).head?.any Text.isWordChar = true) :
    ∀ described ∈ front, described.PassesOver source.flags text := by
  induction each with
  | nil => exact fun _ member => absurd member List.not_mem_nil
  | cons reads _ ih =>
    obtain ⟨known, all_known⟩ := List.forall_mem_cons.mp listed
    obtain ⟨apart, all_apart⟩ := List.forall_mem_cons.mp other
    exact List.forall_mem_cons.mpr ⟨passesOver_vocabulary reads known apart, ih all_known all_apart⟩

end Order

/-! ### The token of a word -/

/-- A word character beyond ASCII. -/
def isWideWordChar (c : Char) : Bool := decide (0x80 ≤ c.toNat) && Text.isWordChar c

/-- Behind a word, all word characters are beyond ASCII. -/
theorem any_isWideWordChar (text : List Char) :
    (text.dropWhile inWord).head?.any isWideWordChar = (text.dropWhile inWord).head?.any Text.isWordChar := by
  have outside := List.head?_dropWhile_not inWord text
  cases left : text.dropWhile inWord with
  | nil => rfl
  | cons c rest =>
    rw [left] at outside
    have outside : inWord c = false := outside
    show (decide (0x80 ≤ c.toNat) && Text.isWordChar c) = Text.isWordChar c
    by_cases wide : 0x80 ≤ c.toNat
    · simp [wide]
    · have ascii := Text.isWordChar_of_ascii (Nat.not_le.mp wide)
      rw [ascii, show (c.isAlphanum || c == '_') = inWord c from rfl, outside, Bool.and_false]

section Token

variable {σ : Type} (engine : Engine σ) {table : Table} {lexer : Lexer} {run : Run σ} {text : List Char}

/-- A word of a vocabulary, behind which no other word character stands, is a token of the kind of the
vocabulary. -/
theorem makes_reserved (built : Java.table = .ok table) (there : InRoot table lexer run text)
    (begins : text.head?.any beginsWord = true) (passed : signature.PassesOver source.flags text)
    {entry : List String × Kind} (listed : entry ∈ vocabularies)
    (member : String.ofList (text.takeWhile inWord) ∈ entry.1)
    (ends : (text.dropWhile inWord).head?.any Text.isWordChar = false) :
    ∃ moves, Enters table (entered? (String.ofList (text.takeWhile inWord))) moves ∧
      lexer.MakesToken engine run entry.2 (text.takeWhile inWord) (text.dropWhile inWord) moves := by
  obtain ⟨front, described, later, before, after, split, entries, earlier, reads⟩ :=
    exists_split_of_forall₂ reads_vocabularies listed
  have order : rootRules = (signature :: (openers ++ front)) ++ described ::
      (later ++ (literals ++ (label :: name :: closers))) := by
    conv => lhs; rw [rootRules_eq, split]
    simp
  obtain ⟨letters, some_word⟩ := any_inWord_of_begins begins
  have apart (one : List String × Kind) (here : one ∈ before)
      (also : String.ofList (text.takeWhile inWord) ∈ one.1) :
      (text.dropWhile inWord).head?.any Text.isWordChar = true := by
    have pairwise := vocabularies_apart
    rw [entries, List.pairwise_append] at pairwise
    exact absurd member (pairwise.2.2 one here entry List.mem_cons_self _ also)
  have known (one : List String × Kind) (here : one ∈ before) : one ∈ vocabularies :=
    entries ▸ List.mem_append_left _ here
  have passes : ∀ other ∈ signature :: (openers ++ front), other.PassesOver source.flags text := by
    refine List.forall_mem_cons.mpr ⟨passed, fun other among => ?_⟩
    rcases List.mem_append.mp among with opener | vocabulary
    · exact passesOver_openers letters other (List.mem_append_left _ opener)
    · exact passesOver_vocabularies earlier known apart other vocabulary
  have whole : text.takeWhile inWord ++ text.dropWhile inWord = text := List.takeWhile_append_dropWhile
  have found := find?_vocabulary listed member ends
  rw [String.toList_ofList] at found
  exact InRoot.makesToken built (by rwa [whole]) order (by rwa [whole]) reads.compiled
    some_word found (reads.behavior _ member)

/-- Before the rule for labels, all rules pass over a text that begins with a word of no vocabulary. -/
theorem passesOver_before_label (begins : text.head?.any beginsWord = true)
    (passed : signature.PassesOver source.flags text)
    (other : ∀ entry ∈ vocabularies, String.ofList (text.takeWhile inWord) ∈ entry.1 →
      (text.dropWhile inWord).head?.any Text.isWordChar = true) :
    ∀ described ∈ signature :: (openers ++ (vocabularyRules ++ literals)),
      described.PassesOver source.flags text := by
  obtain ⟨letters, _⟩ := any_inWord_of_begins begins
  have vocabulary := passesOver_vocabularies reads_vocabularies (fun _ listed => listed) other
  simp only [List.forall_mem_cons, List.forall_mem_append]
  obtain ⟨opener, literal⟩ := List.forall_mem_append.mp (passesOver_openers letters)
  exact ⟨passed, opener, vocabulary, literal⟩

/-- **How a word is classified**, where it begins no head of a method. -/
theorem words_are_classified (built : Java.table = .ok table) (there : InRoot table lexer run text)
    (begins : text.head?.any beginsWord = true)
    (no_head : ∀ rule ∈ (table.state table.root).rules, rule.source = signature.pattern →
      rule.regex.find? text = none) :
    let word := text.takeWhile inWord
    let rest := text.dropWhile inWord
    (∀ entry ∈ vocabularies, String.ofList word ∈ entry.1 → rest.head?.any isWideWordChar = false →
      ∃ moves, Enters table (entered? (String.ofList word)) moves ∧
        lexer.MakesToken engine run entry.2 word rest moves) ∧
    ((∀ entry ∈ vocabularies, String.ofList word ∈ entry.1 → rest.head?.any isWideWordChar = true) →
      (∀ left, rest = ':' :: left → lexer.MakesToken engine run .nameLabel (word ++ [':']) left []) ∧
      (rest.head? ≠ some ':' → lexer.MakesToken engine run .name word rest [])) := by
  intro word rest
  have passed : signature.PassesOver source.flags text := passesOver_signature built no_head
  obtain ⟨_, some_word⟩ := any_inWord_of_begins begins
  rw [show rest.head?.any isWideWordChar = rest.head?.any Text.isWordChar from any_isWideWordChar text]
  refine ⟨fun entry listed member ends =>
    makes_reserved engine built there begins passed listed member ends, fun other => ⟨?_, ?_⟩⟩
  · intro left colon
    have whole : (word ++ [':']) ++ left = text := by
      rw [List.append_assoc, List.singleton_append, ← colon]
      exact List.takeWhile_append_dropWhile
    have order : rootRules = (signature :: (openers ++ (vocabularyRules ++ literals))) ++
        label :: name :: closers := rfl
    have passes := passesOver_before_label begins passed other
    have found := find?_label begins colon
    exact InRoot.makesPlainToken built (by rwa [whole]) order (by rwa [whole]) compile?_label
      (List.append_ne_nil_of_left_ne_nil some_word _) (by rwa [whole]) rfl
  · intro no_colon
    have whole : word ++ rest = text := List.takeWhile_append_dropWhile
    have order : rootRules = (signature :: (openers ++ (vocabularyRules ++ literals)) ++ [label]) ++
        name :: closers := rfl
    have passes : ∀ described ∈ signature :: (openers ++ (vocabularyRules ++ literals)) ++ [label],
        described.PassesOver source.flags text := by
      refine List.forall_mem_append.mpr ⟨passesOver_before_label begins passed other, ?_⟩
      rw [List.forall_mem_singleton]
      exact RuleSource.passesOver_of_none compile?_label (find?_label_of_no_colon no_colon)
    have found := find?_name begins
    exact InRoot.makesPlainToken built (by rwa [whole]) order (by rwa [whole]) compile?_name
      some_word (by rwa [whole]) rfl

/-- Behind `interface`, the state that names a class is entered. -/
theorem words_are_classified_of_interface :
    ∃ built, Java.table = .ok built ∧
      let engine : Engine Collector := .collecting { languages := [language] } {}
      let lexer : Lexer := { table := built }
      let run : Run Collector := ⟨.start built "interface Foo".toList, { sink := {} }⟩
      InRoot built lexer run "interface Foo".toList ∧
      ("interface Foo".toList.head?.any beginsWord = true) ∧
      (∀ rule ∈ (built.state built.root).rules, rule.source = signature.pattern →
        rule.regex.find? "interface Foo".toList = none) ∧
      ∃ moves, Enters built (some classState) moves ∧
        lexer.MakesToken engine run .keywordDeclaration "interface".toList " Foo".toList moves := by
  obtain ⟨built, outcome, _⟩ := exists_table
  have described : Table.build descriptor source = .ok built := outcome
  have no_head : ∀ rule ∈ (built.state built.root).rules, rule.source = signature.pattern →
      rule.regex.find? "interface Foo".toList = none := by
    intro rule member same
    have compiled := Table.compiled_of_build described rule (Table.mem_rules member)
    unfold Rule.Compiled at compiled
    rw [same, compile?_signature] at compiled
    rw [← Option.some.inj compiled]
    decide +kernel
  have there : InRoot built { table := built }
      (⟨.start built "interface Foo".toList, { sink := {} }⟩ : Run Collector) "interface Foo".toList :=
    ⟨rfl, rfl, rfl⟩
  have begins : "interface Foo".toList.head?.any beginsWord = true := by decide +kernel
  have letters : "interface Foo".toList.takeWhile inWord = "interface".toList := by decide +kernel
  have others : "interface Foo".toList.dropWhile inWord = " Foo".toList := by decide +kernel
  refine ⟨built, outcome, there, begins, no_head, ?_⟩
  have classified := (words_are_classified (.collecting { languages := [language] } {}) outcome there
    begins no_head).1 (["class", "interface"], .keywordDeclaration) (by simp [vocabularies])
  rw [letters, others, String.ofList_toList] at classified
  exact classified (by simp) (by decide +kernel)

end Token

end TableLexer.Java
