/-
**Which texts no rule covers.**

The scan stalls where no rule of the state matches more than the empty text. Whether one does shows in the first
character, but for the characters that begin a decorator, a name, a string or a character, where it also takes
what follows. One direction says that each rule matches nothing else; for the other, each kind of text has a
rule that matches it, whichever rule is chosen in the end.

* `not_passesOver_of_spells`: a rule does not pass over what its pattern spells.
* `forall_passesOver_iff_of_starts`: where the first character decides.
* `Uncovered`: what no rule of the root state covers.
* `stalls_exactly_where_uncovered`: where the rules of the three states stall.
-/

import TableLexer.Proofs.Java.Literals

namespace TableLexer.Java

open Pattern (CharTest Node Regex)

/-! ### What a state covers -/

section Covered

variable {c : Char} {described : RuleSource} {body : Node} {taken rest : List Char}

/-- A rule does not pass over a text with which its pattern can begin. -/
theorem not_passesOver_of_spells
    (compiled : Regex.compile? source.flags described.pattern = some (.ofNode body.atStart))
    (plain : body.plain = true) (takes : body.atStart.plan.consumes = true) (spells : body.Spells taken)
    (rest : List Char) : ¬ described.PassesOver source.flags (taken ++ rest) := by
  intro passes
  obtain ⟨found, find?_found, some_bytes⟩ := Regex.exists_find?_of_spells plain takes spells rest
  exact some_bytes ((RuleSource.passesOver_iff compiled).mp passes found find?_found)

/-- Rules pass over the texts that begin with another character than what they match, and over no others if each
of them matches whatever begins with such a character. -/
theorem forall_passesOver_iff_of_starts {entries : List (RuleSource × CharTest)} (known : entries ⊆ starts)
    (exact : ∀ entry ∈ entries, entry.2.passes c = true → ¬ entry.1.PassesOver source.flags (c :: rest)) :
    (∀ described ∈ entries.map Prod.fst, described.PassesOver source.flags (c :: rest)) ↔
      ∀ entry ∈ entries, entry.2.passes c = false := by
  constructor
  · intro passes entry listed
    exact Bool.eq_false_iff.mpr fun first => exact entry listed first (passes _ (List.mem_map_of_mem listed))
  · exact fun others => passesOver_of_starts known others rest

/-- White space is covered. -/
theorem not_passesOver_whiteSpace (blank : Text.isBlank c = true) :
    ¬ whiteSpace.PassesOver source.flags (c :: rest) := by
  have inside : blanks.contains c = true := blank
  have spells : blankNode.Spells [c] :=
    Node.spells_run.mpr ⟨Nat.le_refl 1, List.forall_mem_singleton.mpr inside⟩
  exact not_passesOver_of_spells compile?_whiteSpace rfl rfl spells rest

/-- A letter is a name. -/
theorem spells_nameNode_letter (begins : beginsWord c = true) : nameNode.Spells [c] :=
  spells_nameNode.mpr ⟨c, [], begins, List.forall_mem_nil _, rfl⟩

/-- The state that names a class covers white space and letters. -/
theorem passesOver_classRules_iff : (∀ described ∈ classRules, described.PassesOver source.flags (c :: rest)) ↔
    Text.isBlank c = false ∧ beginsWord c = false := by
  have rules : classRules = classStarts.map Prod.fst := rfl
  rw [rules, forall_passesOver_iff_of_starts classStarts_subset]
  · exact List.forall_mem_cons.trans (and_congr_right' List.forall_mem_singleton)
  · refine List.forall_mem_cons.mpr ⟨not_passesOver_whiteSpace, List.forall_mem_singleton.mpr fun begins => ?_⟩
    exact not_passesOver_of_spells compile?_className rfl rfl (spells_nameNode_letter begins) rest

/-- The state that names what is imported covers white space, the characters of words, and dots. -/
theorem passesOver_importRules_iff : (∀ described ∈ importRules, described.PassesOver source.flags (c :: rest)) ↔
    Text.isBlank c = false ∧ inWord c = false ∧ c ≠ '.' := by
  have rules : importRules = importStarts.map Prod.fst := rfl
  rw [rules, forall_passesOver_iff_of_starts importStarts_subset]
  · have part : pathStarts.passes c = false ↔ inWord c = false ∧ c ≠ '.' := by
      show (inWord c || c == '.') = false ↔ _
      simp
    exact List.forall_mem_cons.trans (and_congr_right' (List.forall_mem_singleton.trans part))
  · refine List.forall_mem_cons.mpr ⟨not_passesOver_whiteSpace, List.forall_mem_singleton.mpr fun part => ?_⟩
    have spells : importNode.Spells [c] :=
      ⟨[c], [], rfl,
        Node.spells_run.mpr ⟨Nat.le_refl 1, List.forall_mem_singleton.mpr (contains_importParts.trans part)⟩,
        Node.spells_optional.mpr (.inl rfl)⟩
    exact not_passesOver_of_spells compile?_importPath rfl rfl spells rest

/-! ### What the root state covers -/

/-- Nothing that a rule of the root state is for begins with the character, before the rest of the text. -/
structure Uncovered (c : Char) (rest : List Char) : Prop where
  no_blank : Text.isBlank c = false
  no_word : inWord c = false
  no_punctuation : isPunctuation c = false
  no_operator : isOperator c = false
  no_name : c = '@' ∨ c = '$' → rest.head?.any beginsWord = false
  no_string : c = '"' → closingQuote? false rest = none
  no_character : c = '\'' → ∀ body more, CharacterBody body → rest ≠ body ++ '\'' :: more

theorem spells_dollarNode :
    dollarNode.Spells taken ↔ nameNode.Spells taken ∨ ∃ name, nameNode.Spells name ∧ taken = '$' :: name := by
  constructor
  · rintro ⟨sigil, name, rfl, optional, spells⟩
    rcases Node.spells_optional.mp optional with rfl | rfl
    · exact .inl spells
    · exact .inr ⟨name, spells, rfl⟩
  · rintro (spells | ⟨name, spells, rfl⟩)
    · exact ⟨[], taken, rfl, Node.spells_optional.mpr (.inl rfl), spells⟩
    · exact ⟨['$'], name, rfl, Node.spells_optional.mpr (.inr rfl), spells⟩

/-- A name begins with a letter. -/
theorem begins_of_spells (spells : nameNode.Spells taken) (rest : List Char) :
    (taken ++ rest).head?.any beginsWord = true := by
  obtain ⟨first, more, begins, _, rfl⟩ := spells_nameNode.mp spells
  exact begins

/-- The rule for decorators matches nothing where no letter follows the sigil. -/
theorem passesOver_decorator (no_name : rest.head?.any beginsWord = false) :
    decorator.PassesOver source.flags ('@' :: rest) := by
  refine RuleSource.passesOver_of_none compile?_decorator (Regex.find?_atStart_of_none rfl ?_)
  rintro _ left split ⟨_, name, rfl, rfl, spells⟩
  rw [(List.cons.inj split).2] at no_name
  exact ne_true_of_eq_false no_name (begins_of_spells spells left)

/-- The rule for names matches nothing where no letter follows the sigil. -/
theorem passesOver_name (no_name : rest.head?.any beginsWord = false) :
    name.PassesOver source.flags ('$' :: rest) := by
  refine RuleSource.passesOver_of_none compile?_name (Regex.find?_atStart_of_none rfl fun taken left split spells => ?_)
  rcases spells_dollarNode.mp spells with plain | ⟨name, plain, rfl⟩
  · have begins := begins_of_spells plain left
    rw [← split] at begins
    cases begins
  · rw [(List.cons.inj split).2] at no_name
    exact ne_true_of_eq_false no_name (begins_of_spells plain left)

/-- All rules pass over what is not covered. -/
theorem passesOver_of_uncovered (uncovered : Uncovered c rest) :
    ∀ described ∈ rootRules, described.PassesOver source.flags (c :: rest) := by
  -- Four characters begin what one rule is for, so that rule has to look further; no other does.
  by_cases at_sign : c = '@'
  · subst at_sign
    have order : rootStarts = rootStarts.take 4 ++ (decorator, only '@') :: rootStarts.drop 5 := rfl
    exact passesOver_of_only order (by decide) rfl (passesOver_decorator (uncovered.no_name (.inl rfl)))
  by_cases dollar : c = '$'
  · subst dollar
    have order : rootStarts = rootStarts.take 9 ++ (name, nameStarts) :: rootStarts.drop 10 := rfl
    exact passesOver_of_only order (by decide) rfl (passesOver_name (uncovered.no_name (.inr rfl)))
  by_cases quote : c = '"'
  · subst quote
    exact passesOver_string (uncovered.no_string rfl)
  by_cases apostrophe : c = '\''
  · subst apostrophe
    exact passesOver_character (uncovered.no_character rfl)
  obtain ⟨blank, word, mark, operates, _, _, _⟩ := uncovered
  obtain ⟨letter, digit⟩ : beginsWord c = false ∧ digits.contains c = false := by
    simpa [inWord_iff_begins] using ne_true_of_eq_false word
  have no_operator {d : Char} (operator : isOperator d = true) : (c == d) = false := by
    refine beq_false_of_ne ?_
    rintro rfl
    exact ne_true_of_eq_false operates operator
  have head : (Text.isBlank c || beginsWord c) = false := by rw [blank, letter, Bool.or_false]
  have no_name : (beginsWord c || c == '$') = false := by rw [letter, beq_false_of_ne dollar, Bool.or_false]
  refine forall_rootRules_iff.mpr ⟨passesOver_vocabularyRules word, ?_⟩
  refine passesOver_of_rootStarts (List.Subset.refl _) ?_ rest
  simp only [rootStarts, List.forall_mem_cons]
  exact ⟨head, blank, no_operator rfl, no_operator rfl, beq_false_of_ne at_sign, beq_false_of_ne quote,
    beq_false_of_ne apostrophe, no_operator rfl, letter, no_name, mark, operates, digit, digit, digit,
    List.forall_mem_nil _⟩

/-- What all rules pass over is not covered: each kind of text that is has a rule that matches it. -/
theorem uncovered_of_passesOver
    (passes : ∀ described ∈ rootRules, described.PassesOver source.flags (c :: rest)) : Uncovered c rest := by
  -- Each field is the kind of text of one rule, which would not pass it over.
  have covers {index : Nat} {described : RuleSource} {body : Node} {taken : List Char} (left : List Char)
      (listed : rootRules[index]? = some described)
      (compiled : Regex.compile? source.flags described.pattern = some (.ofNode body.atStart))
      (form : (body.plain && body.atStart.plan.consumes) = true) (spells : body.Spells taken)
      (split : c :: rest = taken ++ left) : False := by
    obtain ⟨plain, takes⟩ := (Bool.and_eq_true _ _).mp form
    have passed := passes described (List.mem_of_getElem? listed)
    exact not_passesOver_of_spells compiled plain takes spells left (split ▸ passed)
  have named : rootRules[16]? = some name := rfl
  refine ⟨?blank, ?word, ?mark, ?operator, ?name, ?string, ?character⟩
  case blank =>
    refine Bool.eq_false_iff.mpr fun blank => not_passesOver_whiteSpace blank (passes whiteSpace ?_)
    exact List.mem_of_getElem? (show rootRules[1]? = some whiteSpace from rfl)
  case word =>
    refine Bool.eq_false_iff.mpr fun inside => ?_
    rcases inWord_iff_begins.mp inside with begins | digit
    · have spells := spells_dollarNode.mpr (.inl (spells_nameNode_letter begins))
      exact covers rest named compile?_name rfl spells rfl
    · have listed : rootRules[21]? = some integer := rfl
      have spells : integerNode.Spells [c] :=
        ⟨[c], [], rfl, Node.spells_run.mpr ⟨Nat.le_refl 1, List.forall_mem_singleton.mpr digit⟩,
          Node.spells_optional.mpr (.inl rfl)⟩
      exact covers rest listed compile?_integer rfl spells rfl
  case mark =>
    refine Bool.eq_false_iff.mpr fun mark => ?_
    have listed : rootRules[17]? = some punctuation := rfl
    exact covers rest listed compile?_punctuation rfl ⟨c, contains_punctuationMarks.trans mark, rfl⟩ rfl
  case operator =>
    refine Bool.eq_false_iff.mpr fun operates => ?_
    have listed : rootRules[18]? = some operator := rfl
    exact covers rest listed compile?_operator rfl ⟨c, contains_operators.trans operates, rfl⟩ rfl
  case name =>
    intro sigil
    refine Bool.eq_false_iff.mpr fun begins => ?_
    cases rest with
    | nil => cases begins
    | cons d more =>
      have letter := spells_nameNode_letter begins
      rcases sigil with rfl | rfl
      · have listed : rootRules[4]? = some decorator := rfl
        exact covers more listed compile?_decorator rfl ⟨['@'], [d], rfl, rfl, letter⟩ rfl
      · exact covers more named compile?_name rfl (spells_dollarNode.mpr (.inr ⟨[d], letter, rfl⟩)) rfl
  case string =>
    rintro rfl
    refine Option.eq_none_iff_forall_ne_some.mpr fun ⟨front, back⟩ closes => ?_
    obtain ⟨pieces, each, same, rfl⟩ := exists_pieces_of_closingQuote? closes
    have listed : rootRules[12]? = some stringLiteral := rfl
    have same : front = pieces.flatten := same
    have spells : stringNode.Spells ('"' :: (front ++ ['"'])) := spells_stringNode.mpr ⟨pieces, each, by rw [same]⟩
    exact covers back listed compile?_stringLiteral rfl spells (by simp)
  case character =>
    rintro rfl body more inside rfl
    have listed : rootRules[13]? = some characterLiteral := rfl
    have spells := spells_characterNode.mpr ⟨body, inside, rfl⟩
    exact covers more listed compile?_characterLiteral rfl spells (by simp)

end Covered

/-! ### Where the scan stalls -/

section Stalls

variable {σ : Type} {table : Table}

/-- **Where the scan stalls**, in each of the three states: where no rule of the state matches more than the
empty text. -/
theorem stalls_exactly_where_uncovered (engine : Engine σ) (built : Java.table = .ok table) (c : Char)
    (rest : List Char) :
    ((∀ rule ∈ (table.state table.root).rules, rule.regex.PassesOver (c :: rest)) ↔ Uncovered c rest) ∧
    (∃ id, table.stateId? classState = some id ∧
      ((∀ rule ∈ (table.state id).rules, rule.regex.PassesOver (c :: rest)) ↔
        Text.isBlank c = false ∧ beginsWord c = false)) ∧
    (∃ id, table.stateId? importState = some id ∧
      ((∀ rule ∈ (table.state id).rules, rule.regex.PassesOver (c :: rest)) ↔
        Text.isBlank c = false ∧ inWord c = false ∧ c ≠ '.')) ∧
    ∀ (lexer : Lexer) (run : Run σ), lexer.table = table → run.scan.ahead = some (c :: rest) →
      (lexer.Stalls engine run (c :: rest) ↔
        ∀ rule ∈ (table.state run.scan.stack.top).rules, rule.regex.PassesOver (c :: rest)) := by
  have class_called : table.stateId? classState = some ⟨1⟩ := by
    rw [stateId?_of_build built]
    decide
  have import_called : table.stateId? importState = some ⟨2⟩ := by
    rw [stateId?_of_build built]
    decide
  refine ⟨?in_root, ⟨_, class_called, ?in_class⟩, ⟨_, import_called, ?in_import⟩, ?stalls⟩
  case in_root =>
    rw [forall_passesOver_iff (describes_root built)]
    exact ⟨uncovered_of_passesOver, passesOver_of_uncovered⟩
  case in_class => rw [forall_passesOver_iff (describes_class built class_called), passesOver_classRules_iff]
  case in_import => rw [forall_passesOver_iff (describes_import built import_called), passesOver_importRules_iff]
  case stalls =>
    rintro lexer run rfl ahead
    exact stalls_iff ahead

/-- No rule covers the sign for numbers. -/
theorem stalls_exactly_where_uncovered_of_number_sign :
    ∃ built, Java.table = .ok built ∧
      let engine : Engine Collector := .collecting { languages := [language] } {}
      let lexer : Lexer := { table := built }
      let run : Run Collector := ⟨.start built "#1".toList, { sink := {} }⟩
      run.scan.stack.top = built.root ∧ run.scan.ahead = some "#1".toList ∧
      lexer.Stalls engine run "#1".toList := by
  obtain ⟨built, outcome, _⟩ := exists_table
  refine ⟨built, outcome, rfl, rfl, ?_⟩
  obtain ⟨in_root, _, _, stalls⟩ := stalls_exactly_where_uncovered (.collecting { languages := [language] } {})
    outcome '#' ['1']
  have uncovered : Uncovered '#' ['1'] :=
    { no_blank := by decide
      no_word := by decide
      no_punctuation := by decide
      no_operator := by decide
      no_name := by decide
      no_string := by decide
      no_character := fun same => absurd same (by decide) }
  exact (stalls { table := built } ⟨.start built "#1".toList, { sink := {} }⟩ rfl rfl).mpr (in_root.mpr uncovered)

end Stalls

end TableLexer.Java
