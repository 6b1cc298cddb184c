/-
**Where comments and literals end.**

A comment and a literal begin with a mark, and each rule for them ends where a scan of the text from the mark on
says: a comment at the end of the line, or at the first `*/`; a string at the first quote that is not escaped; a
character at the quote behind it. A comment that is not closed is a slash, and a literal that is not closed is
nothing.

* `closingMark?`, `closingQuote?`, `CharacterBody`: where a comment and a literal end.
* `find?_lineComment`, `find?_blockComment`, `find?_stringLiteral`, `find?_characterLiteral`: what the rules match.
* `passesOver_of_only`: all rules pass over what only one of them could begin with, if that rule does.
* `literals_have_exact_extents`: the tokens that are made of comments and literals.
-/

import TableLexer.Proofs.Java.Words

namespace TableLexer.Java

open Pattern (CharTest Node Place Plan Regex)

/-! ### Where a comment ends -/

/-- The text before the first `*/`, and the text behind it. -/
def closingMark? : List Char → Option (List Char × List Char)
  | [] => none
  | c :: rest =>
    if ['*', '/'].isPrefixOf (c :: rest) then some ([], rest.tail)
    else (closingMark? rest).map fun (front, back) => (c :: front, back)

section Comments

variable {text front back : List Char}

/-- What is found stands first. -/
theorem first_of_closingMark? (found : closingMark? text = some (front, back)) :
    text = front ++ '*' :: '/' :: back ∧
      ∀ less more, front = less ++ more → more ≠ [] → ¬ ['*', '/'] <+: more ++ '*' :: '/' :: back := by
  induction text generalizing front with
  | nil => cases found
  | cons c rest ih =>
    rw [closingMark?] at found
    split at found
    · rename_i here
      obtain ⟨others, split⟩ := List.isPrefixOf_iff_prefix.mp here
      cases split
      cases found
      refine ⟨rfl, fun less more nothing some_more => ?_⟩
      exact absurd (List.append_eq_nil_iff.mp nothing.symm).2 some_more
    · rename_i not_here
      obtain ⟨⟨inner, behind⟩, found, same⟩ := Option.map_eq_some_iff.mp found
      cases same
      obtain ⟨rfl, first⟩ := ih found
      refine ⟨rfl, fun less more split some_more => ?_⟩
      rcases List.cons_eq_append_iff.mp split with ⟨rfl, rfl⟩ | ⟨less, rfl, split⟩
      · exact fun here => not_here (List.isPrefixOf_iff_prefix.mpr here)
      · exact first less more (List.cons.inj split).2 some_more

/-- Nothing is found where there is no mark. -/
theorem closingMark?_eq_none_iff : closingMark? text = none ↔ ¬ ['*', '/'] <:+: text := by
  induction text with
  | nil => simp [closingMark?]
  | cons c rest ih =>
    rw [closingMark?, List.infix_cons_iff, not_or, ← List.isPrefixOf_iff_prefix]
    split
    · rename_i here
      simp [here]
    · rename_i not_here
      rw [Option.map_eq_none_iff, ih]
      exact ⟨fun missing => ⟨not_here, missing⟩, And.right⟩

end Comments

/-! ### Where a literal ends -/

/-- The text of a string before the quote that closes it, and the text behind the quote. A backslash escapes the
character behind it, which may not be a newline; `escaped` says that the character before the text is such a
backslash. -/
def closingQuote? (escaped : Bool) : List Char → Option (List Char × List Char)
  | [] => none
  | c :: rest =>
    if escaped && c == '\n' then none
    else if !escaped && c == '"' then some ([], rest)
    else (closingQuote? (!escaped && c == '\\') rest).map fun (front, back) => (c :: front, back)

/-- What a string is made of. -/
inductive StringPiece : List Char → Prop
  | escape {c : Char} (same_line : c ≠ '\n') : StringPiece ['\\', c]
  | plain {c : Char} (no_quote : c ≠ '"') (no_escape : c ≠ '\\') : StringPiece [c]

/-- What stands between the quotes of a character. -/
inductive CharacterBody : List Char → Prop
  | plain {c : Char} (no_quote : c ≠ '\'') (no_escape : c ≠ '\\') : CharacterBody [c]
  | escape {c : Char} (same_line : c ≠ '\n') : CharacterBody ['\\', c]
  | code {digits : List Char} (four : digits.length = 4) (hexadecimal : ∀ c ∈ digits, isHexDigit c = true) :
      CharacterBody ('\\' :: 'u' :: digits)

section Quotes

variable {text front back rest left : List Char}

/-- The quote behind pieces of a string closes it. -/
theorem closingQuote?_flatten {pieces : List (List Char)} (each : ∀ piece ∈ pieces, StringPiece piece)
    (rest : List Char) : closingQuote? false (pieces.flatten ++ '"' :: rest) = some (pieces.flatten, rest) := by
  induction pieces with
  | nil => rfl
  | cons piece others ih =>
    obtain ⟨one, later⟩ := List.forall_mem_cons.mp each
    cases one with
    | escape same_line => simp [closingQuote?, same_line, ih later]
    | plain no_quote no_escape => simp [closingQuote?, no_quote, beq_false_of_ne no_escape, ih later]

/-- Before the quote that closes a string stand pieces of it. -/
theorem exists_pieces_of_closingQuote? {escaped : Bool} (found : closingQuote? escaped text = some (front, back)) :
    ∃ pieces : List (List Char), (∀ piece ∈ pieces, StringPiece piece) ∧
      (if escaped then '\\' :: front else front) = pieces.flatten ∧ text = front ++ '"' :: back := by
  -- Behind a backslash, the pieces are those of the text with the backslash in front of it.
  induction text generalizing escaped front with
  | nil => cases found
  | cons c rest ih =>
    rw [closingQuote?] at found
    split at found
    · cases found
    rename_i goes_on
    split at found
    · rename_i closes
      obtain ⟨unescaped, rfl⟩ : escaped = false ∧ c = '"' := by simpa using closes
      cases found
      exact ⟨[], by simp, by simp [unescaped], rfl⟩
    rename_i open_still
    obtain ⟨⟨inner, behind⟩, found, same⟩ := Option.map_eq_some_iff.mp found
    cases same
    obtain ⟨pieces, each, whole, rfl⟩ := ih found
    cases escaped with
    | true =>
      have same_line : c ≠ '\n' := by simpa using goes_on
      exact ⟨['\\', c] :: pieces, List.forall_mem_cons.mpr ⟨.escape same_line, each⟩, by simpa using whole, rfl⟩
    | false =>
      have no_quote : c ≠ '"' := by simpa using open_still
      by_cases escape : c = '\\'
      · exact ⟨pieces, each, by simpa [escape] using whole, rfl⟩
      · refine ⟨[c] :: pieces, List.forall_mem_cons.mpr ⟨.plain no_quote escape, each⟩, ?_, rfl⟩
        simpa [escape] using whole

/-- No quote is a hexadecimal digit. -/
theorem ne_quote_of_digits {digits : List Char} (four : digits.length = 4)
    (hexadecimal : ∀ c ∈ digits, isHexDigit c = true) : '\'' :: left ≠ digits ++ rest := by
  intro same
  cases digits with
  | nil => cases four
  | cons c others =>
    cases same
    exact absurd (hexadecimal '\'' List.mem_cons_self) (by decide)

/-- A text begins in one way with a character and its closing quote. -/
theorem CharacterBody.unique {body other : List Char} (one : CharacterBody body) (two : CharacterBody other)
    (same : body ++ '\'' :: rest = other ++ '\'' :: left) : body = other := by
  cases one with
  | plain no_quote no_escape =>
    cases two with
    | plain => rw [(List.cons.inj same).1]
    | escape | code => exact absurd (List.cons.inj same).1 no_escape
  | escape =>
    cases two with
    | plain _ no_escape => exact absurd (List.cons.inj same).1.symm no_escape
    | escape => rw [(List.cons.inj (List.cons.inj same).2).1]
    | code four hexadecimal =>
      exact absurd (List.cons.inj (List.cons.inj same).2).2 (ne_quote_of_digits four hexadecimal)
  | code four hexadecimal =>
    cases two with
    | plain _ no_escape => exact absurd (List.cons.inj same).1.symm no_escape
    | escape =>
      exact absurd (List.cons.inj (List.cons.inj same).2).2.symm (ne_quote_of_digits four hexadecimal)
    | code four_too =>
      rw [List.append_inj_left (List.cons.inj (List.cons.inj same).2).2 (four.trans four_too.symm)]

end Quotes

/-! ### What the rules for comments match -/

section Matches

variable {c : Char} {text tail taken front back body rest : List Char}

/-- The rule for operators matches one of them. -/
theorem find?_operator (listed : operators.contains c = true) :
    (Regex.ofNode (Node.one operators).atStart).find? (c :: rest) = some (.ofFirst [c]) := by
  refine (Regex.find?_atStart_iff rfl ?_).mpr ⟨[c], rest, rfl, ⟨c, listed, rfl⟩, rfl⟩
  rintro _ _ _ _ split same ⟨first, _, rfl⟩ ⟨other, _, rfl⟩
  rw [(List.cons.inj (split.symm.trans same)).1]

/-- The rule for comments up to the end of the line matches all of it. -/
theorem find?_lineComment (tail : List Char) :
    (Regex.ofNode lineNode.atStart).find? ('/' :: '/' :: tail) =
      some (.ofFirst ('/' :: '/' :: tail.takeWhile (· != '\n'))) := by
  have whole : tail.takeWhile (· != '\n') ++ tail.dropWhile (· != '\n') = tail := List.takeWhile_append_dropWhile
  have inside : ∀ c ∈ tail.takeWhile (· != '\n'), noNewline.contains c = true := fun c member =>
    contains_noNewline.mpr (bne_iff_ne.mp (List.all_eq_true.mp List.all_takeWhile c member))
  have outside := List.head?_dropWhile_not (· != '\n') tail
  generalize tail.takeWhile (· != '\n') = front at whole inside ⊢
  generalize tail.dropWhile (· != '\n') = back at whole outside
  subst whole
  have form : lineNode.atStart.plan =
      .seq (.look .textStart) (.seq (.literal ['/', '/']) (.seq (.many 1 false noNewline) (.look .lineEnd))) := rfl
  have parts : '/' :: '/' :: (front ++ back) = ['/', '/'] ++ (front ++ ([] ++ back)) := rfl
  have found := Regex.find?_lazily (by decide) form parts inside (fun less more split some_more => ?_) ?_
  · rwa [List.append_nil] at found
  · obtain ⟨d, others, rfl⟩ := List.exists_cons_of_ne_nil some_more
    have other : d ≠ '\n' := contains_noNewline.mp (inside d (by simp [split]))
    have not_here : (d == '\n') = false := beq_false_of_ne other
    exact if_neg (ne_true_of_eq_false not_here)
  · rw [List.append_nil]
    refine if_pos ?_
    cases back with
    | nil => rfl
    | cons d others =>
      have newline : (d != '\n') = false := outside
      have here : (d == '\n') = true := by simpa using newline
      exact here

/-- The rule for comments up to the end of the line matches nothing where a star follows the slash. -/
theorem find?_lineComment_of_star (tail : List Char) :
    (Regex.ofNode lineNode.atStart).find? ('/' :: '*' :: tail) = none := by
  rw [Regex.find?_eq_run (by decide)]
  rfl

/-- The rule for comments between marks matches up to the first mark that closes. -/
theorem find?_blockComment (closes : closingMark? tail = some (front, back)) :
    (Regex.ofNode blockNode.atStart).find? ('/' :: '*' :: tail) =
      some (.ofFirst ('/' :: '*' :: (front ++ ['*', '/']))) := by
  obtain ⟨rfl, first⟩ := first_of_closingMark? closes
  have form : blockNode.atStart.plan =
      .seq (.look .textStart)
        (.seq (.literal ['/', '*']) (.seq (.many 1 false anyChar) (.literal ['*', '/']))) := rfl
  have parts : '/' :: '*' :: (front ++ '*' :: '/' :: back) =
      ['/', '*'] ++ (front ++ (['*', '/'] ++ back)) := rfl
  refine Regex.find?_lazily (by decide) form parts (fun _ _ => contains_anyChar)
    (fun less more split some_more => ?_) ?_
  · rw [Plan.run, Option.bind_fun_some, Option.eq_none_iff_forall_ne_some]
    intro ended found
    obtain ⟨left, ahead, _⟩ := Place.after?_eq_some_iff.mp found
    exact first less more split some_more ⟨left, ahead.symm⟩
  · rw [Plan.run, Option.bind_fun_some]
    refine Place.after?_eq_some_iff.mpr ⟨back, rfl, ?_⟩
    rw [Place.past_past, List.append_assoc]

/-- The rule for comments between marks matches nothing that is not closed. -/
theorem find?_blockComment_of_none (opens : closingMark? tail = none) :
    (Regex.ofNode blockNode.atStart).find? ('/' :: '*' :: tail) = none := by
  refine Regex.find?_atStart_of_none rfl fun taken rest split spells => ?_
  obtain ⟨_, _, rfl, rfl, inner, _, rfl, _, rfl⟩ := spells
  refine closingMark?_eq_none_iff.mp opens ⟨inner, rest, ?_⟩
  simpa using split.symm

/-! ### What the rules for literals match -/

/-- The pattern of a string goes round over pieces of it. -/
theorem spells_stringPiece :
    (Node.alt (.seq (.literal ['\\']) (.one noNewline)) (.one inString)).Spells taken ↔ StringPiece taken := by
  constructor
  · rintro (⟨_, _, rfl, rfl, c, same_line, rfl⟩ | ⟨c, plain, rfl⟩)
    · exact .escape (contains_noNewline.mp same_line)
    · obtain ⟨no_quote, no_escape⟩ := contains_inString.mp plain
      exact .plain no_quote no_escape
  · intro piece
    cases piece with
    | escape same_line => exact .inl ⟨['\\'], _, rfl, rfl, _, contains_noNewline.mpr same_line, rfl⟩
    | plain no_quote no_escape => exact .inr ⟨_, contains_inString.mpr ⟨no_quote, no_escape⟩, rfl⟩

theorem spells_stringNode : stringNode.Spells taken ↔ ∃ pieces : List (List Char),
    (∀ piece ∈ pieces, StringPiece piece) ∧ taken = '"' :: (pieces.flatten ++ ['"']) := by
  constructor
  · rintro ⟨_, _, rfl, rfl, _, _, rfl, ⟨pieces, rfl, _, each⟩, rfl⟩
    exact ⟨pieces, fun piece member => spells_stringPiece.mp (each piece member), rfl⟩
  · rintro ⟨pieces, each, rfl⟩
    refine ⟨['"'], _, rfl, rfl, pieces.flatten, ['"'], rfl, ⟨pieces, rfl, ⟨pieces.length, ?_, by omega⟩, ?_⟩, rfl⟩
    · exact fun _ bounded => nomatch bounded
    · exact fun piece member => spells_stringPiece.mpr (each piece member)

/-- The rule for strings takes a string up to the quote that closes it. -/
theorem closingQuote?_of_spells (spells : stringNode.Spells taken) (split : '"' :: tail = taken ++ rest) :
    ∃ front, taken = '"' :: (front ++ ['"']) ∧ closingQuote? false tail = some (front, rest) := by
  obtain ⟨pieces, each, rfl⟩ := spells_stringNode.mp spells
  refine ⟨pieces.flatten, rfl, ?_⟩
  have behind : tail = pieces.flatten ++ '"' :: rest := by simpa using split
  rw [behind, closingQuote?_flatten each]

/-- The rule for strings matches up to the quote that closes the string. -/
theorem find?_stringLiteral (closes : closingQuote? false tail = some (front, back)) :
    (Regex.ofNode stringNode.atStart).find? ('"' :: tail) = some (.ofFirst ('"' :: (front ++ ['"']))) := by
  obtain ⟨pieces, each, same, whole⟩ := exists_pieces_of_closingQuote? closes
  have same : front = pieces.flatten := same
  refine (Regex.find?_atStart_iff rfl fun taken rest other left split also spells spells_too => ?_).mpr
    ⟨_, back, ?_, spells_stringNode.mpr ⟨pieces, each, rfl⟩, by rw [same]⟩
  · obtain ⟨one, rfl, closes_one⟩ := closingQuote?_of_spells spells split
    obtain ⟨two, rfl, closes_two⟩ := closingQuote?_of_spells spells_too also
    cases closes_one.symm.trans closes_two
    rfl
  · rw [whole, same]
    simp

/-- The rule for strings matches nothing that is not closed. -/
theorem find?_stringLiteral_of_none (opens : closingQuote? false tail = none) :
    (Regex.ofNode stringNode.atStart).find? ('"' :: tail) = none := by
  refine Regex.find?_atStart_of_none rfl fun taken rest split spells => ?_
  obtain ⟨front, _, closes⟩ := closingQuote?_of_spells spells split
  exact nomatch opens.symm.trans closes

/-- Four digits are four characters of the set, one after another. -/
theorem spells_digits : (Node.repeated 4 (some 4) true (.one hexDigits)).Spells taken ↔
    taken.length = 4 ∧ ∀ c ∈ taken, isHexDigit c = true := by
  simp only [Node.spells_repeated_one, contains_hexDigits]
  refine and_congr_left' ⟨?_, fun four => ⟨0, by simp, four⟩⟩
  rintro ⟨more, few, as_many⟩
  have none_more := few 4 rfl
  omega

theorem spells_characterNode : characterNode.Spells taken ↔
    ∃ body, CharacterBody body ∧ taken = '\'' :: (body ++ ['\'']) := by
  constructor
  · rintro ⟨_, _, rfl, rfl, body, _, rfl, inside, rfl⟩
    refine ⟨body, ?_, rfl⟩
    obtain ⟨_, digits, rfl, rfl, spells⟩ | ⟨_, _, rfl, rfl, c, same_line, rfl⟩ | ⟨c, plain, rfl⟩ := inside
    · obtain ⟨four, hexadecimal⟩ := spells_digits.mp spells
      exact .code four hexadecimal
    · exact .escape (contains_noNewline.mp same_line)
    · obtain ⟨no_quote, no_escape⟩ := contains_inCharacter.mp plain
      exact .plain no_quote no_escape
  · rintro ⟨body, inside, rfl⟩
    refine ⟨['\''], _, rfl, rfl, body, ['\''], rfl, ?_, rfl⟩
    cases inside with
    | plain no_quote no_escape => exact .inr (.inr ⟨_, contains_inCharacter.mpr ⟨no_quote, no_escape⟩, rfl⟩)
    | escape same_line => exact .inr (.inl ⟨['\\'], _, rfl, rfl, _, contains_noNewline.mpr same_line, rfl⟩)
    | code four hexadecimal =>
      exact .inl ⟨['\\', 'u'], _, rfl, rfl, spells_digits.mpr ⟨four, hexadecimal⟩⟩

/-- The rule for characters matches one with its closing quote. -/
theorem find?_characterLiteral (inside : CharacterBody body) (rest : List Char) :
    (Regex.ofNode characterNode.atStart).find? ('\'' :: (body ++ '\'' :: rest)) =
      some (.ofFirst ('\'' :: (body ++ ['\'']))) := by
  refine (Regex.find?_atStart_iff rfl fun taken rest other left split also spells spells_too => ?_).mpr
    ⟨_, rest, by simp, spells_characterNode.mpr ⟨body, inside, rfl⟩, rfl⟩
  obtain ⟨one, inside_one, rfl⟩ := spells_characterNode.mp spells
  obtain ⟨two, inside_two, rfl⟩ := spells_characterNode.mp spells_too
  have same : one ++ '\'' :: rest = two ++ '\'' :: left := by simpa using split.symm.trans also
  rw [inside_one.unique inside_two same]

/-- The rule for characters matches nothing else. -/
theorem find?_characterLiteral_of_none (opens : ∀ body rest, CharacterBody body → tail ≠ body ++ '\'' :: rest) :
    (Regex.ofNode characterNode.atStart).find? ('\'' :: tail) = none := by
  refine Regex.find?_atStart_of_none rfl fun taken rest split spells => ?_
  obtain ⟨body, inside, rfl⟩ := spells_characterNode.mp spells
  exact opens body rest inside (by simpa using split)

end Matches

/-! ### The rules that are passed over -/

section Passed

variable {c : Char} {text rest : List Char}

/-- The rules of the vocabularies pass over a text that begins with no word. -/
theorem passesOver_vocabularyRules (no_word : text.head?.any inWord = false) :
    ∀ described ∈ vocabularyRules, described.PassesOver source.flags text := by
  refine passesOver_vocabularies reads_vocabularies (fun _ listed => listed) fun entry listed member => ?_
  have nothing : text.takeWhile inWord = [] := by
    cases text with
    | nil => rfl
    | cons c rest => exact List.takeWhile_cons_of_neg (ne_true_of_eq_false no_word)
  rw [nothing] at member
  exact absurd rfl (inWord_of_reserved listed member).1

/-- Where one rule only could match what begins with the character, all rules pass it over if that one does. -/
theorem passesOver_of_only {front later : List (RuleSource × CharTest)} {one : RuleSource × CharTest}
    (order : rootStarts = front ++ one :: later) (others : ∀ entry ∈ front ++ later, entry.2.passes c = false)
    (no_word : inWord c = false) (passed : one.1.PassesOver source.flags (c :: rest)) :
    ∀ described ∈ rootRules, described.PassesOver source.flags (c :: rest) := by
  refine forall_rootRules_iff.mpr ⟨passesOver_vocabularyRules no_word, ?_⟩
  have known : front ++ later ⊆ rootStarts := by simp [order]
  obtain ⟨before, after⟩ := List.forall_mem_append.mp
    (List.map_append ▸ passesOver_of_rootStarts known others rest)
  rw [order, List.map_append, List.map_cons, List.forall_mem_append, List.forall_mem_cons]
  exact ⟨before, passed, after⟩

end Passed

/-! ### The tokens of comments and literals -/

section Token

variable {σ : Type} {engine : Engine σ} {table : Table} {lexer : Lexer} {run : Run σ} {text tail : List Char}
  {front back body rest : List Char}

/-- A comment up to the end of the line is a token. -/
theorem makes_lineComment (built : Java.table = .ok table) (there : InRoot table lexer run ('/' :: '/' :: tail)) :
    lexer.MakesToken engine run .commentSingle ('/' :: '/' :: tail.takeWhile (· != '\n'))
      (tail.dropWhile (· != '\n')) [] := by
  have whole : ('/' :: '/' :: tail.takeWhile (· != '\n')) ++ tail.dropWhile (· != '\n') = '/' :: '/' :: tail := by
    simp
  have order : rootRules = [signature, whiteSpace] ++ lineComment :: rootRules.drop 3 := rfl
  have passes : ∀ other ∈ [signature, whiteSpace], other.PassesOver source.flags ('/' :: '/' :: tail) :=
    passesOver_of_rootStarts (List.take_subset 2 _) (by decide) _
  have found := find?_lineComment tail
  exact InRoot.makesPlainToken built (by rwa [whole]) order (by rwa [whole]) compile?_lineComment
    (List.cons_ne_nil _ _) (by rwa [whole]) rfl

theorem passesOver_lineComment (tail : List Char) : lineComment.PassesOver source.flags ('/' :: '*' :: tail) :=
  RuleSource.passesOver_of_none compile?_lineComment (find?_lineComment_of_star tail)

/-- A comment between marks is a token. -/
theorem makes_blockComment (built : Java.table = .ok table) (there : InRoot table lexer run ('/' :: '*' :: tail))
    (closes : closingMark? tail = some (front, back)) :
    lexer.MakesToken engine run .commentMultiline ('/' :: '*' :: (front ++ ['*', '/'])) back [] := by
  have whole : ('/' :: '*' :: (front ++ ['*', '/'])) ++ back = '/' :: '*' :: tail := by
    simp [(first_of_closingMark? closes).1]
  have order : rootRules = ([signature, whiteSpace] ++ [lineComment]) ++ blockComment :: rootRules.drop 4 := rfl
  have passes : ∀ other ∈ [signature, whiteSpace] ++ [lineComment],
      other.PassesOver source.flags ('/' :: '*' :: tail) :=
    List.forall_mem_append.mpr ⟨passesOver_of_rootStarts (List.take_subset 2 _) (by decide) _,
      List.forall_mem_singleton.mpr (passesOver_lineComment tail)⟩
  have found := find?_blockComment closes
  exact InRoot.makesPlainToken built (by rwa [whole]) order (by rwa [whole]) compile?_blockComment
    (List.cons_ne_nil _ _) (by rwa [whole]) rfl

/-- The slash of a comment that is not closed is a token. -/
theorem makes_slash (built : Java.table = .ok table) (there : InRoot table lexer run ('/' :: '*' :: tail))
    (opens : closingMark? tail = none) : lexer.MakesToken engine run .operator ['/'] ('*' :: tail) [] := by
  have order : rootRules = ([signature, whiteSpace] ++ ([lineComment, blockComment] ++ ([decorator] ++
      (vocabularyRules ++ [stringLiteral, characterLiteral, access, label, name, punctuation])))) ++
        operator :: rootRules.drop 19 := rfl
  have no_block : blockComment.PassesOver source.flags ('/' :: '*' :: tail) :=
    RuleSource.passesOver_of_none compile?_blockComment (find?_blockComment_of_none opens)
  have passes : ∀ other ∈ [signature, whiteSpace] ++ ([lineComment, blockComment] ++ ([decorator] ++
      (vocabularyRules ++ [stringLiteral, characterLiteral, access, label, name, punctuation]))),
      other.PassesOver source.flags ('/' :: '*' :: tail) := by
    rw [List.forall_mem_append, List.forall_mem_append, List.forall_mem_append, List.forall_mem_append]
    refine ⟨?_, List.forall_mem_cons.mpr ⟨passesOver_lineComment tail, List.forall_mem_singleton.mpr no_block⟩,
      ?_, passesOver_vocabularyRules rfl, ?_⟩
    · exact passesOver_of_rootStarts (List.take_subset 2 _) (by decide) _
    · have known := List.Subset.trans (List.take_subset 1 _) (List.drop_subset 4 rootStarts)
      exact passesOver_of_rootStarts known (by decide) _
    · have known := List.Subset.trans (List.take_subset 6 _) (List.drop_subset 5 rootStarts)
      exact passesOver_of_rootStarts known (by decide) _
  have listed : operators.contains '/' = true := by decide
  exact InRoot.makesPlainToken built there order passes compile?_operator (List.cons_ne_nil _ _)
    (find?_operator listed) rfl

/-- A string that is closed is a token. -/
theorem makes_stringLiteral (built : Java.table = .ok table) (there : InRoot table lexer run ('"' :: tail))
    (closes : closingQuote? false tail = some (front, back)) :
    lexer.MakesToken engine run .literalString ('"' :: (front ++ ['"'])) back [] := by
  obtain ⟨_, _, _, split⟩ := exists_pieces_of_closingQuote? closes
  have whole : ('"' :: (front ++ ['"'])) ++ back = '"' :: tail := by simp [split]
  have order : rootRules = (signature :: openers ++ vocabularyRules) ++ stringLiteral :: rootRules.drop 13 := rfl
  have before : ∀ other ∈ signature :: openers, other.PassesOver source.flags ('"' :: tail) :=
    passesOver_of_rootStarts (List.take_subset 5 _) (by decide) _
  have passes : ∀ other ∈ signature :: openers ++ vocabularyRules, other.PassesOver source.flags ('"' :: tail) :=
    List.forall_mem_append.mpr ⟨before, passesOver_vocabularyRules rfl⟩
  have found := find?_stringLiteral closes
  exact InRoot.makesPlainToken built (by rwa [whole]) order (by rwa [whole]) compile?_stringLiteral
    (List.cons_ne_nil _ _) (by rwa [whole]) rfl

/-- All rules pass over a string that is not closed. -/
theorem passesOver_string (opens : closingQuote? false tail = none) :
    ∀ described ∈ rootRules, described.PassesOver source.flags ('"' :: tail) := by
  have order : rootStarts = rootStarts.take 5 ++ (stringLiteral, only '"') :: rootStarts.drop 6 := rfl
  refine passesOver_of_only order (by decide) rfl ?_
  exact RuleSource.passesOver_of_none compile?_stringLiteral (find?_stringLiteral_of_none opens)

/-- A character that is closed is a token. -/
theorem makes_characterLiteral (built : Java.table = .ok table)
    (there : InRoot table lexer run ('\'' :: (body ++ '\'' :: rest))) (inside : CharacterBody body) :
    lexer.MakesToken engine run .literalStringChar ('\'' :: (body ++ ['\''])) rest [] := by
  have whole : ('\'' :: (body ++ ['\''])) ++ rest = '\'' :: (body ++ '\'' :: rest) := by simp
  have order : rootRules = (signature :: openers ++ (vocabularyRules ++ [stringLiteral])) ++
      characterLiteral :: rootRules.drop 14 := rfl
  have passes : ∀ other ∈ signature :: openers ++ (vocabularyRules ++ [stringLiteral]),
      other.PassesOver source.flags ('\'' :: (body ++ '\'' :: rest)) := by
    rw [List.forall_mem_append, List.forall_mem_append]
    refine ⟨?_, passesOver_vocabularyRules rfl, ?_⟩
    · exact passesOver_of_rootStarts (List.take_subset 5 _) (by decide) _
    · have known := List.Subset.trans (List.take_subset 1 _) (List.drop_subset 5 rootStarts)
      exact passesOver_of_rootStarts known (by decide) _
  have found := find?_characterLiteral inside rest
  exact InRoot.makesPlainToken built (by rwa [whole]) order (by rwa [whole]) compile?_characterLiteral
    (List.cons_ne_nil _ _) (by rwa [whole]) rfl

/-- All rules pass over a character that is not closed. -/
theorem passesOver_character (opens : ∀ body rest, CharacterBody body → tail ≠ body ++ '\'' :: rest) :
    ∀ described ∈ rootRules, described.PassesOver source.flags ('\'' :: tail) := by
  have order : rootStarts = rootStarts.take 6 ++ (characterLiteral, only '\'') :: rootStarts.drop 7 := rfl
  refine passesOver_of_only order (by decide) rfl ?_
  exact RuleSource.passesOver_of_none compile?_characterLiteral (find?_characterLiteral_of_none opens)

/-- **Where comments and literals end**, and what becomes of those that are not closed. -/
theorem literals_have_exact_extents (engine : Engine σ) (built : Java.table = .ok table)
    (there : InRoot table lexer run text) :
    (∀ tail, text = '/' :: '/' :: tail → lexer.MakesToken engine run .commentSingle
      ('/' :: '/' :: tail.takeWhile (· != '\n')) (tail.dropWhile (· != '\n')) []) ∧
    (∀ tail, text = '/' :: '*' :: tail →
      match closingMark? tail with
      | some (front, back) =>
        lexer.MakesToken engine run .commentMultiline ('/' :: '*' :: (front ++ ['*', '/'])) back []
      | none => lexer.MakesToken engine run .operator ['/'] ('*' :: tail) []) ∧
    (∀ tail, text = '"' :: tail →
      match closingQuote? false tail with
      | some (front, back) => lexer.MakesToken engine run .literalString ('"' :: (front ++ ['"'])) back []
      | none => lexer.Stalls engine run text) ∧
    ∀ tail, text = '\'' :: tail →
      (∀ body rest, CharacterBody body → tail = body ++ '\'' :: rest →
        lexer.MakesToken engine run .literalStringChar ('\'' :: (body ++ ['\''])) rest []) ∧
      ((∀ body rest, CharacterBody body → tail ≠ body ++ '\'' :: rest) → lexer.Stalls engine run text) := by
  refine ⟨?line, ?block, ?string, ?character⟩
  case line =>
    rintro tail rfl
    exact makes_lineComment built there
  case block =>
    rintro tail rfl
    cases closes : closingMark? tail with
    | none => exact makes_slash built there closes
    | some parts => exact makes_blockComment built there closes
  case string =>
    rintro tail rfl
    cases closes : closingQuote? false tail with
    | none => exact there.stalls built (passesOver_string closes)
    | some parts => exact makes_stringLiteral built there closes
  case character =>
    rintro tail rfl
    refine ⟨?_, fun opens => there.stalls built (passesOver_character opens)⟩
    rintro body rest inside rfl
    exact makes_characterLiteral built there inside

/-- The slash behind the star that opens a comment does not close it. -/
theorem literals_have_exact_extents_of_comment :
    ∃ built, Java.table = .ok built ∧
      let engine : Engine Collector := .collecting { languages := [language] } {}
      let lexer : Lexer := { table := built }
      let run : Run Collector := ⟨.start built "/*/ */x".toList, { sink := {} }⟩
      InRoot built lexer run "/*/ */x".toList ∧
      lexer.MakesToken engine run .commentMultiline "/*/ */".toList "x".toList [] := by
  obtain ⟨built, outcome, _⟩ := exists_table
  have there : InRoot built { table := built }
      (⟨.start built "/*/ */x".toList, { sink := {} }⟩ : Run Collector) "/*/ */x".toList :=
    ⟨rfl, rfl, rfl⟩
  refine ⟨built, outcome, there, ?_⟩
  have extents := (literals_have_exact_extents (.collecting { languages := [language] } {}) outcome there).2.1
    "/ */x".toList (by decide +kernel)
  have closes : closingMark? "/ */x".toList = some ("/ ".toList, "x".toList) := by decide +kernel
  rw [closes] at extents
  exact extents

end Token

end TableLexer.Java
