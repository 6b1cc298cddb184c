/-
**What stands around the names of a Java text.**

Attributes stand behind a dot; the name of a method stands behind white space and before a parenthesis; and
the name of a class, or of what is imported, stands behind its keyword, with white space between, and with
characters that were skipped under the lenient policy.

A keyword enters a state that is left with the name, so what was read in that state tells what stands between
the two (`Stands`). The tokens of a nested run stand in one piece before the name of a method, and end in white
space as the text that was handed on does; whether the nested run ends in a state that it entered matters to
nobody, because its stack ends with it.

* `NamesInContext`: what stands around the names.
* `goes_of_takes`, `goes_of_skip`: what one piece of a text adds.
* `java_names_stand_in_context`: the names of every run that succeeds stand where they may.
-/

import TableLexer.Proofs.Java.Table
import TableLexer.Proofs.Scan.Watched
import TableLexer.Tokenize

namespace TableLexer

open Step

/-- The token is white space. -/
structure Token.IsBlank (token : Token) : Prop where
  kind : token.kind = .text
  some_text : token.text ≠ ""
  blanks : ∀ c ∈ token.text.toList, Text.isBlank c = true

theorem Token.isBlank_ofList {piece : List Char} (some_piece : piece ≠ [])
    (blanks : ∀ c ∈ piece, Text.isBlank c = true) : IsBlank ⟨.text, String.ofList piece⟩ where
  kind := rfl
  some_text := by simpa using some_piece
  blanks := by simpa using blanks

namespace Java

/-! ### Names in their context -/

/-- The tokens that introduce the name. -/
def Introduction.keywords (entry : Introduction) : List Token :=
  entry.words.map fun word => ⟨entry.keyword, word⟩

/-- The tokens may stand between a keyword and the name that it introduces: white space, under the strict policy
one token of it at most, and under the lenient one with characters that were skipped. -/
def Between (policy : StallPolicy) (least : Nat) (between : List Token) : Prop :=
  least ≤ between.length ∧
    match policy with
    | .strict => between.length ≤ 1 ∧ ∀ token ∈ between, token.IsBlank
    | .lenient => ∀ token ∈ between, token.IsBlank ∨ token.kind = .error

/-- What stands before and after the token is what its kind asks for. -/
structure InContext (policy : StallPolicy) (before : List Token) (token : Token) (after : List Token) :
    Prop where
  ofAttribute : token.kind = .nameAttribute → ∃ front, before = front ++ [⟨.operator, "."⟩]
  ofFunction : token.kind = .nameFunction →
    (∃ front blank, before = front ++ [blank] ∧ blank.IsBlank) ∧
      ∃ blanks behind, after = blanks ++ ⟨.punctuation, "("⟩ :: behind ∧ blanks.length ≤ 1 ∧
        ∀ blank ∈ blanks, blank.IsBlank
  introduced : ∀ entry ∈ introductions, token.kind = entry.name →
    ∃ front between, ∃ keyword ∈ entry.keywords, before = front ++ keyword :: between ∧
      Between policy entry.least between

/-- Behind the given tokens, names stand in their context. -/
def NamesFrom (policy : StallPolicy) (before tokens : List Token) : Prop :=
  ∀ front token after, tokens = front ++ token :: after → InContext policy (before ++ front) token after

/-- All names stand in their context. -/
def NamesInContext (policy : StallPolicy) (tokens : List Token) : Prop :=
  ∀ before token after, tokens = before ++ token :: after → InContext policy before token after

section Context

variable {policy : StallPolicy} {before after one other : List Token} {token : Token}

/-- A context may be wider. -/
theorem InContext.widen (context : InContext policy before token after) (front behind : List Token) :
    InContext policy (front ++ before) token (after ++ behind) where
  ofAttribute kind := by
    obtain ⟨first, rfl⟩ := context.ofAttribute kind
    exact ⟨front ++ first, (List.append_assoc ..).symm⟩
  ofFunction kind := by
    obtain ⟨⟨first, blank, rfl, white⟩, blanks, rest, rfl, few, whites⟩ := context.ofFunction kind
    exact ⟨⟨front ++ first, blank, (List.append_assoc ..).symm, white⟩,
      blanks, rest ++ behind, List.append_assoc .., few, whites⟩
  introduced entry listed kind := by
    obtain ⟨first, between, keyword, word, rfl, fits⟩ := context.introduced entry listed kind
    exact ⟨front ++ first, between, keyword, word, (List.append_assoc ..).symm, fits⟩

theorem isPlaced_of_listed : ∀ entry ∈ introductions,
    isPlaced entry.name = true ∧ isPlaced entry.keyword = false ∧ entry.least ≤ 1 := by
  decide

/-- A token that may stand anywhere stands in its context. -/
theorem inContext_of_anywhere (anywhere : isPlaced token.kind = false) :
    InContext policy before token after where
  ofAttribute kind := by simp [kind, isPlaced] at anywhere
  ofFunction kind := by simp [kind, isPlaced] at anywhere
  introduced entry listed kind := by
    rw [kind, (isPlaced_of_listed entry listed).1] at anywhere
    cases anywhere

/-- An attribute behind a dot stands in its context. -/
theorem inContext_of_attribute (front after : List Token) (text : String) :
    InContext policy (front ++ [⟨.operator, "."⟩]) ⟨.nameAttribute, text⟩ after where
  ofAttribute _ := ⟨front, rfl⟩
  ofFunction kind := by cases kind
  introduced entry listed kind := by
    have apart : ∀ entry ∈ introductions, entry.name ≠ .nameAttribute := by decide
    exact absurd kind.symm (apart entry listed)

/-- The name of a method behind white space and before a parenthesis stands in its context. -/
theorem inContext_of_function (front behind : List Token) {blank : Token} {blanks : List Token}
    (text : String) (white : blank.IsBlank) (few : blanks.length ≤ 1)
    (whites : ∀ blank ∈ blanks, blank.IsBlank) :
    InContext policy (front ++ [blank]) ⟨.nameFunction, text⟩
      (blanks ++ ⟨.punctuation, "("⟩ :: behind) where
  ofAttribute kind := by cases kind
  ofFunction _ := ⟨⟨front, blank, rfl, white⟩, blanks, behind, rfl, few, whites⟩
  introduced entry listed kind := by
    have apart : ∀ entry ∈ introductions, entry.name ≠ .nameFunction := by decide
    exact absurd kind.symm (apart entry listed)

/-- A name behind its keyword stands in its context. -/
theorem inContext_of_introduced {entry : Introduction} (listed : entry ∈ introductions)
    (front after : List Token) {keyword : Token} {between : List Token} (word : keyword ∈ entry.keywords)
    (fits : Between policy entry.least between) (text : String) :
    InContext policy (front ++ keyword :: between) ⟨entry.name, text⟩ after where
  ofAttribute kind := by
    have apart : ∀ entry ∈ introductions, entry.name ≠ .nameAttribute := by decide
    exact absurd kind (apart entry listed)
  ofFunction kind := by
    have apart : ∀ entry ∈ introductions, entry.name ≠ .nameFunction := by decide
    exact absurd kind (apart entry listed)
  introduced other otherListed kind := by
    have same : ∀ one ∈ introductions, ∀ other ∈ introductions,
        one.name = other.name → one = other := by decide
    obtain rfl := same entry listed other otherListed kind
    exact ⟨front, between, keyword, word, rfl, fits⟩

theorem namesFrom_nil : NamesFrom policy before [] := fun front token after split => by
  simp at split

theorem namesFrom_cons (context : InContext policy before token after)
    (names : NamesFrom policy (before ++ [token]) after) :
    NamesFrom policy before (token :: after) := by
  intro front other behind split
  cases front with
  | nil =>
    obtain ⟨rfl, rfl⟩ := List.cons.inj split
    simpa using context
  | cons first front =>
    obtain ⟨rfl, rfl⟩ := List.cons.inj split
    simpa using names front other behind rfl

/-- Tokens that may stand anywhere stand in their context. -/
theorem namesFrom_of_anywhere (anywhere : ∀ token ∈ one, isPlaced token.kind = false) :
    NamesFrom policy before one := by
  intro front token after split
  exact inContext_of_anywhere (anywhere token (by simp [split]))

theorem NamesFrom.append (names : NamesFrom policy before one)
    (more : NamesFrom policy (before ++ one) other) : NamesFrom policy before (one ++ other) := by
  intro front token after split
  rcases List.append_eq_append_iff.mp split with ⟨middle, rfl, rest⟩ | ⟨middle, rfl, rest⟩
  · have context := more middle token after rest
    rwa [List.append_assoc] at context
  · cases middle with
    | nil =>
      have context := more [] token after (by simpa using rest.symm)
      simpa using context
    | cons first middle =>
      obtain ⟨rfl, rfl⟩ := List.cons.inj rest
      simpa using (names front token middle rfl).widen [] other

/-- Names that stand in their context do so behind other tokens. -/
theorem NamesInContext.from (names : NamesInContext policy one) : NamesFrom policy before one := by
  intro front token after split
  simpa using (names front token after split).widen before []

end Context

/-! ### One name for each keyword -/

/-- The keyword introduces a name: what stands behind it begins with such tokens as may stand between, and
goes on with the name. -/
def Introduces (policy : StallPolicy) (entry : Introduction) (keyword : Token)
    (behind between : List Token) : Prop :=
  keyword ∈ entry.keywords ∧ Between policy entry.least between ∧
    ∃ name after, behind = between ++ name :: after ∧ name.kind = entry.name

section Introduces

variable {policy : StallPolicy} {entry other : Introduction} {keyword : Token}
  {behind between others : List Token}

/-- No token between a keyword and the name is a name itself. -/
theorem Between.no_name (fits : Between policy entry.least between) :
    ∀ token ∈ between, isPlaced token.kind = false := by
  intro token member
  have kinds : token.IsBlank ∨ token.kind = .error := by
    cases policy with
    | strict => exact .inl (fits.2.2 token member)
    | lenient => exact fits.2 token member
  rcases kinds with blank | skipped
  · simp [blank.kind, isPlaced]
  · simp [skipped, isPlaced]

/-- A name is no further from its keyword than another one, for it would stand between. -/
theorem Introduces.length_le (one : Introduces policy entry keyword behind between)
    (two : Introduces policy other keyword behind others) (listed : entry ∈ introductions) :
    others.length ≤ between.length := by
  obtain ⟨_, _, name, after, split, named⟩ := one
  obtain ⟨_, fits, _, _, same, _⟩ := two
  by_contra longer
  have inside : name ∈ others := by
    have here : behind[between.length]? = some name := by simp [split]
    rw [same, List.getElem?_append_left (by omega)] at here
    exact List.mem_of_getElem? here
  have placed := fits.no_name name inside
  rw [named, (isPlaced_of_listed entry listed).1] at placed
  cases placed

/-- A keyword introduces one name at most. -/
theorem Introduces.unique (one : Introduces policy entry keyword behind between)
    (two : Introduces policy other keyword behind others) (listed : entry ∈ introductions)
    (otherListed : other ∈ introductions) : between = others := by
  have lengths := Nat.le_antisymm (two.length_le one otherListed) (one.length_le two listed)
  obtain ⟨_, _, name, after, split, _⟩ := one
  obtain ⟨_, _, _, _, same, _⟩ := two
  exact (List.append_inj (split.symm.trans same) lengths).1

end Introduces

/-! ### Where a reading stands -/

/-- What was read since the keyword, and the text ahead. -/
inductive Gap : StallPolicy → List Token → List Char → Prop where
  /-- Nothing yet, and what follows is no part of the keyword. -/
  | nothing {policy : StallPolicy} {ahead : List Char}
      (behind : ahead.head?.any Text.isWordChar = false) : Gap policy [] ahead
  /-- All white space. -/
  | blank {token : Token} {ahead : List Char} (blank : token.IsBlank)
      (behind : ahead.head?.any Text.isBlank = false) : Gap .strict [token] ahead
  /-- White space and characters that were skipped. -/
  | mixed {between : List Token} {ahead : List Char} (some_token : between ≠ [])
      (mixture : ∀ token ∈ between, token.IsBlank ∨ token.kind = .error) :
      Gap .lenient between ahead

/-- Where a reading of the table stands, by its stack, when these tokens were read and this text is ahead. -/
inductive Stands (table : Table) (policy : StallPolicy) (tokens : List Token) (ahead : List Char) :
    StateStack → Prop where
  | root : Stands table policy tokens ahead (.new table.root)
  /-- Behind a keyword, whose name was not read yet. -/
  | behind {entry : Introduction} (listed : entry ∈ introductions) {front between : List Token}
      {keyword : Token} (word : keyword ∈ entry.keywords) (split : tokens = front ++ keyword :: between)
      (gap : Gap policy between ahead) :
      Stands table policy tokens ahead ((StateStack.new table.root).push entry.state)

/-- The tokens end in white space. -/
def EndBlank (tokens : List Token) : Prop := ∃ front blank, tokens = front ++ [blank] ∧ blank.IsBlank

/-- What the tokens of a text are: names stand in their context, and where the text has no mark and ends in
white space, the tokens end in white space. -/
structure Proper (policy : StallPolicy) (text : List Char) (tokens : List Token) : Prop where
  names : NamesInContext policy tokens
  ends : (∀ c ∈ marks, c ∉ text) → text.getLast?.any Text.isBlank = true → EndBlank tokens

/-- Behind the tokens that were read, a piece of the text yields more tokens and leads to the stack. -/
structure Goes (table : Table) (policy : StallPolicy) (before : List Token) (piece rest : List Char)
    (tokens : List Token) (next : StateStack) : Prop where
  names : NamesFrom policy before tokens
  stands : Stands table policy (before ++ tokens) rest next
  ends : (∀ c ∈ marks, c ∉ piece ++ rest) → piece.getLast?.any Text.isBlank = true → EndBlank tokens

section Goes

variable {table : Table} {policy : StallPolicy} {before tokens : List Token} {piece rest : List Char}
  {moves : List StackMove} {next : StateStack}

/-- What a rule of the root state comes to keeps names in their context. -/
theorem names_of_rootTurn (turn : RootTurn (Proper policy) piece rest tokens moves) :
    NamesFrom policy before tokens := by
  cases turn with
  | plain anywhere => exact namesFrom_of_anywhere (by simpa using anywhere)
  | opens listed word behind =>
    exact namesFrom_of_anywhere (by simpa using (isPlaced_of_listed _ listed).2.1)
  | access name =>
    apply namesFrom_cons (inContext_of_anywhere rfl)
    by_cases nothing : name = []
    · subst nothing
      exact namesFrom_nil
    · rw [Token.ofPiece_of_ne_nil nothing]
      exact namesFrom_cons (inContext_of_attribute before [] _) namesFrom_nil
  | @signature front said name blank reads ends unmarked blanks =>
    apply reads.names.from.append
    have anywhere : ∀ token ∈ Token.ofPiece .text blank ++ [⟨.punctuation, "("⟩],
        isPlaced token.kind = false := by
      intro token member
      rcases List.mem_append.mp member with white | paren
      · rw [(Token.eq_of_mem_ofPiece white).2]
        rfl
      · rw [List.mem_singleton.mp paren]
        rfl
    by_cases nothing : name = []
    · subst nothing
      exact namesFrom_of_anywhere anywhere
    · obtain ⟨first, last, rfl, white⟩ := reads.ends unmarked ends
      have few : (Token.ofPiece .text blank).length ≤ 1 := by
        unfold Token.ofPiece
        split <;> simp
      have whites : ∀ token ∈ Token.ofPiece .text blank, token.IsBlank := fun token member => by
        obtain ⟨some_blank, rfl⟩ := Token.eq_of_mem_ofPiece member
        exact Token.isBlank_ofList some_blank blanks
      rw [Token.ofPiece_of_ne_nil nothing, ← List.append_assoc before]
      exact namesFrom_cons (inContext_of_function _ [] _ white few whites) (namesFrom_of_anywhere anywhere)

theorem stands_of_rootTurn (turn : RootTurn (Proper policy) piece rest tokens moves)
    (moved : (StateStack.new table.root).replay? moves = some next) :
    Stands table policy (before ++ tokens) rest next := by
  cases turn with
  | opens listed word behind =>
    obtain rfl : _ = next := Option.some.inj moved
    exact .behind listed (List.mem_map_of_mem word) rfl (.nothing behind)
  | plain | access | signature =>
    obtain rfl : _ = next := Option.some.inj moved
    exact .root

/-- What was read since the keyword may stand between it and the name. -/
theorem between_of_gap {entry : Introduction} (listed : entry ∈ introductions) {between : List Token}
    (some_piece : piece ≠ []) (gap : Gap policy between (piece ++ rest))
    (word : entry.least = 0 ∨ ∀ c ∈ piece, Text.isWordChar c = true) :
    Between policy entry.least between := by
  have least := (isPlaced_of_listed entry listed).2.2
  cases gap with
  | nothing behind =>
    have zero : entry.least = 0 := by
      refine word.resolve_right fun chars => ?_
      obtain ⟨c, others, rfl⟩ := List.exists_cons_of_ne_nil some_piece
      simp [chars c] at behind
    cases policy <;> simp [Between, zero]
  | blank blank => simp [Between, blank, least]
  | @mixed between _ some_token mixture =>
    have := List.length_pos_iff.mpr some_token
    exact ⟨by omega, mixture⟩

/-- White space is read behind the keyword once under the strict policy, and any number of times under the
lenient one. -/
theorem Gap.blank_behind {between : List Token} (gap : Gap policy between (piece ++ rest))
    (some_piece : piece ≠ []) (blanks : ∀ c ∈ piece, Text.isBlank c = true)
    (behind : rest.head?.any Text.isBlank = false) :
    Gap policy (between ++ [⟨.text, String.ofList piece⟩]) rest := by
  have white := Token.isBlank_ofList some_piece blanks
  cases gap with
  | nothing =>
    cases policy with
    | strict => exact .blank white behind
    | lenient => exact .mixed (by simp) (by simpa using white)
  | blank _ none_behind =>
    obtain ⟨c, others, rfl⟩ := List.exists_cons_of_ne_nil some_piece
    simp [blanks c] at none_behind
  | mixed some_token mixture =>
    refine .mixed (by simp) fun token member => ?_
    rcases List.mem_append.mp member with earlier | last
    · exact mixture token earlier
    · exact .inl (List.mem_singleton.mp last ▸ white)

/-- What a rule of a state that was entered comes to keeps names in their context. -/
theorem goes_of_nameTurn {entry : Introduction} (listed : entry ∈ introductions)
    (some_piece : piece ≠ []) (front : List Token) {between : List Token} {keyword : Token}
    (word : keyword ∈ entry.keywords) (gap : Gap policy between (piece ++ rest))
    (turn : NameTurn entry piece rest tokens moves)
    (moved : ((StateStack.new table.root).push entry.state).replay? moves = some next) :
    NamesFrom policy (front ++ keyword :: between) tokens ∧
      Stands table policy (front ++ keyword :: between ++ tokens) rest next := by
  cases turn with
  | blank blanks behind =>
    obtain rfl : _ = next := Option.some.inj moved
    refine ⟨namesFrom_of_anywhere fun token member => by rw [List.mem_singleton.mp member]; rfl, ?_⟩
    exact .behind listed word (List.append_assoc ..) (gap.blank_behind some_piece blanks behind)
  | name chars =>
    obtain rfl : _ = next := Option.some.inj moved
    have fits := between_of_gap listed some_piece gap chars
    exact ⟨namesFrom_cons (inContext_of_introduced listed front [] word fits _) namesFrom_nil, .root⟩

/-- What a rule of the topmost state adds. -/
theorem goes_of_takes (shaped : Shaped table) {stack : StateStack}
    (stands : Stands table policy before (piece ++ rest) stack) {rule : Rule} {site : Site}
    (member : rule ∈ (table.state stack.top).rules)
    (takes : rule.Takes (Proper policy) site piece rest tokens moves)
    (moved : stack.replay? moves = some next) : Goes table policy before piece rest tokens next := by
  obtain ⟨⟨anchored, _⟩, plainly⟩ := shaped.tame_rule (Table.mem_rules member)
  have ends (unmarked : ∀ c ∈ marks, c ∉ piece ++ rest)
      (blank : piece.getLast?.any Text.isBlank = true) : EndBlank tokens := by
    obtain ⟨rfl, blanks⟩ := blank_of_endsPlainly plainly anchored takes unmarked blank
    exact ⟨[], _, rfl, Token.isBlank_ofList takes.some_piece blanks⟩
  cases stands with
  | root =>
    have turn := rootTurn_of_form (shaped.root rule member) anchored takes
    exact ⟨names_of_rootTurn turn, stands_of_rootTurn turn moved, ends⟩
  | @behind entry listed front between keyword word split gap =>
    have turn := nameTurn_of_form (shaped.names entry listed rule member) anchored takes
    obtain ⟨names, further⟩ := goes_of_nameTurn listed takes.some_piece front word gap turn moved
    rw [← split] at names further
    exact ⟨names, further, ends⟩

/-- Where no rule is chosen, the next character is no white space. -/
theorem not_blank_of_stalled (shaped : Shaped table) {stack : StateStack} {ahead : List Char}
    (stands : Stands table policy before ahead stack) {c : Char}
    (stalled : (table.state stack.top).select (c :: rest) = none) : Text.isBlank c = false := by
  have known : stack.top ∈ table.root :: introductions.map (·.state) := by
    cases stands with
    | root => exact List.mem_cons_self
    | behind listed => exact List.mem_cons_of_mem _ (List.mem_map_of_mem listed)
  obtain ⟨rule, member, form⟩ := shaped.blank _ known
  obtain ⟨⟨anchored, _⟩, _⟩ := shaped.tame_rule (Table.mem_rules member)
  simp only [isWhiteSpace, Bool.and_eq_true, beq_iff_eq] at form
  by_contra blank
  have blank : Text.isBlank c = true := by simpa using blank
  have inside : (⟨Text.blankRanges⟩ : Pattern.CharSet).contains c = true := blank
  obtain ⟨found, find?_found, longer⟩ :=
    Pattern.Regex.exists_find?_of_greedySet? anchored form.2 inside rest
  exact longer (length_eq_zero_of_select stalled rule member found find?_found)

/-- What a character that is skipped adds. -/
theorem goes_of_skip (shaped : Shaped table) {stack : StateStack} {c : Char}
    (stands : Stands table .lenient before (c :: rest) stack)
    (stalled : (table.state stack.top).select (c :: rest) = none) :
    Goes table .lenient before [c] rest [⟨.error, String.ofList [c]⟩] stack where
  names := namesFrom_of_anywhere fun token member => by rw [List.mem_singleton.mp member]; rfl
  stands := by
    cases stands with
    | root => exact .root
    | @behind entry listed front between keyword word split gap =>
      refine .behind listed word (by rw [split]; exact List.append_assoc ..) (.mixed (by simp) ?_)
      intro token member
      rcases List.mem_append.mp member with earlier | last
      · cases gap with
        | nothing => cases earlier
        | mixed _ mixture => exact mixture token earlier
      · exact .inr (by rw [List.mem_singleton.mp last])
  ends _ blank := by
    have no_blank := not_blank_of_stalled shaped stands stalled
    simp [no_blank] at blank

end Goes

/-! ### Whole readings -/

section Readings

variable {table : Table} {policy : StallPolicy} {stack : StateStack} {text : List Char}
  {before tokens more : List Token}

theorem EndBlank.append (ends : EndBlank more) (tokens : List Token) : EndBlank (tokens ++ more) := by
  obtain ⟨front, blank, rfl, white⟩ := ends
  exact ⟨tokens ++ front, blank, (List.append_assoc ..).symm, white⟩

/-- Nothing is read as nothing. -/
theorem eq_nil_of_reads {inner : List Char → List Token → Prop}
    (reads : table.Reads policy inner stack text tokens) (nothing : text = []) : tokens = [] := by
  cases reads with
  | nothing => rfl
  | rule chosen takes => exact absurd (List.append_eq_nil_iff.mp nothing).1 takes.some_piece
  | skip => cases nothing

/-- What a piece adds goes before what the rest of the text adds. -/
theorem Goes.append {piece rest : List Char} (goes : Goes table policy before piece rest tokens stack)
    (nothing : rest = [] → more = []) (names : NamesFrom policy (before ++ tokens) more)
    (ends : (∀ c ∈ marks, c ∉ rest) → rest.getLast?.any Text.isBlank = true → EndBlank more) :
    NamesFrom policy before (tokens ++ more) ∧
      ((∀ c ∈ marks, c ∉ piece ++ rest) → (piece ++ rest).getLast?.any Text.isBlank = true →
        EndBlank (tokens ++ more)) := by
  refine ⟨goes.names.append names, fun unmarked blank => ?_⟩
  by_cases last : rest = []
  · rw [nothing last, List.append_nil]
    subst last
    exact goes.ends unmarked (by simpa using blank)
  · have unmarked (c : Char) (mark : c ∈ marks) : c ∉ rest := fun member =>
      unmarked c mark (List.mem_append_right piece member)
    rw [List.getLast?_append_of_ne_nil _ last] at blank
    exact (ends unmarked blank).append tokens

/-- Behind what was read before, the tokens of a text are proper. -/
theorem proper_from (shaped : Shaped table)
    (reads : table.Reads policy (Proper policy) stack text tokens)
    (stands : Stands table policy before text stack) :
    NamesFrom policy before tokens ∧
      ((∀ c ∈ marks, c ∉ text) → text.getLast?.any Text.isBlank = true → EndBlank tokens) := by
  induction reads generalizing before with
  | nothing => exact ⟨namesFrom_nil, fun _ blank => by cases blank⟩
  | rule chosen takes moved further ih =>
    have goes := goes_of_takes shaped stands (exists_of_select chosen).1 takes moved
    obtain ⟨names, ends⟩ := ih goes.stands
    exact goes.append (eq_nil_of_reads further) names ends
  | skip lenient stalled further ih =>
    subst lenient
    have goes := goes_of_skip shaped stands stalled
    obtain ⟨names, ends⟩ := ih goes.stands
    exact goes.append (eq_nil_of_reads further) names ends

/-- What a text is read as from the root state on is proper. -/
theorem proper_of_reads (shaped : Shaped table)
    (reads : table.Reads policy (Proper policy) (.new table.root) text tokens) :
    Proper policy text tokens := by
  have start : Stands table policy [] text (.new table.root) := .root
  obtain ⟨names, ends⟩ := proper_from shaped reads start
  exact ⟨names, ends⟩

end Readings

end Java

/-! ### Runs -/

/-- The names of a run that succeeds stand where they may: attributes behind a dot, the names of methods
between white space and a parenthesis, and the names of classes and of what is imported behind their keywords,
each of which introduces one name at most. -/
theorem java_names_stand_in_context :
    ∃ table, Java.table = .ok table ∧
      ∀ {σ : Type} (engine : Engine σ) (text : List Char) (world : World σ) (metrics : Metrics),
        (({ table } : Lexer).run engine text world).result = .ok metrics →
        let watched := ({ table } : Lexer).drive engine.watched ⟨.start table text, world.watched⟩
        let tokens := (endOf watched).world.sink.taken
        Java.NamesInContext engine.options.stall tokens ∧
        ∀ before keyword behind, tokens = before ++ keyword :: behind →
          ∀ entry ∈ Java.introductions, ∀ other ∈ Java.introductions, ∀ between others,
            Java.Introduces engine.options.stall entry keyword behind between →
            Java.Introduces engine.options.stall other keyword behind others → between = others := by
  obtain ⟨table, built, known⟩ := Java.exists_table
  refine ⟨table, built, ?_⟩
  intro σ engine text world metrics succeeds watched tokens
  constructor
  · obtain ⟨last, driven, same⟩ := exists_of_run_ok succeeds
    have contained : ({ table } : Lexer).table.SelfContained := known.shaped.selfContained
    obtain ⟨collected, added, proper⟩ := reads_of_drive contained
      (fun _ _ reads => Java.proper_of_reads known.shaped reads) driven
    have all : tokens = collected := same.trans added
    rw [all]
    exact proper.names
  · intro before keyword behind _ entry listed other otherListed between others one two
    exact one.unique two listed otherListed

/-- A text with a name of each of the four kinds. -/
theorem java_names_stand_in_context_of_class :
    ∃ table, Java.table = .ok table ∧
      let engine : Engine Collector := .collecting .builtins {}
      let lexer : Lexer := { table }
      let text := "import a.b; class A { int f (int x) { x.y; } }".toList
      let watched := lexer.drive engine.watched ⟨.start table text, ({ sink := {} } : World _).watched⟩
      let tokens := (endOf watched).world.sink.taken
      (∃ metrics, (lexer.run engine text { sink := {} }).result = .ok metrics) ∧
        (∀ kind ∈ [Kind.nameNamespace, .nameClass, .nameFunction, .nameAttribute],
          kind ∈ tokens.map Token.kind) ∧
        Java.NamesInContext .strict tokens := by
  have checked : (Java.table.toOption.any fun table =>
      let engine : Engine Collector := .collecting .builtins {}
      let lexer : Lexer := { table }
      let text := "import a.b; class A { int f (int x) { x.y; } }".toList
      let watched := lexer.drive engine.watched ⟨.start table text, ({ sink := {} } : World _).watched⟩
      (lexer.run engine text { sink := {} }).result.toOption.isSome &&
        [Kind.nameNamespace, .nameClass, .nameFunction, .nameAttribute].all fun kind =>
          ((endOf watched).world.sink.taken.map Token.kind).contains kind) = true := by
    decide +kernel
  obtain ⟨table, built, names⟩ := java_names_stand_in_context
  rw [built] at checked
  obtain ⟨succeeded, kinds⟩ := (Bool.and_eq_true _ _).mp checked
  have ended {result : Except ScanError Metrics} (some_metrics : result.toOption.isSome = true) :
      ∃ metrics, result = .ok metrics := by
    cases result with
    | ok metrics => exact ⟨metrics, rfl⟩
    | error => cases some_metrics
  obtain ⟨metrics, result⟩ := ended succeeded
  refine ⟨table, built, ⟨metrics, result⟩, ?_, (names _ _ _ metrics result).1⟩
  intro kind listed
  simpa using List.all_eq_true.mp kinds kind listed

end TableLexer
