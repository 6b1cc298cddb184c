/-
**What the rules of Java yield.**

The rules of the root state make a token of a kind that may stand anywhere, or read a keyword and enter a
state, or an operator and an attribute, or the head of a method. The states that are entered read white space
and one name, with which they leave. All this shows in the form of the rules, and `shapedByForm` tests it.

* `RootTurn`, `NameTurn`: the tokens and the moves that a rule comes to.
* `rootTurn_of_form`, `nameTurn_of_form`: the form of a rule shows what it comes to.
* `blank_of_endsPlainly`: what ends in white space, and has no mark in it, is white space.
-/

import TableLexer.Java
import TableLexer.Proofs.Pattern.Rows
import TableLexer.Proofs.Pattern.Shapes
import TableLexer.Proofs.Scan.Readings

namespace TableLexer.Java

open Step
open Pattern (CharTest Match)

/-! ### Keywords and names -/

/-- A keyword that enters a state, and the name that is read there. -/
structure Introduction where
  state : StateId
  keyword : Kind
  words : List String
  name : Kind
  /-- So many tokens stand between the keyword and the name at least. -/
  least : Nat
  deriving DecidableEq

/-- The keywords and the names that they introduce. -/
def introductions : List Introduction :=
  [⟨⟨1⟩, .keywordDeclaration, ["class", "interface"], .nameClass, 1⟩,
    ⟨⟨2⟩, .keywordNamespace, ["import"], .nameNamespace, 0⟩]

/-- Tokens of the kind stand in certain places only. -/
def isPlaced (kind : Kind) : Bool :=
  [Kind.nameAttribute, .nameFunction, .nameClass, .nameNamespace].contains kind

/-- Without one of these characters, nothing but white space ends in white space. -/
def marks : List Char := ['(', '/', '"', '\'']

/-! ### The form of the rules -/

/-- The rule makes white space a token, as much of it as there is. -/
def isWhiteSpace (rule : Rule) : Bool :=
  rule.behavior == .emit .text && rule.regex.plan.greedySet? == some ⟨Text.blankRanges⟩

/-- The rule makes a token that may stand anywhere. -/
def isPlain (rule : Rule) : Bool :=
  match rule.behavior with
  | .emit kind => !isPlaced kind
  | _ => false

/-- The rule reads the keyword as a whole word and enters the state. -/
def opens (rule : Rule) (entry : Introduction) : Bool :=
  rule.behavior == .emitAndPush entry.keyword entry.state &&
    rule.regex.plan.lastLook? == some .wordBoundary &&
    rule.regex.plan.words?.any (·.all fun word =>
      entry.words.contains (String.ofList word) && word.getLast?.any Text.isWordChar)

/-- The groups of this number take the word only. -/
def groupIs (rule : Rule) (index : Nat) (word : List Char) : Bool :=
  rule.regex.eachGroup index (·.words? == some [word])

/-- The rule reads an operator and an attribute. -/
def isAccess (rule : Rule) : Bool :=
  rule.behavior == .composite [.emit 1 .operator, .emit 2 .nameAttribute] &&
    rule.regex.plan.row? == some [1, 2] && groupIs rule 1 ['.']

/-- The rule reads the head of a method, and hands on what ends in white space and has no marks. -/
def isSignature (rule : Rule) : Bool :=
  rule.behavior == .composite
      [.delegate 1 .current, .emit 2 .nameFunction, .emit 3 .text, .emit 4 .punctuation] &&
    rule.regex.plan.row? == some [1, 2, 3, 4] &&
    rule.regex.eachGroup 1 (fun body => body.endsIn .blank false && marks.all body.avoids) &&
    rule.regex.eachGroup 3 (·.takesOnly .blank) && groupIs rule 4 ['(']

/-- The rule reads the name that was introduced and leaves the state. -/
def isName (entry : Introduction) (rule : Rule) : Bool :=
  rule.behavior == .emitAndPop entry.name &&
    (entry.least == 0 || rule.regex.plan.takesOnly .word)

/-- What the rule takes ends in white space only if it is white space, or if it has a mark in it. -/
def endsPlainly (rule : Rule) : Bool :=
  isWhiteSpace rule || rule.regex.plan.takesOnly .unblank || marks.any rule.regex.plan.needs

/-- The rule is one of the root state. -/
def isRootRule (rule : Rule) : Bool :=
  isPlain rule || introductions.any (opens rule) || isAccess rule || isSignature rule

/-- The rule is one of a state that was entered. -/
def isNameRule (entry : Introduction) (rule : Rule) : Bool := isWhiteSpace rule || isName entry rule

/-- The rule has a pattern that matches at the cursor only, hands on to its own table only, and ends
plainly. -/
def isTame (rule : Rule) : Bool :=
  rule.regex.anchored && rule.behavior.targets.all (· == .current) && endsPlainly rule

/-- Whether the rules of the table are of these forms. -/
def shapedByForm (table : Table) : Bool :=
  table.rules.all isTame && (table.state table.root).rules.all isRootRule &&
    (introductions.all fun entry => (table.state entry.state).rules.all (isNameRule entry)) &&
    (table.root :: introductions.map (·.state)).all fun id =>
      (table.state id).rules.any isWhiteSpace

/-- The rules of the table are of these forms. -/
structure Shaped (table : Table) : Prop where
  tame : ∀ rule ∈ table.rules, isTame rule = true
  root : ∀ rule ∈ (table.state table.root).rules, isRootRule rule = true
  names : ∀ entry ∈ introductions, ∀ rule ∈ (table.state entry.state).rules,
    isNameRule entry rule = true
  blank : ∀ id ∈ table.root :: introductions.map (·.state),
    ∃ rule ∈ (table.state id).rules, isWhiteSpace rule = true

theorem shaped_of_form {table : Table} (form : shapedByForm table = true) : Shaped table := by
  simp only [shapedByForm, Bool.and_eq_true] at form
  obtain ⟨⟨⟨tame, root⟩, names⟩, blank⟩ := form
  exact
    { tame := List.all_eq_true.mp tame
      root := List.all_eq_true.mp root
      names := fun entry listed => List.all_eq_true.mp (List.all_eq_true.mp names entry listed)
      blank := fun id listed => List.any_eq_true.mp (List.all_eq_true.mp blank id listed) }

section Shaped

variable {table : Table}

theorem Shaped.tame_rule (shaped : Shaped table) {rule : Rule} (member : rule ∈ table.rules) :
    (rule.regex.anchored = true ∧ ∀ target ∈ rule.behavior.targets, target = .current) ∧
      endsPlainly rule = true := by
  have tame := shaped.tame rule member
  simpa [isTame] using tame

theorem Shaped.selfContained (shaped : Shaped table) : table.SelfContained where
  anchored _ member := (shaped.tame_rule member).1.1
  current _ member := (shaped.tame_rule member).1.2

end Shaped

/-! ### What a rule comes to -/

/-- What a rule of the root state comes to, where it takes the piece and the rest is left. -/
inductive RootTurn (inner : List Char → List Token → Prop) (piece rest : List Char) :
    List Token → List StackMove → Prop where
  /-- A token that may stand anywhere. -/
  | plain {kind : Kind} (anywhere : isPlaced kind = false) :
      RootTurn inner piece rest [⟨kind, String.ofList piece⟩] []
  /-- A keyword, which enters a state. -/
  | opens {entry : Introduction} (listed : entry ∈ introductions)
      (word : String.ofList piece ∈ entry.words)
      (behind : rest.head?.any Text.isWordChar = false) :
      RootTurn inner piece rest [⟨entry.keyword, String.ofList piece⟩] [.enter entry.state]
  /-- An operator and an attribute. -/
  | access (name : List Char) :
      RootTurn inner piece rest (⟨.operator, "."⟩ :: Token.ofPiece .nameAttribute name) []
  /-- What a nested run reads, a name, white space and a parenthesis. -/
  | signature {front : List Char} {tokens : List Token} (name : List Char) {blank : List Char}
      (reads : inner front tokens) (ends : front.getLast?.any Text.isBlank = true)
      (unmarked : ∀ c ∈ marks, c ∉ front) (blanks : ∀ c ∈ blank, Text.isBlank c = true) :
      RootTurn inner piece rest
        (tokens ++ (Token.ofPiece .nameFunction name ++
          (Token.ofPiece .text blank ++ [⟨.punctuation, "("⟩]))) []

/-- What a rule of a state that was entered comes to, where it takes the piece and the rest is left. -/
inductive NameTurn (entry : Introduction) (piece rest : List Char) :
    List Token → List StackMove → Prop where
  /-- All white space. -/
  | blank (blanks : ∀ c ∈ piece, Text.isBlank c = true)
      (behind : rest.head?.any Text.isBlank = false) :
      NameTurn entry piece rest [⟨.text, String.ofList piece⟩] []
  /-- The name, which leaves the state. -/
  | name (word : entry.least = 0 ∨ ∀ c ∈ piece, Text.isWordChar c = true) :
      NameTurn entry piece rest [⟨entry.name, String.ofList piece⟩] [.leave]

section Turns

variable {rule : Rule} {inner : List Char → List Token → Prop} {site : Site} {piece rest : List Char}
  {tokens : List Token} {moves : List StackMove}

/-- The text of a group that takes a word only. -/
theorem slice_of_groupIs {index : Nat} {word : List Char} {span : Pattern.Span}
    (takes : rule.Takes inner site piece rest tokens moves) (is : groupIs rule index word = true)
    (participates : site.found.group? index = some span) : site.slice span = word := by
  obtain ⟨body, first, last, tested, leads, spans⟩ :=
    Pattern.Regex.leads_of_eachGroup is takes.found_here participates
  obtain ⟨taken, member, other⟩ := leads.mem_of_words? (beq_iff_eq.mp tested)
  exact (spans.eq other).trans (List.mem_singleton.mp member)

theorem emit_of_takes {kind : Kind} (behaves : rule.behavior = .emit kind)
    (anchored : rule.regex.anchored = true) (takes : rule.Takes inner site piece rest tokens moves) :
    tokens = [⟨kind, String.ofList piece⟩] ∧ moves = [] := by
  obtain ⟨⟨_, _, rfl, rfl, rfl⟩, rfl⟩ := takes.comes_to behaves
  rw [takes.whole_eq anchored, Token.ofPiece_of_ne_nil takes.some_piece]
  exact ⟨rfl, rfl⟩

/-- A rule for white space takes all of it. -/
theorem blank_of_isWhiteSpace (form : isWhiteSpace rule = true) (anchored : rule.regex.anchored = true)
    (takes : rule.Takes inner site piece rest tokens moves) :
    (tokens = [⟨.text, String.ofList piece⟩] ∧ moves = []) ∧
      (∀ c ∈ piece, Text.isBlank c = true) ∧ rest.head?.any Text.isBlank = false := by
  simp only [isWhiteSpace, Bool.and_eq_true, beq_iff_eq] at form
  obtain ⟨behaves, greedy⟩ := form
  exact ⟨emit_of_takes behaves anchored takes,
    Pattern.Regex.not_contains_behind anchored greedy takes.found takes.length⟩

/-- What ends in white space, where no mark is ahead, is white space. -/
theorem blank_of_endsPlainly (form : endsPlainly rule = true) (anchored : rule.regex.anchored = true)
    (takes : rule.Takes inner site piece rest tokens moves) (unmarked : ∀ c ∈ marks, c ∉ piece ++ rest)
    (ends : piece.getLast?.any Text.isBlank = true) :
    tokens = [⟨.text, String.ofList piece⟩] ∧ ∀ c ∈ piece, Text.isBlank c = true := by
  simp only [endsPlainly, Bool.or_eq_true] at form
  obtain ⟨last, same, blank⟩ : ∃ last, piece.getLast? = some last ∧ Text.isBlank last = true := by
    cases same : piece.getLast? with
    | none => simp [same] at ends
    | some last => exact ⟨last, rfl, by simpa [same] using ends⟩
  rcases form with (white | solid) | needy
  · obtain ⟨⟨said, _⟩, blanks, _⟩ := blank_of_isWhiteSpace white anchored takes
    exact ⟨said, blanks⟩
  · have no_blank := Pattern.Regex.forall_passes anchored solid takes.found takes.length last
      (List.mem_of_getLast? same)
    have no_blank : (!Text.isBlank last) = true := no_blank
    rw [blank] at no_blank
    cases no_blank
  · obtain ⟨mark, listed, needs⟩ := List.any_eq_true.mp needy
    exact absurd (rule.regex.mem_of_needs needs takes.found) (unmarked mark listed)

/-- The form of a rule of a state that was entered shows what it comes to. -/
theorem nameTurn_of_form {entry : Introduction} (form : isNameRule entry rule = true)
    (anchored : rule.regex.anchored = true) (takes : rule.Takes inner site piece rest tokens moves) :
    NameTurn entry piece rest tokens moves := by
  simp only [isNameRule, isName, Bool.or_eq_true, Bool.and_eq_true, beq_iff_eq] at form
  rcases form with white | ⟨behaves, word⟩
  · obtain ⟨⟨rfl, rfl⟩, blanks, behind⟩ := blank_of_isWhiteSpace white anchored takes
    exact .blank blanks behind
  · obtain ⟨⟨_, _, rfl, rfl, _, _, rfl, rfl, rfl⟩, rfl⟩ := takes.comes_to behaves
    rw [takes.whole_eq anchored, Token.ofPiece_of_ne_nil takes.some_piece]
    refine .name (word.imp_right fun only => ?_)
    exact Pattern.Regex.forall_passes anchored only takes.found takes.length

/-- A rule for a keyword reads one of its words, behind which stands no word character. -/
theorem opens_of_takes {entry : Introduction} (listed : entry ∈ introductions)
    (form : opens rule entry = true) (anchored : rule.regex.anchored = true)
    (takes : rule.Takes inner site piece rest tokens moves) :
    RootTurn inner piece rest tokens moves := by
  simp only [opens, Bool.and_eq_true, beq_iff_eq] at form
  obtain ⟨⟨behaves, boundary⟩, words⟩ := form
  obtain ⟨word, last⟩ : String.ofList piece ∈ entry.words ∧
      piece.getLast?.any Text.isWordChar = true := by
    cases known : rule.regex.plan.words? with
    | none => simp [known] at words
    | some all =>
      have member := Pattern.Regex.mem_of_words? anchored known takes.found takes.length
      rw [known] at words
      have fits := List.all_eq_true.mp words piece member
      simpa using fits
  obtain ⟨⟨_, _, rfl, rfl, _, _, rfl, rfl, rfl⟩, rfl⟩ := takes.comes_to behaves
  rw [takes.whole_eq anchored, Token.ofPiece_of_ne_nil takes.some_piece]
  exact .opens listed word
    (Pattern.Regex.not_word_behind anchored boundary takes.found takes.length last)

/-- A rule for an operator and an attribute reads a dot first. -/
theorem access_of_takes (form : isAccess rule = true)
    (takes : rule.Takes inner site piece rest tokens moves) :
    RootTurn inner piece rest tokens moves := by
  simp only [isAccess, Bool.and_eq_true, beq_iff_eq] at form
  obtain ⟨⟨behaves, row⟩, dot⟩ := form
  have group {index : Nat} (listed : index ∈ [1, 2]) : ∃ span, site.found.group? index = some span :=
    Pattern.Regex.exists_group_of_row row (by decide) (by decide) takes.found listed
  obtain ⟨first, one⟩ := group (by decide : 1 ∈ [1, 2])
  obtain ⟨second, two⟩ := group (by decide : 2 ∈ [1, 2])
  obtain ⟨yields, moved⟩ := takes.comes_to behaves
  simp only [Site.deeds, List.filterMap_cons, List.filterMap_nil, Site.deed?, one, two,
    Option.map_some] at yields moved
  obtain ⟨_, _, rfl, rfl, _, _, rfl, rfl, rfl⟩ := yields
  obtain rfl := moved
  rw [slice_of_groupIs takes dot one, List.append_nil]
  exact .access _

/-- What is handed on ends in white space and has no mark in it. -/
theorem front_of_takes {span : Pattern.Span} (takes : rule.Takes inner site piece rest tokens moves)
    (form : rule.regex.eachGroup 1 (fun body => body.endsIn .blank false && marks.all body.avoids) = true)
    (participates : site.found.group? 1 = some span) :
    (site.slice span).getLast?.any Text.isBlank = true ∧ ∀ c ∈ marks, c ∉ site.slice span := by
  obtain ⟨body, first, last, tested, leads, spans⟩ :=
    Pattern.Regex.leads_of_eachGroup form takes.found_here participates
  have spans : first.Takes (site.slice span) last := spans
  obtain ⟨ends, avoids⟩ := (Bool.and_eq_true _ _).mp tested
  constructor
  · obtain ⟨taken, other, blank⟩ := leads.endsIn (fun nothing : false = true => nothing) ends
    rw [Pattern.Plan.endsAfter_false] at blank
    rw [spans.eq other]
    exact blank
  · intro c listed
    obtain ⟨taken, other, missing⟩ := leads.not_mem_of_avoids (List.all_eq_true.mp avoids c listed)
    rwa [spans.eq other]

/-- A rule for the heads of methods hands on the words before the name. -/
theorem signature_of_takes (form : isSignature rule = true)
    (takes : rule.Takes inner site piece rest tokens moves) :
    RootTurn inner piece rest tokens moves := by
  simp only [isSignature, Bool.and_eq_true, beq_iff_eq] at form
  obtain ⟨⟨⟨⟨behaves, row⟩, front⟩, white⟩, paren⟩ := form
  have group {index : Nat} (listed : index ∈ [1, 2, 3, 4]) :
      ∃ span, site.found.group? index = some span :=
    Pattern.Regex.exists_group_of_row row (by decide) (by decide) takes.found listed
  obtain ⟨words, one⟩ := group (by decide : 1 ∈ [1, 2, 3, 4])
  obtain ⟨name, two⟩ := group (by decide : 2 ∈ [1, 2, 3, 4])
  obtain ⟨blank, three⟩ := group (by decide : 3 ∈ [1, 2, 3, 4])
  obtain ⟨last, four⟩ := group (by decide : 4 ∈ [1, 2, 3, 4])
  obtain ⟨ends, unmarked⟩ := front_of_takes takes front one
  have blanks : ∀ c ∈ site.slice blank, Text.isBlank c = true := by
    obtain ⟨body, first, ended, only, leads, spans⟩ :=
      Pattern.Regex.leads_of_eachGroup white takes.found_here three
    obtain ⟨taken, other, passes⟩ := leads.forall_passes only
    have spans : first.Takes (site.slice blank) ended := spans
    rw [spans.eq other]
    exact passes
  obtain ⟨yields, moved⟩ := takes.comes_to behaves
  simp only [Site.deeds, List.filterMap_cons, List.filterMap_nil, Site.deed?, one, two, three, four,
    Option.map_some] at yields moved
  obtain ⟨first, _, rfl, handed, _, _, rfl, rfl, _, _, rfl, rfl, _, _, rfl, rfl, rfl⟩ := yields
  obtain rfl := moved
  rw [slice_of_groupIs takes paren four, List.append_nil]
  rcases handed with ⟨nothing, _⟩ | ⟨_, reads⟩
  · rw [nothing] at ends
    cases ends
  · exact .signature _ reads ends unmarked blanks

/-- The form of a rule of the root state shows what it comes to. -/
theorem rootTurn_of_form (form : isRootRule rule = true) (anchored : rule.regex.anchored = true)
    (takes : rule.Takes inner site piece rest tokens moves) :
    RootTurn inner piece rest tokens moves := by
  simp only [isRootRule, Bool.or_eq_true] at form
  rcases form with ((plain | opening) | accesses) | heads
  · unfold isPlain at plain
    split at plain
    · rename_i kind behaves
      obtain ⟨rfl, rfl⟩ := emit_of_takes behaves anchored takes
      exact .plain (by simpa using plain)
    · cases plain
  · obtain ⟨entry, listed, opens⟩ := List.any_eq_true.mp opening
    exact opens_of_takes listed opens anchored takes
  · exact access_of_takes accesses takes
  · exact signature_of_takes heads takes

end Turns

end TableLexer.Java
