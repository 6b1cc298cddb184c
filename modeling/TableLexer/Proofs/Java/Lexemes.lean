/-
**What the states are described by.**

Which rule a state of the language chooses is settled by the patterns of the rules that are described for it, in
their order. Most of them match nothing of a text that begins with another character; a rule of a vocabulary
matches the whole word with which the text begins, or nothing.

* `describes_root`, `describes_class`, `describes_import`: what describes the rules of the states.
* `passesOver_of_opensWith`: a rule that passes a text over because of its first character.
* `makes_of_describes`: what a rule makes of its match.
* `InRoot.makesToken`, `InRoot.stalls`: a step from the root state.
* `find?_vocabulary`, `passesOver_vocabulary`: what the rules of the vocabularies match.
-/

import TableLexer.Proofs.Java.Reserved
import TableLexer.Proofs.Scan.Chosen

namespace TableLexer.Java

open Pattern (CharTest Match Node Regex)

/-! ### The states -/

/-- The names of the states that are described. -/
def describedNames : List String := source.states.map Prod.fst

variable {table : Table} {id : StateId}

section States

/-- The states of a table that was built have the names that are described. -/
theorem stateId?_of_build (built : Java.table = .ok table) (name : String) :
    table.stateId? name = stateIndex? describedNames name := by
  obtain ⟨_, _, _, each⟩ := Table.build_eq_ok_iff.mp (show Table.build descriptor source = .ok table from built)
  unfold Table.stateId?
  rw [State.names_eq (fun _ _ described => described.name) each]
  rfl

/-- The rules of the root state, and those that are described for it. -/
theorem describes_root (built : Java.table = .ok table) :
    List.Forall₂ (Rule.Describes source.flags describedNames) rootRules (table.state table.root).rules := by
  have described : Table.build descriptor source = .ok table := built
  rw [root_of_build described]
  exact (Table.describes_of_build described ⟨0⟩).rules

theorem describes_class (built : Java.table = .ok table) (called : table.stateId? classState = some id) :
    List.Forall₂ (Rule.Describes source.flags describedNames) classRules (table.state id).rules := by
  have described : Table.build descriptor source = .ok table := built
  have place : stateIndex? describedNames classState = some ⟨1⟩ := by decide
  rw [stateId?_of_build built, place] at called
  cases called
  exact (Table.describes_of_build described ⟨1⟩).rules

theorem describes_import (built : Java.table = .ok table) (called : table.stateId? importState = some id) :
    List.Forall₂ (Rule.Describes source.flags describedNames) importRules (table.state id).rules := by
  have described : Table.build descriptor source = .ok table := built
  have place : stateIndex? describedNames importState = some ⟨2⟩ := by decide
  rw [stateId?_of_build built, place] at called
  cases called
  exact (Table.describes_of_build described ⟨2⟩).rules

end States

/-! ### First characters -/

/-- What the rule matches begins with a character that passes the test, unless it is nothing. -/
def opensWith (test : CharTest) (described : RuleSource) : Bool :=
  (Regex.compile? source.flags described.pattern).all fun regex =>
    regex.anchored && regex.plan.opensWith test

/-- A rule passes over a text that begins with another character than what it matches. -/
theorem passesOver_of_opensWith {test : CharTest} {described : RuleSource} {text : List Char}
    (opens : opensWith test described = true) (other : text.head?.any test.passes = false) :
    described.PassesOver source.flags text := by
  intro regex compiled
  unfold opensWith at opens
  rw [compiled, Option.all_some, Bool.and_eq_true] at opens
  exact Regex.passesOver_of_opensWith opens.1 opens.2 other

/-! ### Tokens -/

/-- The behaviour that makes a token of the kind and enters a state of this name, if there is one. -/
def making (kind : Kind) : Option String → Behavior String
  | none => .emit kind
  | some state => .emitAndPush kind state

/-- The moves that enter the state of this name, if there is one. -/
inductive Enters (table : Table) : Option String → List StackMove → Prop
  | nothing : Enters table none []
  | state {name : String} {id : StateId} (called : table.stateId? name = some id) :
      Enters table (some name) [.enter id]

/-- A rule that is described so makes a token. -/
theorem makes_of_describes (built : Java.table = .ok table) {described : RuleSource} {rule : Rule}
    {kind : Kind} {entered : Option String} (describes : Rule.Describes source.flags describedNames described rule)
    (behaves : described.behavior = making kind entered) :
    ∃ moves, Enters table entered moves ∧ rule.behavior.Makes kind moves := by
  have alike := describes.behavior
  rw [behaves] at alike
  generalize rule.behavior = behavior at alike
  cases entered with
  | none =>
    cases alike with
    | emit => exact ⟨[], .nothing, .emit⟩
  | some name =>
    cases alike with
    | @emitAndPush _ _ id same =>
      exact ⟨[.enter id], .state ((stateId?_of_build built name).trans same), .emitAndPush id⟩

/-- The lexer stands before the text in the root state of the table. -/
structure InRoot {σ : Type} (table : Table) (lexer : Lexer) (run : Run σ) (text : List Char) : Prop where
  uses : lexer.table = table
  top : run.scan.stack.top = table.root
  ahead : run.scan.ahead = some text

section InRoot

variable {σ : Type} {engine : Engine σ} {lexer : Lexer} {run : Run σ} {text piece rest : List Char}
  {front later : List RuleSource} {described : RuleSource}

/-- In the root state, the first rule that does not pass over the text makes a token of what it matches. -/
theorem InRoot.makesToken (built : Java.table = .ok table) (there : InRoot table lexer run (piece ++ rest))
    (order : rootRules = front ++ described :: later)
    (passed : ∀ other ∈ front, other.PassesOver source.flags (piece ++ rest)) {regex : Regex}
    (compiled : Regex.compile? source.flags described.pattern = some regex) (some_piece : piece ≠ [])
    (find?_found : regex.find? (piece ++ rest) = some (.ofFirst piece)) {kind : Kind}
    {entered : Option String} (behaves : described.behavior = making kind entered) :
    ∃ moves, Enters table entered moves ∧ lexer.MakesToken engine run kind piece rest moves := by
  have each := describes_root built
  rw [order] at each
  have some_bytes : (Match.ofFirst piece).length ≠ 0 := Nat.ne_of_gt (Text.byteLength_pos some_piece)
  obtain ⟨rule, selects, describes⟩ := State.exists_select each passed compiled find?_found some_bytes
  obtain ⟨moves, enters, makes⟩ := makes_of_describes built describes behaves
  rw [← there.top, ← there.uses] at selects
  exact ⟨moves, enters, makesToken_of_select there.ahead some_piece selects makes rfl⟩

/-- In the root state, a rule that enters none makes a token of what it matches. -/
theorem InRoot.makesPlainToken (built : Java.table = .ok table)
    (there : InRoot table lexer run (piece ++ rest)) (order : rootRules = front ++ described :: later)
    (passed : ∀ other ∈ front, other.PassesOver source.flags (piece ++ rest)) {regex : Regex}
    (compiled : Regex.compile? source.flags described.pattern = some regex) (some_piece : piece ≠ [])
    (find?_found : regex.find? (piece ++ rest) = some (.ofFirst piece)) {kind : Kind}
    (behaves : described.behavior = .emit kind) :
    lexer.MakesToken engine run kind piece rest [] := by
  have behaves : described.behavior = making kind none := behaves
  obtain ⟨_, ⟨⟩, makes⟩ :=
    there.makesToken built order passed compiled some_piece find?_found behaves
  exact makes

/-- In the root state, the scan stalls where all rules pass over the text. -/
theorem InRoot.stalls (built : Java.table = .ok table) (there : InRoot table lexer run text)
    (passed : ∀ other ∈ rootRules, other.PassesOver source.flags text) : lexer.Stalls engine run text := by
  have stalled := (State.select_eq_none_iff (describes_root built)).mpr passed
  rw [← there.top, ← there.uses] at stalled
  exact stalls_of_select_none there.ahead stalled

end InRoot

/-! ### Vocabularies -/

/-- The name of the state that is entered behind the word, if one is. -/
def entered? (word : String) : Option String :=
  if ["class", "interface"].contains word then some classState
  else if word == "import" then some importState
  else none

/-- The rules of the vocabularies. -/
def vocabularyRules : List RuleSource := (rootRules.drop 5).take 7

/-- The rule is described for the vocabulary. -/
structure Reads (described : RuleSource) (entry : List String × Kind) : Prop where
  compiled : Regex.compile? source.flags described.pattern = some (.ofNode (wordsNode entry.1))
  behavior : ∀ word ∈ entry.1, described.behavior = making entry.2 (entered? word)

theorem reads_vocabularies : List.Forall₂ Reads vocabularyRules vocabularies := by
  have behaviors : List.Forall₂ (fun (described : RuleSource) (entry : List String × Kind) =>
      ∀ word ∈ entry.1, described.behavior = making entry.2 (entered? word))
      vocabularyRules vocabularies := by
    decide +kernel
  exact List.Forall₂.mp (fun _ _ behavior reads => ⟨reads.1, behavior⟩) behaviors compile?_vocabularies

section Vocabulary

variable {described : RuleSource} {entry : List String × Kind} {word : String} {text rest : List Char}

/-- The letters of the word with which a text begins stand in front of it. -/
theorem takeWhile_inWord (inside : ∀ c ∈ word.toList, inWord c = true)
    (behind : rest.head?.any Text.isWordChar = false) :
    (word.toList ++ rest).takeWhile inWord = word.toList ∧ (word.toList ++ rest).dropWhile inWord = rest := by
  have no_letter : rest.head?.any inWord = false := by
    cases rest with
    | nil => rfl
    | cons c more =>
      rw [Bool.eq_false_iff]
      intro letter
      have wide : Text.isWordChar c = false := behind
      rw [isWordChar_of_inWord letter] at wide
      cases wide
  rw [List.takeWhile_append_of_pos inside, List.dropWhile_append_of_pos inside]
  cases rest with
  | nil => simp
  | cons c more =>
    have other : inWord c = false := no_letter
    simp [other]

/-- The rule of a vocabulary matches a word of it with which the text begins, if no other word character
follows. -/
theorem find?_vocabulary (listed : entry ∈ vocabularies) (member : word ∈ entry.1)
    (behind : rest.head?.any Text.isWordChar = false) :
    (Regex.ofNode (wordsNode entry.1)).find? (word.toList ++ rest) = some (.ofFirst word.toList) :=
  (find?_words_iff fun _ => inWord_of_reserved listed).mpr ⟨word, member, rest, rfl, behind, rfl⟩

/-- The rule of a vocabulary passes over a text that begins with another word, or with one that goes on. -/
theorem passesOver_vocabulary (reads : Reads described entry) (listed : entry ∈ vocabularies)
    (other : String.ofList (text.takeWhile inWord) ∈ entry.1 →
      (text.dropWhile inWord).head?.any Text.isWordChar = true) :
    described.PassesOver source.flags text := by
  refine (RuleSource.passesOver_iff reads.compiled).mpr fun found find?_found => ?_
  obtain ⟨word, member, rest, rfl, behind, _⟩ :=
    (find?_words_iff fun _ => inWord_of_reserved listed).mp find?_found
  obtain ⟨taken, left⟩ := takeWhile_inWord (inWord_of_reserved listed member).2 behind
  rw [taken, left, String.ofList_toList] at other
  rw [other member] at behind
  cases behind

end Vocabulary

end TableLexer.Java
