/-
**Which rule is chosen, and the token that it makes.**

A state chooses the first of its rules that matches more than nothing, so whether a rule is chosen is settled by
the patterns that are described before it. A rule that makes its match a token, and enters a state at most, sends
the sink one token and moves the cursor behind it, or fails because the sink refuses the token.

* `State.exists_select`, `State.select_eq_none_iff`: what a state chooses, by what describes its rules.
* `Lexer.MakesToken`, `makesToken_of_select`: a step that makes one token.
* `Lexer.Stalls`, `stalls_iff`: a step for which no rule is chosen.
-/

import TableLexer.Proofs.Pattern.Openings
import TableLexer.Proofs.Scan.BrokenOff
import TableLexer.Proofs.Table.Described

namespace TableLexer

open Step
open Pattern (Match Regex)

/-! ### The first rule that matches -/

/-- The rule that is described matches nothing of the text, or the empty text. -/
def RuleSource.PassesOver (flags : Pattern.Flags) (text : List Char) (source : RuleSource) : Prop :=
  ∀ regex, Regex.compile? flags source.pattern = some regex → regex.PassesOver text

section Choice

variable {flags : Pattern.Flags} {names : List String} {text : List Char}
  {sources front later : List RuleSource} {source : RuleSource} {rules : List Rule} {state : State}

/-- What is described passes a text over if its pattern does. -/
theorem RuleSource.passesOver_iff {regex : Regex} (compiled : Regex.compile? flags source.pattern = some regex) :
    source.PassesOver flags text ↔ regex.PassesOver text :=
  ⟨fun passes => passes regex compiled,
    fun passes _ compiled_too => Option.some.inj (compiled.symm.trans compiled_too) ▸ passes⟩

theorem RuleSource.passesOver_of_none {regex : Regex} (compiled : Regex.compile? flags source.pattern = some regex)
    (missing : regex.find? text = none) : source.PassesOver flags text :=
  (passesOver_iff compiled).mpr (Regex.passesOver_of_none missing)

/-- Rules that match nothing, or the empty text, are passed over. -/
theorem selectFrom_of_passed (passed : ∀ rule ∈ rules, rule.regex.PassesOver text) (others : List Rule)
    (index : Nat) : selectFrom text index (rules ++ others) = selectFrom text (index + rules.length) others := by
  induction rules generalizing index with
  | nil => rfl
  | cons rule rest ih =>
    obtain ⟨here, later⟩ := List.forall_mem_cons.mp passed
    have place : index + (rule :: rest).length = index + 1 + rest.length := by
      rw [List.length_cons]
      omega
    rw [List.cons_append, selectFrom, place]
    cases outcome : rule.regex.find? text with
    | none => exact ih later (index + 1)
    | some found =>
      dsimp only
      rw [if_pos (here found outcome)]
      exact ih later (index + 1)

/-- No rule is chosen if all are passed over. -/
theorem select_eq_none (passed : ∀ rule ∈ state.rules, rule.regex.PassesOver text) : state.select text = none := by
  have all := selectFrom_of_passed passed [] 0
  rwa [List.append_nil] at all

/-- Rules pass a text over if what describes them does. -/
theorem forall_passesOver_iff (each : List.Forall₂ (Rule.Describes flags names) sources rules) :
    (∀ rule ∈ rules, rule.regex.PassesOver text) ↔ ∀ source ∈ sources, source.PassesOver flags text := by
  induction each with
  | nil => exact ⟨fun _ _ member => absurd member List.not_mem_nil, fun _ _ member => absurd member List.not_mem_nil⟩
  | cons describes _ ih =>
    rw [List.forall_mem_cons, List.forall_mem_cons, RuleSource.passesOver_iff describes.compiled, ih]

/-- A rule is chosen if it matches more than nothing, and those that are described before it do not. -/
theorem State.exists_select {regex : Regex} {found : Match}
    (each : List.Forall₂ (Rule.Describes flags names) (front ++ source :: later) state.rules)
    (passed : ∀ other ∈ front, other.PassesOver flags text)
    (compiled : Regex.compile? flags source.pattern = some regex)
    (find?_found : regex.find? text = some found) (some_bytes : found.length ≠ 0) :
    ∃ rule, state.select text = some ⟨front.length, rule, found⟩ ∧
      Rule.Describes flags names source rule := by
  have before := List.forall₂_take front.length each
  have after := List.forall₂_drop front.length each
  rw [List.take_left' rfl] at before
  rw [List.drop_left' rfl] at after
  obtain ⟨rule, others, describes, _, rest⟩ := List.forall₂_cons_left_iff.mp after
  refine ⟨rule, ?_, describes⟩
  have same : rule.regex = regex := Option.some.inj (describes.compiled.symm.trans compiled)
  rw [State.select, ← List.take_append_drop front.length state.rules, rest,
    selectFrom_of_passed ((forall_passesOver_iff before).mpr passed), ← before.length_eq, Nat.zero_add, selectFrom,
    same, find?_found]
  exact if_neg some_bytes

/-- No rule is chosen if all that are described pass the text over. -/
theorem State.select_eq_none_iff
    (each : List.Forall₂ (Rule.Describes flags names) sources state.rules) :
    state.select text = none ↔ ∀ source ∈ sources, source.PassesOver flags text := by
  rw [← forall_passesOver_iff each]
  exact ⟨length_eq_zero_of_select, select_eq_none⟩

end Choice

/-! ### One token -/

section Token

variable {σ : Type} {engine : Engine σ} {lexer : Lexer} {run : Run σ} {kind : Kind} {piece rest text : List Char}
  {moves : List StackMove} {selection : Selection}

/-- The behaviour makes the match one token of the kind, and makes the moves, which cannot fail. -/
inductive Behavior.Makes (kind : Kind) : Behavior StateId → List StackMove → Prop
  | emit : Makes kind (.emit kind) []
  | emitAndPush (state : StateId) : Makes kind (.emitAndPush kind state) [.enter state]

/-- The step from `run` makes the piece one token of the kind, leaves the rest of the text, and makes the moves
on the stack. If the sink refuses the token, the step fails with its message, and moves nothing. -/
def Lexer.MakesToken (engine : Engine σ) (lexer : Lexer) (run : Run σ) (kind : Kind)
    (piece rest : List Char) (moves : List StackMove) : Prop :=
  match engine.emitter.emit ⟨kind, String.ofList piece⟩ run.world.sink with
  | .ok _ sink =>
    ∃ next, lexer.step engine run = .ok () next ∧ next.world.sink = sink ∧
      next.scan.cursor = run.scan.cursor + Text.byteLength piece ∧ next.scan.ahead = some rest ∧
      run.scan.stack.replay? moves = some next.scan.stack
  | .error message sink =>
    ∃ after, lexer.step engine run = .error (.emit message) after ∧ after.world.sink = sink ∧
      SamePlace run after ∧ after.scan.stack = run.scan.stack

namespace Step

variable {nested : Option (NestedRun σ)} {site : Site} {here : Run σ} {behavior : Behavior StateId}
  {message : String} {sink : σ}

/-- A behaviour that makes a token sends it, and makes its moves. -/
theorem exists_of_makes (makes : behavior.Makes kind moves) (some_text : site.whole ≠ [])
    (takes : engine.emitter.emit ⟨kind, String.ofList site.whole⟩ here.world.sink = .ok () sink) :
    ∃ last, perform engine nested site behavior here = .ok () last ∧ last.world.sink = sink ∧
      SamePlace here last ∧ here.scan.stack.replay? moves = some last.scan.stack := by
  cases makes with
  | emit =>
    exact ⟨_, emit_of_ok some_text takes, rfl, ⟨rfl, rfl⟩, rfl⟩
  | emitAndPush state =>
    exact ⟨_, (bind_of_ok (emit_of_ok some_text takes)).trans rfl, rfl, ⟨rfl, rfl⟩, rfl⟩

/-- A behaviour that makes a token fails where the sink refuses it. -/
theorem perform_of_makes_error (makes : behavior.Makes kind moves) (some_text : site.whole ≠ [])
    (refuses : engine.emitter.emit ⟨kind, String.ofList site.whole⟩ here.world.sink =
      .error message sink) :
    perform engine nested site behavior here =
      .error (.emit message) ⟨here.scan, { here.world with sink }⟩ := by
  cases makes with
  | emit => exact emit_of_error some_text refuses
  | emitAndPush state => exact bind_of_error (emit_of_error some_text refuses)

end Step

/-- A step for which a rule is chosen that makes its match a token makes it a token. -/
theorem makesToken_of_select (ahead : run.scan.ahead = some (piece ++ rest)) (some_piece : piece ≠ [])
    (selects : (lexer.table.state run.scan.stack.top).select (piece ++ rest) = some selection)
    (makes : selection.rule.behavior.Makes kind moves)
    (first : selection.found.span = ⟨0, Text.byteLength piece⟩) :
    lexer.MakesToken engine run kind piece rest moves := by
  obtain ⟨before, _, scan, same, steps⟩ := exists_step_eq_perform ahead selects
  let site : Site := lexer.site run.scan (piece ++ rest) selection
  have whole : site.whole = piece := by
    show Text.slice (piece ++ rest) selection.found.span.start selection.found.span.stop = piece
    rw [first]
    simpa [Text.byteLength] using Text.slice_append [] piece rest
  have some_text : site.whole ≠ [] := by rwa [whole]
  have length : selection.found.length = Text.byteLength piece := by
    rw [Match.length, first]
    rfl
  have place : before.scan.cursor = run.scan.cursor ∧ before.scan.ahead = run.scan.ahead ∧
      before.scan.stack = run.scan.stack := by
    rw [scan]
    exact ⟨rfl, rfl, rfl⟩
  obtain ⟨cursor, still_ahead, stack⟩ := place
  unfold Lexer.MakesToken
  split
  · rename_i sink takes
    obtain ⟨last, performed, sent, stays, moved⟩ := exists_of_makes makes some_text (by rwa [whole, same])
    refine ⟨_, steps.trans ((bind_of_ok performed).trans rfl), sent, ?_, ?_, stack ▸ moved⟩
    · show last.scan.cursor + selection.found.length = _
      rw [length, stays.1, cursor]
    · show last.scan.ahead.bind (Text.dropBytes? · selection.found.length) = some rest
      rw [length, stays.2, still_ahead, ahead]
      exact Text.dropBytes?_byteLength_append piece rest
  · rename_i message sink refuses
    have refused : perform engine (nestedRun engine (lexer.levelsLeft engine)) site selection.rule.behavior
        before = .error (.emit message) ⟨before.scan, { before.world with sink }⟩ :=
      perform_of_makes_error makes some_text (by rwa [whole, same])
    exact ⟨_, steps.trans (bind_of_error refused), rfl, ⟨cursor, still_ahead⟩, stack⟩

/-- A step for which no rule is chosen fails with a stall under the strict policy. -/
theorem step_of_select_none (strict : engine.options.stall = .strict) (ahead : run.scan.ahead = some text)
    (stalled : (lexer.table.state run.scan.stack.top).select text = none) :
    lexer.step engine run =
      .error (.stall (lexer.base + run.scan.cursor) (lexer.table.state run.scan.stack.top).name)
        run.counted := by
  unfold Lexer.step
  rw [step_of_ahead ahead, stalled]
  dsimp only [stall]
  rw [strict]
  rfl

/-- No rule is chosen for the text, and under the strict policy the step from `run` fails with a stall. -/
structure Lexer.Stalls (engine : Engine σ) (lexer : Lexer) (run : Run σ) (text : List Char) : Prop where
  unmatched : (lexer.table.state run.scan.stack.top).select text = none
  fails : engine.options.stall = .strict → lexer.step engine run =
    .error (.stall (lexer.base + run.scan.cursor) (lexer.table.state run.scan.stack.top).name) run.counted

/-- The scan stalls where no rule is chosen. -/
theorem stalls_of_select_none (ahead : run.scan.ahead = some text)
    (stalled : (lexer.table.state run.scan.stack.top).select text = none) :
    lexer.Stalls engine run text :=
  ⟨stalled, fun strict => step_of_select_none strict ahead stalled⟩

/-- The scan stalls where no rule of the state matches more than the empty text, and nowhere else. -/
theorem stalls_iff (ahead : run.scan.ahead = some text) : lexer.Stalls engine run text ↔
    ∀ rule ∈ (lexer.table.state run.scan.stack.top).rules, rule.regex.PassesOver text :=
  ⟨fun stalls => length_eq_zero_of_select stalls.unmatched,
    fun passes => stalls_of_select_none ahead (select_eq_none passes)⟩

end Token

end TableLexer
