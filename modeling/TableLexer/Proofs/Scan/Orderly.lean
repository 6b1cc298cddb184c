/-
**Orderly tables.**

In an orderly table every pattern has an anchor in front, the root state is never left and only enters
states that enter no other, and there is a character without which no rule hands text on: the patterns
of the rules that do so need it, and what they hand on, to the same table, does not have it.

* `ends_step`: a step keeps the stack to one of two shapes, and fails by a stall or by a token that the
  emitter refuses only.
-/

import TableLexer.Proofs.Pattern.Chars
import TableLexer.Proofs.Scan.Deeds

namespace TableLexer

open Step

/-! ### Orderly tables -/

/-- The action makes a token, or hands text on to the same table: then the pattern needs the character, and
the text that is handed on does not have it. -/
def Action.guardedBy (c : Char) (regex : Pattern.Regex) : Action StateId → Bool
  | .emit _ _ => true
  | .delegate group target => target == .current && regex.plan.needs c && regex.groupAvoids c group
  | .push _ | .pop => false

/-- The pattern has an anchor in front, and all composite actions of the rule are guarded. -/
def Rule.guardedBy (c : Char) (rule : Rule) : Bool :=
  rule.regex.anchored &&
    match rule.behavior with
    | .composite actions => actions.all (·.guardedBy c rule.regex)
    | .delegate _ => false
    | .emit _ | .emitAndPush _ _ | .emitAndPop _ => true

/-- The behaviour does not leave the state, and enters one of the given states at most. -/
def Behavior.staysOrEnters (leaves : List StateId) : Behavior StateId → Bool
  | .emitAndPush _ state => leaves.contains state
  | .emitAndPop _ => false
  | _ => true

/-- The behaviour enters no state. -/
def Behavior.staysOrLeaves : Behavior StateId → Bool
  | .emitAndPush _ _ => false
  | _ => true

/-- The root state is never left and enters the given states only, which enter no other; and no rule hands
text on without the character. -/
structure Table.Orderly (table : Table) (c : Char) (leaves : List StateId) : Prop where
  guarded : ∀ rule ∈ table.rules, rule.guardedBy c = true
  root : ∀ rule ∈ (table.state table.root).rules, rule.behavior.staysOrEnters leaves = true
  leaf : ∀ leaf ∈ leaves, ∀ rule ∈ (table.state leaf).rules, rule.behavior.staysOrLeaves = true

/-- Whether the table is orderly. -/
def Table.orderlyByForm (table : Table) (c : Char) (leaves : List StateId) : Bool :=
  table.rules.all (·.guardedBy c) &&
    (table.state table.root).rules.all (·.behavior.staysOrEnters leaves) &&
    leaves.all fun leaf => (table.state leaf).rules.all (·.behavior.staysOrLeaves)

theorem Table.orderly_of_form {table : Table} {c : Char} {leaves : List StateId}
    (form : table.orderlyByForm c leaves = true) : table.Orderly c leaves := by
  obtain ⟨rules, leaf⟩ := (Bool.and_eq_true _ _).mp form
  obtain ⟨guarded, root⟩ := (Bool.and_eq_true _ _).mp rules
  exact ⟨List.all_eq_true.mp guarded, List.all_eq_true.mp root, fun state known =>
    List.all_eq_true.mp (List.all_eq_true.mp leaf state known)⟩

/-- The stack holds the root state alone, or one of the given states on top of it. -/
def Table.Upright (table : Table) (leaves : List StateId) (stack : StateStack) : Prop :=
  stack = .new table.root ∨ ∃ leaf ∈ leaves, stack = (StateStack.new table.root).push leaf

/-- The emitter takes every token from this state on: there are states, this one among them, in which it
takes any token and comes to another of them. -/
def Emitter.NeverFails {σ : Type} (emitter : Emitter σ) (sink : σ) : Prop :=
  ∃ sinks : σ → Prop, sinks sink ∧ ∀ token before, sinks before →
    ∃ after, emitter.emit token before = .ok () after ∧ sinks after

/-- A collector without a limit takes every token. -/
theorem Collector.neverFails {collector : Collector} (unlimited : collector.limit = none) :
    Collector.emitter.NeverFails collector := by
  refine ⟨fun other => other.limit = none, unlimited, fun token before unlimited => ?_⟩
  have room : before.hasRoom = true := by
    unfold Collector.hasRoom
    rw [unlimited]
    rfl
  exact ⟨{ before with tokens := before.tokens.push token }, if_pos room, unlimited⟩

/-- The engine fails in the allowed ways only: its emitter, from states of the given kind on, which it does
not leave, and by its policy where no rule is chosen. -/
structure Engine.Serves {σ : Type} (engine : Engine σ) (allowed : ScanError → Prop)
    (sinks : σ → Prop) : Prop where
  emit : ∀ token sink, sinks sink →
    (∃ after, engine.emitter.emit token sink = .ok () after ∧ sinks after) ∨
      ∃ message after, engine.emitter.emit token sink = .error message after ∧
        allowed (.emit message) ∧ sinks after
  stall : engine.options.stall = .strict → ∀ offset state, allowed (.stall offset state)

namespace Step

variable {σ α β : Type} {allowed : ScanError → Prop} {sinks : σ → Prop} {good better : Run σ → Prop}

/-! ### How parts of a step end -/

/-- What ended with the given result ended well or in an allowed error, and has come to a good state. -/
inductive Ends (allowed : ScanError → Prop) (good : Run σ → Prop) :
    EStateM.Result ScanError (Run σ) α → Prop where
  | ok {a : α} {after : Run σ} (fine : good after) : Ends allowed good (.ok a after)
  | error {error : ScanError} {after : Run σ} (expected : allowed error) (fine : good after) :
      Ends allowed good (.error error after)

theorem Ends.mono {result : EStateM.Result ScanError (Run σ) α} (ends : Ends allowed good result)
    (weaker : ∀ after, good after → better after) : Ends allowed better result := by
  cases ends with
  | ok fine => exact .ok (weaker _ fine)
  | error expected fine => exact .error expected (weaker _ fine)

theorem Ends.bind {part : StepM σ α} {rest : α → StepM σ β} {run : Run σ}
    (ends : Ends allowed good (part run)) (weaker : ∀ after, good after → better after)
    (goesOn : ∀ a after, good after → Ends allowed better (rest a after)) :
    Ends allowed better ((part >>= rest) run) := by
  show Ends allowed better (EStateM.bind part rest run)
  unfold EStateM.bind
  generalize part run = result at ends
  cases ends with
  | ok fine => exact goesOn _ _ fine
  | error expected fine => exact .error expected (weaker _ fine)

/-- The stack is the given one, no nested run was deeper than the bound, and the emitter is in a state of
the given kind. -/
structure Calm (sinks : σ → Prop) (bound : Nat) (stack : StateStack) (run : Run σ) : Prop where
  stack : run.scan.stack = stack
  shallow : run.scan.metrics.maxDepth ≤ bound
  sink : sinks run.world.sink

/-- The part leaves the stack as it was and nests no deeper than the bound. -/
def Quiet (allowed : ScanError → Prop) (sinks : σ → Prop) (bound : Nat) (part : StepM σ α) : Prop :=
  ∀ run stack, Calm sinks bound stack run → Ends allowed (Calm sinks bound stack) (part run)

variable {bound : Nat}

theorem Quiet.pure (a : α) : Quiet allowed sinks bound (pure a : StepM σ α) :=
  fun _ _ calm => .ok calm

theorem Quiet.bind {part : StepM σ α} {rest : α → StepM σ β} (one : Quiet allowed sinks bound part)
    (other : ∀ a, Quiet allowed sinks bound (rest a)) : Quiet allowed sinks bound (part >>= rest) := by
  intro run stack calm
  exact (one run stack calm).bind (fun _ calm => calm) fun a after calm => other a after stack calm

theorem quiet_note (record : Record) : Quiet allowed sinks bound (note record : StepM σ Unit) :=
  fun _ _ calm => .ok ⟨calm.stack, calm.shallow, calm.sink⟩

theorem quiet_count {change : Metrics → Metrics}
    (same : ∀ metrics, (change metrics).maxDepth = metrics.maxDepth) :
    Quiet allowed sinks bound (count change : StepM σ Unit) := by
  intro run stack calm
  exact .ok ⟨calm.stack, (same run.scan.metrics).symm ▸ calm.shallow, calm.sink⟩

variable {engine : Engine σ}

theorem quiet_emit (serves : engine.Serves allowed sinks) (kind : Kind) (text : List Char) :
    Quiet allowed sinks bound (emit engine kind text) := by
  unfold emit
  split
  · exact .pure ()
  · refine .bind (fun run stack calm => ?_) fun _ => quiet_count fun _ => rfl
    rcases serves.emit ⟨kind, String.ofList text⟩ run.world.sink calm.sink with
      ⟨sink, taken, fine⟩ | ⟨message, sink, refused, expected, fine⟩
    · rw [taken]
      exact .ok ⟨calm.stack, calm.shallow, fine⟩
    · rw [refused]
      exact .error expected ⟨calm.stack, calm.shallow, fine⟩

/-! ### Nested runs -/

/-- Nested runs of the table on texts without the character end well, if they are no deeper than the
bound. -/
def NestedEnds (allowed : ScanError → Prop) (sinks : σ → Prop) (table : Table) (c : Char) (bound : Nat)
    (nested : NestedRun σ) : Prop :=
  ∀ child text world, child.table = table → child.depth ≤ bound → c ∉ text → sinks world.sink →
    Ends allowed (fun ended => ended.scan.metrics.maxDepth ≤ bound ∧ sinks ended.world.sink)
      (nested child text world)

variable {nested : Option (NestedRun σ)} {lexer : Lexer} {c : Char}

theorem quiet_runNested {run : NestedRun σ}
    (ends : NestedEnds allowed sinks lexer.table c bound run) {child : Lexer}
    (same : child.table = lexer.table) (deeper : child.depth ≤ bound) {text : List Char}
    (missing : c ∉ text) : Quiet allowed sinks bound (runNested run child text) := by
  intro outer stack calm
  have inner := ends child text outer.world same deeper missing calm.sink
  unfold runNested
  dsimp only
  have absorbed {ended : Run σ}
      (fine : ended.scan.metrics.maxDepth ≤ bound ∧ sinks ended.world.sink) :
      Calm sinks bound stack
        { scan := outer.scan.count (·.absorb ended.scan.metrics child.depth)
          world := ended.world : Run σ } :=
    ⟨calm.stack, Nat.max_le.mpr ⟨Nat.max_le.mpr ⟨calm.shallow, deeper⟩, fine.1⟩, fine.2⟩
  generalize run child text outer.world = result at inner
  cases inner with
  | ok fine => exact .ok (absorbed fine)
  | error expected fine => exact .error expected (absorbed fine)

theorem quiet_delegate {run : NestedRun σ} (ends : NestedEnds allowed sinks lexer.table c bound run)
    (deeper : lexer.depth < bound) {text : List Char} (missing : c ∉ text) (offset : Nat) :
    Quiet allowed sinks bound (delegate engine (some run) lexer .current text offset) := by
  unfold delegate
  split
  · exact .pure ()
  · rw [resolve, pure_bind]
    let child : Lexer := ⟨lexer.table, lexer.depth + 1, offset⟩
    have same : child.table = lexer.table := rfl
    exact .bind (quiet_note _) fun _ => quiet_runNested ends same deeper missing

/-! ### Behaviours -/

/-- Where the text has the character, runs may nest one level deeper, and nested runs end well. -/
def MayNest (allowed : ScanError → Prop) (sinks : σ → Prop) (lexer : Lexer) (c : Char) (bound : Nat)
    (text : List Char) (nested : Option (NestedRun σ)) : Prop :=
  c ∈ text → lexer.depth < bound ∧
    ∃ run, nested = some run ∧ NestedEnds allowed sinks lexer.table c bound run

variable {site : Site} {regex : Pattern.Regex}

theorem quiet_act (serves : engine.Serves allowed sinks)
    (may : MayNest allowed sinks site.lexer c bound site.text nested)
    (found : regex.find? site.text = some site.found) {action : Action StateId}
    (guarded : action.guardedBy c regex = true) :
    Quiet allowed sinks bound (act engine nested site action) := by
  cases action with
  | emit group kind =>
    rw [act]
    split
    · exact .pure ()
    · exact quiet_emit serves _ _
  | delegate group target =>
    simp only [Action.guardedBy, Bool.and_eq_true, beq_iff_eq] at guarded
    obtain ⟨⟨rfl, needs⟩, avoids⟩ := guarded
    rw [act]
    split
    · exact .pure ()
    · rename_i span participates
      obtain ⟨deeper, run, rfl, ends⟩ := may (regex.mem_of_needs needs found)
      have missing : c ∉ site.slice span := regex.not_mem_of_groupAvoids avoids found participates
      exact quiet_delegate ends deeper missing _
  | push | pop => cases guarded

theorem quiet_actAll (serves : engine.Serves allowed sinks)
    (may : MayNest allowed sinks site.lexer c bound site.text nested)
    (found : regex.find? site.text = some site.found) {actions : List (Action StateId)}
    (guarded : ∀ action ∈ actions, action.guardedBy c regex = true) :
    Quiet allowed sinks bound (actAll engine nested site actions) := by
  induction actions with
  | nil => exact .pure ()
  | cons action rest ih =>
    refine .bind (quiet_act serves may found (guarded action List.mem_cons_self)) fun _ => ?_
    exact ih fun other member => guarded other (List.mem_cons_of_mem action member)

/-- The stack is upright, no nested run was deeper than the bound, and the emitter is in a state of the
given kind. -/
structure Balanced (sinks : σ → Prop) (table : Table) (leaves : List StateId) (bound : Nat)
    (run : Run σ) : Prop where
  upright : table.Upright leaves run.scan.stack
  shallow : run.scan.metrics.maxDepth ≤ bound
  sink : sinks run.world.sink

variable {leaves : List StateId} {table : Table}

theorem Balanced.calm {run : Run σ} (balanced : Balanced sinks table leaves bound run) :
    Calm sinks bound run.scan.stack run := ⟨rfl, balanced.shallow, balanced.sink⟩

theorem Balanced.of_calm {run after : Run σ} (balanced : Balanced sinks table leaves bound run)
    (calm : Calm sinks bound run.scan.stack after) : Balanced sinks table leaves bound after :=
  ⟨calm.stack.symm ▸ balanced.upright, calm.shallow, calm.sink⟩

/-- The rules of the topmost state keep the stack upright. -/
theorem ends_perform (site : Site) (orderly : site.lexer.table.Orderly c leaves)
    (serves : engine.Serves allowed sinks)
    (may : MayNest allowed sinks site.lexer c bound site.text nested) {run : Run σ}
    (balanced : Balanced sinks site.lexer.table leaves bound run) {rule : Rule}
    (member : rule ∈ (site.lexer.table.state run.scan.stack.top).rules)
    (found : rule.regex.find? site.text = some site.found) :
    Ends allowed (Balanced sinks site.lexer.table leaves bound)
      (perform engine nested site rule.behavior run) := by
  have still (after : Run σ) (calm : Calm sinks bound run.scan.stack after) := balanced.of_calm calm
  have guarded := orderly.guarded rule (Table.mem_rules member)
  unfold Rule.guardedBy at guarded
  obtain ⟨_, behaves⟩ := (Bool.and_eq_true _ _).mp guarded
  -- A rule that enters a state is one of the root state, and one that leaves its state is not.
  cases behavior : rule.behavior with
  | emit kind => exact (quiet_emit serves kind _ run _ balanced.calm).mono still
  | emitAndPush kind state =>
    refine (quiet_emit serves kind _ run _ balanced.calm).bind still fun _ after calm => .ok ?_
    rcases balanced.upright with alone | ⟨leaf, known, stack⟩
    · have enters := orderly.root rule (by rwa [alone] at member)
      rw [behavior] at enters
      refine ⟨.inr ⟨state, List.contains_iff_mem.mp enters, ?_⟩, calm.shallow, calm.sink⟩
      show after.scan.stack.push state = _
      rw [calm.stack, alone]
    · have enters := orderly.leaf leaf known rule (by rwa [stack] at member)
      rw [behavior] at enters
      cases enters
  | emitAndPop kind =>
    refine (quiet_emit serves kind _ run _ balanced.calm).bind still fun _ after calm => ?_
    rcases balanced.upright with alone | ⟨leaf, known, stack⟩
    · have stays := orderly.root rule (by rwa [alone] at member)
      rw [behavior] at stays
      cases stays
    · have popped : after.scan.stack.pop? = some (leaf, .new site.lexer.table.root) := by
        rw [calm.stack, stack]
        rfl
      unfold pop
      rw [popped]
      exact .ok ⟨.inl rfl, calm.shallow, calm.sink⟩
  | delegate target =>
    rw [behavior] at behaves
    cases behaves
  | composite actions =>
    rw [behavior] at behaves
    have quiet := quiet_actAll serves may found (List.all_eq_true.mp behaves)
    exact (quiet run _ balanced.calm).mono still

/-! ### Steps -/

/-- The run is balanced, and an end of the text is ahead. -/
structure Settled (sinks : σ → Prop) (table : Table) (leaves : List StateId) (bound : Nat)
    (text : List Char) (run : Run σ) : Prop where
  balanced : Balanced sinks table leaves bound run
  ahead : ∃ rest, run.scan.ahead = some rest ∧ rest <:+ text

variable {text here : List Char}

/-- What keeps the run balanced and leaves the cursor where it is may be followed by a move of the
cursor. -/
theorem ends_advance {part : StepM σ Unit} {piece rest : List Char} {run : Run σ}
    (ends : Ends allowed (Balanced sinks table leaves bound) (part run)) (stays : Stays part)
    (ahead : run.scan.ahead = some (piece ++ rest)) (suffix : piece ++ rest <:+ text) :
    Ends allowed (Settled sinks table leaves bound text)
      ((part >>= fun _ => changeScan (·.advance (Text.byteLength piece))) run) := by
  have place := stays run
  show Ends allowed _ (EStateM.bind part _ run)
  unfold EStateM.bind
  generalize part run = result at ends place
  cases ends with
  | @ok a after balanced =>
    have same : after.scan.ahead = some (piece ++ rest) := place.2.trans ahead
    refine .ok ⟨⟨balanced.upright, balanced.shallow, balanced.sink⟩, rest, ?_,
      (List.suffix_append piece rest).trans suffix⟩
    show after.scan.ahead.bind _ = some rest
    rw [same]
    exact Text.dropBytes?_byteLength_append piece rest
  | error expected balanced =>
    exact .error expected ⟨balanced, piece ++ rest, place.2.trans ahead, suffix⟩

theorem ends_stall (serves : engine.Serves allowed sinks) {state : State} {origin : Nat} {run : Run σ}
    (balanced : Balanced sinks table leaves bound run) (some_char : here ≠ [])
    (ahead : run.scan.ahead = some here) (suffix : here <:+ text) :
    Ends allowed (Settled sinks table leaves bound text)
      (stall engine lexer state origin here run) := by
  cases policy : engine.options.stall with
  | strict =>
    unfold stall
    rw [policy]
    exact .error (serves.stall policy origin state.name) ⟨balanced, here, ahead, suffix⟩
  | lenient =>
    cases here with
    | nil => exact absurd rfl some_char
    | cons c rest =>
      have quiet : Quiet allowed sinks bound (skip engine lexer state origin c) :=
        .bind (quiet_note _) fun _ => .bind (quiet_emit serves _ _) fun _ => quiet_count fun _ => rfl
      have ends := (quiet run _ balanced.calm).mono fun _ calm => balanced.of_calm calm
      have front : run.scan.ahead = some ([c] ++ rest) := ahead
      rw [stall_eq_skip policy]
      exact ends_advance ends stays_skip front suffix

/-- What a step does for a choice of the topmost state ends well. -/
theorem ends_carryOut (orderly : lexer.table.Orderly c leaves) (serves : engine.Serves allowed sinks)
    (may : MayNest allowed sinks lexer c bound here nested) {run : Run σ} (origin : Nat)
    (balanced : Balanced sinks lexer.table leaves bound run) {selection : Selection}
    (chosen : (lexer.table.state run.scan.stack.top).select here = some selection) :
    Ends allowed (Balanced sinks lexer.table leaves bound)
      (carryOut engine nested lexer (lexer.table.state run.scan.stack.top) origin here selection
        run) := by
  obtain ⟨member, found, _⟩ := exists_of_select chosen
  let site : Site := { lexer, origin, text := here, found := selection.found }
  unfold carryOut
  by_cases traced : engine.options.trace
  · rw [if_pos traced]
    refine (quiet_note _ run _ balanced.calm).bind (fun _ calm => balanced.of_calm calm) ?_
    intro _ after calm
    exact ends_perform site orderly serves may (balanced.of_calm calm) (calm.stack ▸ member) found
  · rw [if_neg traced]
    exact ends_perform site orderly serves may balanced member found

theorem ends_follow (orderly : lexer.table.Orderly c leaves) (serves : engine.Serves allowed sinks)
    (may : MayNest allowed sinks lexer c bound here nested) (run : Run σ) {origin : Nat}
    (balanced : Balanced sinks lexer.table leaves bound run) {selection : Selection}
    (chosen : (lexer.table.state run.scan.stack.top).select here = some selection)
    (ahead : run.scan.ahead = some here) (suffix : here <:+ text) :
    Ends allowed (Settled sinks lexer.table leaves bound text)
      (follow engine nested lexer (lexer.table.state run.scan.stack.top) origin here selection
        run) := by
  obtain ⟨member, found, _⟩ := exists_of_select chosen
  let site : Site := { lexer, origin, text := here, found := selection.found }
  have guarded := orderly.guarded _ (Table.mem_rules member)
  unfold Rule.guardedBy at guarded
  obtain ⟨anchored, _⟩ := (Bool.and_eq_true _ _).mp guarded
  have starts := Pattern.Regex.start_of_find? anchored found
  obtain ⟨last, whole, length⟩ := whole_of_find? site found starts
  have split : here = site.whole ++ last := whole
  have front : run.scan.ahead = some (site.whole ++ last) := ahead.trans (congrArg some split)
  have length : selection.found.length = Text.byteLength site.whole := length
  rw [split] at suffix
  have moves := ends_advance (ends_carryOut orderly serves may origin balanced chosen) stays_carryOut
    front suffix
  rw [← length] at moves
  rw [follow_eq]
  exact moves

/-- A step before the end of the text ends well. -/
theorem ends_step (orderly : lexer.table.Orderly c leaves) (serves : engine.Serves allowed sinks)
    (may : ∀ here, here <:+ text → MayNest allowed sinks lexer c bound here nested) {run : Run σ}
    (settled : Settled sinks lexer.table leaves bound text run)
    (unfinished : run.scan.isDone = false) :
    Ends allowed (Settled sinks lexer.table leaves bound text) (step engine nested lexer run) := by
  obtain ⟨balanced, here, ahead, suffix⟩ := settled
  have counted : Balanced sinks lexer.table leaves bound run.counted :=
    ⟨balanced.upright, balanced.shallow, balanced.sink⟩
  rw [step_of_ahead ahead]
  split
  · exact ends_stall serves counted (Scan.ne_nil_of_ahead ahead unfinished) ahead suffix
  · rename_i selection chosen
    exact ends_follow orderly serves (may here suffix) run.counted counted chosen ahead suffix

end Step

end TableLexer
