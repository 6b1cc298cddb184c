/-
**What a sink makes of a run.**

A run does not look at its sink, except that it ends when the sink refuses a token. So the run into a sink
is the run into a list without a limit as long as the sink takes the tokens of that list, one after
another; and it ends where the sink refuses the first of them.

* `Emitter.feed`: a list of tokens sent to a sink.
* `Lockstep.fed`: runs into a sink and into a list go in lockstep.
* `drive_eq_feed`: a run feeds its sink the tokens of the list.
-/

import TableLexer.Proofs.Scan.Lockstep
import TableLexer.Proofs.Scan.Writes

namespace TableLexer

open Step

variable {σ : Type}

/-! ### Tokens sent to a sink -/

namespace Emitter

/-- Sends tokens in order, up to the first that is refused. -/
def feed (emitter : Emitter σ) : List Token → EStateM String σ Unit
  | [] => pure ()
  | token :: rest => do
    emitter.emit token
    feed emitter rest

variable {emitter : Emitter σ} {token : Token} {first rest : List Token} {sink after : σ}
  {message : String}

theorem feed_cons_of_ok (taken : emitter.emit token sink = .ok () after) :
    emitter.feed (token :: rest) sink = emitter.feed rest after := by
  show EStateM.bind (emitter.emit token) (fun _ => emitter.feed rest) sink = _
  unfold EStateM.bind
  rw [taken]

theorem feed_cons_of_error (refused : emitter.emit token sink = .error message after) :
    emitter.feed (token :: rest) sink = .error message after := by
  show EStateM.bind (emitter.emit token) (fun _ => emitter.feed rest) sink = _
  unfold EStateM.bind
  rw [refused]

theorem feed_append_of_ok (fed : emitter.feed first sink = .ok () after) :
    emitter.feed (first ++ rest) sink = emitter.feed rest after := by
  induction first generalizing sink with
  | nil => cases fed; rfl
  | cons token others ih =>
    cases answer : emitter.emit token sink with
    | ok _ middle =>
      rw [feed_cons_of_ok answer] at fed
      rw [List.cons_append, feed_cons_of_ok answer, ih fed]
    | error => rw [feed_cons_of_error answer] at fed; cases fed

theorem feed_append_of_error (fed : emitter.feed first sink = .error message after) :
    emitter.feed (first ++ rest) sink = .error message after := by
  induction first generalizing sink with
  | nil => cases fed
  | cons token others ih =>
    cases answer : emitter.emit token sink with
    | ok _ middle =>
      rw [feed_cons_of_ok answer] at fed
      rw [List.cons_append, feed_cons_of_ok answer, ih fed]
    | error =>
      rw [feed_cons_of_error answer] at fed
      rw [List.cons_append, feed_cons_of_error answer, fed]

end Emitter

/-! ### Runs into a sink and into a list -/

/-- The world with an empty list for its sink. -/
def World.collecting (world : World σ) : World Collector :=
  { sink := {}, cache := world.cache, log := world.log }

namespace Collector

/-- What a list without a limit is offered, it takes. -/
theorem emit_of_unlimited {collector : Collector} (unlimited : collector.limit = none) (token : Token) :
    emitter.emit token collector = .ok () { collector with tokens := collector.tokens.push token } := by
  have room : collector.hasRoom = true := by
    unfold hasRoom
    rw [unlimited]
    rfl
  exact if_pos room

/-- A list keeps its tokens, whatever it is offered. -/
theorem prefix_after (token : Token) (collector : Collector) :
    collector.tokens.toList <+: (emitter.after token collector).tokens.toList := by
  unfold Emitter.after
  by_cases room : collector.hasRoom
  · have takes : emitter.emit token collector =
        .ok () { collector with tokens := collector.tokens.push token } := if_pos room
    rw [takes]
    exact Array.toList_push ▸ List.prefix_append _ _
  · have refuses : emitter.emit token collector = .error collector.refusal collector := if_neg room
    exact refuses ▸ List.prefix_refl _

end Collector

/-- A run into a sink goes in lockstep with the run into a list, until the sink refuses a token of the
list. -/
def Lockstep.fed (engine : Engine σ) (sink : σ) :
    Lockstep engine (.collecting engine.registry engine.options) where
  deeper := 0
  further := 0
  member _ := True
  placed _ _ := True
  worlds world twin := twin.sink.limit = none ∧
    engine.emitter.feed twin.sink.tokens.toList sink = .ok () world.sink ∧
    world.cache = twin.cache ∧ world.log = twin.log
  parted error world twin := ∃ message, error = .emit message ∧
    engine.emitter.feed twin.sink.tokens.toList sink = .error message world.sink
  drift before after := before.sink.tokens.toList <+: after.sink.tokens.toList
  placement := placement_trivial
  drifts :=
    { refl := fun _ => List.prefix_refl _
      trans := fun one other => one.trans other
      note := fun _ _ => List.prefix_refl _
      offer := fun world token => Collector.prefix_after token world.sink
      lookUp := fun _ _ => List.prefix_refl _ }
  keeps := by
    rintro error world before after ⟨message, same, refused⟩ ⟨more, longer⟩
    exact ⟨message, same, longer ▸ Emitter.feed_append_of_error refused⟩
  limit := engine.maxDepth_le
  exceeds _ fewer := absurd fewer (Nat.lt_irrefl _)
  notes := by
    rintro world twin record ⟨unlimited, fed, cache, log⟩
    refine ⟨unlimited, fed, cache, ?_⟩
    show world.log ++ [record.moved 0 0] = twin.log ++ [record]
    rw [record.moved_zero, log]
  looksUp := by
    rintro world twin name ⟨unlimited, fed, cache, log⟩
    unfold World.table
    rw [cache]
    exact ⟨rfl, ⟨unlimited, fed, rfl, congrArg (· ++ _) log⟩, fun _ _ => trivial⟩
  offers := by
    rintro world twin token ⟨unlimited, fed, cache, log⟩
    have takes : (Engine.collecting engine.registry engine.options).emitter.emit token twin.sink =
        .ok () { twin.sink with tokens := twin.sink.tokens.push token } :=
      Collector.emit_of_unlimited unlimited token
    have next : engine.emitter.feed (twin.sink.tokens.push token).toList sink =
        engine.emitter.feed [token] world.sink := by
      rw [Array.toList_push, Emitter.feed_append_of_ok fed]
    rw [takes]
    cases answer : engine.emitter.emit token world.sink with
    | ok _ after =>
      exact ⟨unlimited, next.trans (Emitter.feed_cons_of_ok answer), cache, log⟩
    | error message after =>
      exact ⟨message, rfl, next.trans (Emitter.feed_cons_of_error answer)⟩
  intends _ _ _ _ _ := .inl (Lexer.intent_moved rfl rfl)

/-- A run feeds its sink the tokens that the run into a list has. If the sink takes all of them, both runs
end in the same way, and else the run ends with the message of the first refusal. -/
theorem drive_eq_feed (engine : Engine σ) (lexer : Lexer) (text : List Char) (world : World σ) :
    let all := lexer.drive (.collecting engine.registry engine.options)
      ⟨.start lexer.table text, world.collecting⟩
    let one := lexer.drive engine ⟨.start lexer.table text, world⟩
    let tokens := (endOf all).world.sink.tokens.toList
    (∀ sink, engine.emitter.feed tokens world.sink = .ok () sink →
      ending one = ending all ∧ (endOf one).world.sink = sink) ∧
    ∀ message sink, engine.emitter.feed tokens world.sink = .error message sink →
      (ending one).1 = some (.emit message) ∧ (endOf one).world.sink = sink := by
  intro all one tokens
  let steps := Lockstep.fed engine world.sink
  have worlds : steps.worlds world world.collecting := ⟨rfl, rfl, rfl, rfl⟩
  have abreast : steps.Abreast one all :=
    @Lockstep.abreast_drive _ _ _ _ steps lexer trivial text trivial _ _ worlds
  show (∀ sink, engine.emitter.feed (endOf all).world.sink.tokens.toList world.sink = _ → _) ∧
    ∀ message sink, engine.emitter.feed (endOf all).world.sink.tokens.toList world.sink = _ → _
  generalize one = result, all = twinResult at abreast
  have same {run : Run σ} {twin : Run Collector} (runs : steps.Runs run twin) :
      run.scan = twin.scan ∧
        engine.emitter.feed twin.world.sink.tokens.toList world.sink = .ok () run.world.sink :=
    ⟨runs.scan.trans twin.scan.deepened_zero, runs.worlds.2.1⟩
  cases abreast with
  | ok runs =>
    obtain ⟨scan, fed⟩ := same runs
    refine ⟨fun sink takes => ?_, fun message sink refuses => nomatch fed.symm.trans refuses⟩
    cases fed.symm.trans takes
    exact ⟨congrArg (none, ·) scan, rfl⟩
  | error error runs =>
    obtain ⟨scan, fed⟩ := same runs
    refine ⟨fun sink takes => ?_, fun message sink refuses => nomatch fed.symm.trans refuses⟩
    cases fed.symm.trans takes
    exact ⟨congrArg₂ (some ·, ·) error.moved_zero scan, rfl⟩
  | parted parts =>
    obtain ⟨refusal, rfl, fed⟩ := parts
    refine ⟨fun sink takes => (nomatch fed.symm.trans takes), fun message sink refuses => ?_⟩
    cases fed.symm.trans refuses
    exact ⟨rfl, rfl⟩

end TableLexer
