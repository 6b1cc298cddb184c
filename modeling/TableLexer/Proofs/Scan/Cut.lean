/-
**A sink that fails.**

A sink that takes so many tokens and no more cuts off what a run would emit, and changes nothing before
that. Wherever the refused token was emitted, be it in a nested run, among the actions of a rule or for a
skipped character, the run ends at once, with the message of the sink.

* `Emitter.TakesJust`: a sink that takes so many tokens.
* `failing_sink_cuts_run`: what a run into such a sink emits, and how it ends.
-/

import TableLexer.Proofs.Scan.Watched

namespace TableLexer

open Step

variable {σ : Type}

/-- The sink takes so many tokens, whichever they are, and refuses the next. -/
def Emitter.TakesJust (emitter : Emitter σ) : Nat → σ → Prop
  | 0, sink => ∀ token, ∃ message after, emitter.emit token sink = .error message after
  | n + 1, sink => ∀ token, ∃ after, emitter.emit token sink = .ok () after ∧ TakesJust emitter n after

/-- A list with room for so many more tokens takes these. -/
theorem Collector.takesJust {collector : Collector} {n : Nat}
    (limit : collector.limit = some (collector.tokens.size + n)) : emitter.TakesJust n collector := by
  induction n generalizing collector with
  | zero =>
    intro token
    have full : ¬ collector.hasRoom = true := by simp [hasRoom, limit]
    exact ⟨collector.refusal, collector, if_neg full⟩
  | succ n ih =>
    intro token
    have room : collector.hasRoom = true := by simp [hasRoom, limit]
    refine ⟨_, if_pos room, ih ?_⟩
    rw [limit, Array.size_push]
    exact congrArg some (by omega)

/-- A sink that took all tokens that it was sent takes so many fewer. -/
theorem Emitter.TakesJust.of_feed {emitter : Emitter σ} {n : Nat} {sink after : σ} {tokens : List Token}
    (takes : emitter.TakesJust n sink) (fed : emitter.feed tokens sink = .ok () after) :
    ∃ left, n = tokens.length + left ∧ emitter.TakesJust left after := by
  induction tokens generalizing n sink with
  | nil =>
    cases fed
    exact ⟨n, (Nat.zero_add n).symm, takes⟩
  | cons token rest ih =>
    cases n with
    | zero =>
      obtain ⟨message, refusing, refuses⟩ := takes token
      rw [feed_cons_of_error refuses] at fed
      cases fed
    | succ n =>
      obtain ⟨middle, taken, fewer⟩ := takes token
      rw [feed_cons_of_ok taken] at fed
      obtain ⟨left, rfl, last⟩ := ih fewer fed
      exact ⟨left, by rw [List.length_cons]; omega, last⟩

/-- The run into a sink that takes `n` tokens emits the first `n` of the tokens that the run into a list
emits. If these are all, it ends as that run does, with the same counters; and if there are more, it ends
with the message with which the sink refuses the next one, and offers nothing more. -/
theorem failing_sink_cuts_run {engine : Engine σ} {world : World σ} {n : Nat}
    (takes : engine.emitter.TakesJust n world.sink) (lexer : Lexer) (text : List Char) :
    let all := lexer.drive (.collecting engine.registry engine.options)
      ⟨.start lexer.table text, world.collecting⟩
    let tokens := (endOf all).world.sink.tokens.toList
    let cut := lexer.drive engine ⟨.start lexer.table text, world⟩
    let watched := lexer.drive engine.watched ⟨.start lexer.table text, world.watched⟩
    (ending watched = ending cut ∧ (endOf watched).world.sink.sink = (endOf cut).world.sink) ∧
      (endOf watched).world.sink.taken = tokens.take n ∧
      (tokens.length ≤ n → ending cut = ending all ∧
        (endOf watched).world.sink.answers = Watched.takings tokens) ∧
      (n < tokens.length → ∃ token message, tokens[n]? = some token ∧
        (ending cut).1 = some (.emit message) ∧
        (endOf watched).world.sink.answers =
          Watched.takings (tokens.take n) ++ [(token, some message)]) := by
  intro all tokens cut watched
  have same : ending watched = ending cut ∧ _ := watched_drive engine lexer text world
  refine ⟨same, ?_⟩
  rcases answers_of_drive engine lexer text world with
    ⟨sink, fed, ends, answers⟩ |
    ⟨front, token, rest, middle, message, sink, split, fed, refuses, ends, answers⟩
  · obtain ⟨left, enough, _⟩ := takes.of_feed fed
    have all_taken : tokens.take n = tokens := List.take_of_length_le (enough ▸ Nat.le_add_right _ left)
    refine ⟨?_, fun _ => ⟨same.1.symm.trans ends, congrArg Watched.answers answers⟩, fun more => ?_⟩
    · rw [all_taken]
      exact Watched.taken_of_takings (congrArg Watched.answers answers)
    · exact absurd more (Nat.not_lt.mpr (enough ▸ Nat.le_add_right _ left))
  · -- A sink that takes more tokens would not refuse this one.
    obtain ⟨left, enough, last⟩ := takes.of_feed fed
    cases left with
    | succ left =>
      obtain ⟨_, taken, _⟩ := last token
      cases taken.symm.trans refuses
    | zero =>
      have here : tokens = front ++ token :: rest := split
      have first : tokens.take n = front := by rw [here, enough]; exact List.take_left
      have next : tokens[n]? = some token := by
        rw [here, enough]
        exact List.getElem?_append_right (Nat.le_refl _) |>.trans (by simp)
      refine ⟨?_, fun few => ?_, fun _ => ⟨token, message, next, ?_, ?_⟩⟩
      · rw [first]
        exact Watched.taken_of_refusal (congrArg Watched.answers answers)
      · rw [here, List.length_append, List.length_cons] at few
        omega
      · rw [← same.1]
        exact ends
      · rw [first]
        exact congrArg Watched.answers answers

/-- The third token is refused, in a nested run. -/
theorem failing_sink_cuts_run_of_sample :
    ∃ table token message, Sample.numbered.build = .ok table ∧
      let engine : Engine Collector := .collecting Sample.registry {}
      let world : World Collector := { sink := { limit := some 2 } }
      let all := ({ table } : Lexer).drive engine ⟨.start table "12abc".toList, world.collecting⟩
      let watched := ({ table } : Lexer).drive engine.watched
        ⟨.start table "12abc".toList, world.watched⟩
      engine.emitter.TakesJust 2 world.sink ∧ 2 < (endOf all).world.sink.tokens.toList.length ∧
        (ending watched).1 = some (.emit message) ∧
        (endOf watched).world.sink.answers =
          Watched.takings ((endOf all).world.sink.tokens.toList.take 2) ++ [(token, some message)] := by
  have checked : (Sample.numbered.build.toOption.any fun table =>
      let all := ({ table } : Lexer).drive (.collecting Sample.registry {})
        ⟨.start table "12abc".toList, { sink := {} }⟩
      decide (2 < (endOf all).world.sink.tokens.toList.length)) = true := by decide +kernel
  cases build : Sample.numbered.build with
  | error => rw [build] at checked; cases checked
  | ok table =>
    rw [build] at checked
    let engine : Engine Collector := .collecting Sample.registry {}
    let world : World Collector := { sink := { limit := some 2 } }
    have takes : engine.emitter.TakesJust 2 world.sink := Collector.takesJust rfl
    have more := of_decide_eq_true checked
    obtain ⟨same, _, _, cuts⟩ :=
      failing_sink_cuts_run takes ({ table } : Lexer) "12abc".toList
    obtain ⟨token, message, _, refused, answers⟩ := cuts more
    exact ⟨table, token, message, rfl, takes, more, same.1 ▸ refused, answers⟩

end TableLexer
