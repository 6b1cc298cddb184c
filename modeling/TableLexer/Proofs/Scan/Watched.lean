/-
**Sinks that are watched.**

To see what a sink is offered, and what it answers, it is put behind one that writes both down. Nothing
else about a run changes.

* `Watched`: a sink and its answers.
* `watched_drive`: a run into a watched sink is the run into the sink.
* `feed_watched`: the answers to tokens that are sent to the sink.
* `answers_of_drive`: after a refusal, a run offers nothing more.
* `exists_of_run_ok`: a run that succeeds sends its sink all tokens.
-/

import TableLexer.Proofs.Scan.Fed

namespace TableLexer

open Step

variable {σ : Type}

/-- A sink that is watched. -/
structure Watched (σ : Type) where
  sink : σ
  /-- The tokens that the sink was offered, each with the message with which it was refused, if it was. -/
  answers : List (Token × Option String) := []

namespace Watched

/-- The answers to tokens all of which were taken. -/
def takings (tokens : List Token) : List (Token × Option String) := tokens.map fun token => (token, none)

theorem takings_append (first second : List Token) :
    takings (first ++ second) = takings first ++ takings second :=
  List.map_append

/-- The tokens that were taken. -/
def taken (watched : Watched σ) : List Token :=
  watched.answers.filterMap fun answer => if answer.2.isNone then some answer.1 else none

theorem taken_of_takings {watched : Watched σ} {tokens : List Token}
    (answers : watched.answers = takings tokens) : watched.taken = tokens := by
  unfold taken takings at *
  rw [answers, List.filterMap_map]
  exact List.filterMap_some

theorem taken_of_refusal {watched : Watched σ} {tokens : List Token} {token : Token} {message : String}
    (answers : watched.answers = takings tokens ++ [(token, some message)]) : watched.taken = tokens := by
  have before : Watched.taken ⟨watched.sink, takings tokens⟩ = tokens := taken_of_takings rfl
  unfold taken at *
  rw [answers, List.filterMap_append]
  exact (List.append_nil _).trans before

end Watched

/-- Writes down what the emitter is offered and what it answers. -/
def Emitter.watched (emitter : Emitter σ) : Emitter (Watched σ) where
  emit token := fun watched =>
    match emitter.emit token watched.sink with
    | .ok _ sink => .ok () ⟨sink, watched.answers ++ [(token, none)]⟩
    | .error message sink => .error message ⟨sink, watched.answers ++ [(token, some message)]⟩

/-- The engine with its emitter watched. -/
def Engine.watched (engine : Engine σ) : Engine (Watched σ) :=
  ⟨engine.registry, engine.options, engine.emitter.watched⟩

/-- The world with its sink watched from now on. -/
def World.watched (world : World σ) : World (Watched σ) :=
  { sink := { sink := world.sink }, cache := world.cache, log := world.log }

section Emit

variable {emitter : Emitter σ} {watched : Watched σ} {token : Token} {message : String} {sink : σ}

theorem Emitter.watched_of_ok (takes : emitter.emit token watched.sink = .ok () sink) :
    emitter.watched.emit token watched = .ok () ⟨sink, watched.answers ++ [(token, none)]⟩ := by
  unfold Emitter.watched
  dsimp only
  rw [takes]

theorem Emitter.watched_of_error (refuses : emitter.emit token watched.sink = .error message sink) :
    emitter.watched.emit token watched =
      .error message ⟨sink, watched.answers ++ [(token, some message)]⟩ := by
  unfold Emitter.watched
  dsimp only
  rw [refuses]

end Emit

/-! ### Watching changes nothing -/

/-- A run into a watched sink goes in lockstep with the run into the sink. -/
def Lockstep.watching (engine : Engine σ) : Lockstep engine.watched engine where
  deeper := 0
  further := 0
  member _ := True
  placed _ _ := True
  worlds world twin := world.sink.sink = twin.sink ∧ world.cache = twin.cache
  parted _ _ _ := False
  drift _ _ := True
  placement := placement_trivial
  drifts := World.drift_trivial _
  keeps parted _ := parted
  limit := engine.maxDepth_le
  exceeds _ fewer := absurd fewer (Nat.lt_irrefl _)
  notes _ alike := alike
  looksUp := by
    rintro world twin name ⟨sink, cache⟩
    unfold World.table
    rw [cache]
    exact ⟨rfl, ⟨sink, rfl⟩, fun _ _ => trivial⟩
  offers := by
    rintro world twin token ⟨sink, cache⟩
    unfold Engine.watched Emitter.watched
    dsimp only
    rw [sink]
    cases engine.emitter.emit token twin.sink with
    | ok _ after => exact ⟨rfl, cache⟩
    | error message after => exact ⟨rfl, rfl, cache⟩
  intends _ _ _ _ _ := .inl (Lexer.intent_moved rfl rfl)

/-- A run into a watched sink ends as the run into the sink, and leaves the sink as that does. -/
theorem watched_drive (engine : Engine σ) (lexer : Lexer) (text : List Char) (world : World σ) :
    let watched := lexer.drive engine.watched ⟨.start lexer.table text, world.watched⟩
    let plain := lexer.drive engine ⟨.start lexer.table text, world⟩
    ending watched = ending plain ∧ (endOf watched).world.sink.sink = (endOf plain).world.sink := by
  intro watched plain
  let steps := Lockstep.watching engine
  have worlds : steps.worlds world.watched world := ⟨rfl, rfl⟩
  have abreast : steps.Abreast watched plain :=
    @Lockstep.abreast_drive _ _ _ _ steps lexer trivial text trivial _ _ worlds
  obtain ⟨same, sinks, _⟩ := abreast.ending_eq rfl rfl id
  exact ⟨same, sinks⟩

/-! ### The answers to tokens -/

namespace Watched

variable {emitter : Emitter σ} {watched : Watched σ} {token : Token} {message : String} {sink : σ}

theorem answers_after_of_ok (takes : emitter.emit token watched.sink = .ok () sink) :
    (emitter.watched.after token watched).answers = watched.answers ++ [(token, none)] := by
  unfold Emitter.after
  rw [Emitter.watched_of_ok takes]

theorem answers_after_of_error (refuses : emitter.emit token watched.sink = .error message sink) :
    (emitter.watched.after token watched).answers = watched.answers ++ [(token, some message)] := by
  unfold Emitter.after
  rw [Emitter.watched_of_error refuses]

/-- A watched sink keeps its answers, whatever it is offered. -/
theorem prefix_after (emitter : Emitter σ) (token : Token) (watched : Watched σ) :
    watched.answers <+: (emitter.watched.after token watched).answers := by
  cases answer : emitter.emit token watched.sink with
  | ok => exact answers_after_of_ok answer ▸ List.prefix_append _ _
  | error => exact answers_after_of_error answer ▸ List.prefix_append _ _

/-- The answers only become more. -/
theorem drift_answers (engine : Engine σ) :
    World.Drift engine.watched fun before after => before.sink.answers <+: after.sink.answers where
  refl _ := List.prefix_refl _
  trans one other := one.trans other
  note _ _ := List.prefix_refl _
  offer world token := prefix_after engine.emitter token world.sink
  lookUp _ _ := List.prefix_refl _

theorem taken_prefix {other : Watched σ} (earlier : watched.answers <+: other.answers) :
    watched.taken <+: other.taken :=
  earlier.filterMap _

/-- Where tokens were taken up to a refusal, no refusal comes earlier or later. -/
theorem eq_of_refusal {tokens front : List Token} {refused : Token} {other : String}
    (earlier : takings tokens ++ [(token, some message)] <+:
      takings front ++ [(refused, some other)]) :
    tokens = front ∧ message = other := by
  induction tokens generalizing front with
  | nil =>
    cases front with
    | nil =>
      obtain ⟨same, _⟩ := List.cons_prefix_cons.mp earlier
      cases same
      exact ⟨rfl, rfl⟩
    | cons first rest => cases (List.cons_prefix_cons.mp earlier).1
  | cons first rest ih =>
    cases front with
    | nil => cases (List.cons_prefix_cons.mp earlier).1
    | cons head others =>
      obtain ⟨same, later⟩ := List.cons_prefix_cons.mp earlier
      cases same
      obtain ⟨rfl, messages⟩ := ih later
      exact ⟨rfl, messages⟩

/-- Where all tokens were taken, none was refused. -/
theorem not_prefix_of_refusal {tokens front : List Token} :
    ¬ takings front ++ [(token, some message)] <+: takings tokens := by
  intro earlier
  have member : (token, some message) ∈ takings tokens :=
    earlier.subset (List.mem_append_right _ List.mem_cons_self)
  obtain ⟨_, _, same⟩ := List.mem_map.mp member
  cases same

end Watched

/-- A watched sink takes all tokens that it is sent, or those before the first that it refuses. -/
theorem feed_watched (emitter : Emitter σ) (tokens : List Token) (watched : Watched σ) :
    (∃ sink, emitter.feed tokens watched.sink = .ok () sink ∧
      emitter.watched.feed tokens watched =
        .ok () ⟨sink, watched.answers ++ Watched.takings tokens⟩) ∨
    ∃ front token rest middle message sink, tokens = front ++ token :: rest ∧
      emitter.feed front watched.sink = .ok () middle ∧
      emitter.emit token middle = .error message sink ∧
      emitter.watched.feed tokens watched =
        .error message
          ⟨sink, watched.answers ++ (Watched.takings front ++ [(token, some message)])⟩ := by
  induction tokens generalizing watched with
  | nil =>
    have none_more : watched.answers ++ Watched.takings [] = watched.answers := List.append_nil _
    exact .inl ⟨watched.sink, rfl, none_more.symm ▸ rfl⟩
  | cons token rest ih =>
    cases answer : emitter.emit token watched.sink with
    | ok _ after =>
      have longer (more : List (Token × Option String)) :
          watched.answers ++ [(token, none)] ++ more = watched.answers ++ ((token, none) :: more) :=
        List.append_assoc _ _ _
      rw [Emitter.feed_cons_of_ok (Emitter.watched_of_ok answer)]
      rcases ih ⟨after, watched.answers ++ [(token, none)]⟩ with
        ⟨sink, fed, all⟩ | ⟨front, refused, others, middle, message, sink, rfl, fed, refuses, last⟩
      · refine .inl ⟨sink, (Emitter.feed_cons_of_ok answer).trans fed, ?_⟩
        rw [all, longer]
        rfl
      · refine .inr ⟨token :: front, refused, others, middle, message, sink, rfl,
          (Emitter.feed_cons_of_ok answer).trans fed, refuses, ?_⟩
        rw [last, longer]
        rfl
    | error message after =>
      exact .inr ⟨[], token, rest, watched.sink, message, after, rfl, rfl, answer,
        Emitter.feed_cons_of_error (Emitter.watched_of_error answer)⟩

/-- A sink is offered the tokens of the run into a list. It takes all of them, and the run ends as that one
does; or it refuses the token that follows those that it took, and the run ends with its message and
offers nothing more. -/
theorem answers_of_drive (engine : Engine σ) (lexer : Lexer) (text : List Char) (world : World σ) :
    let all := lexer.drive (.collecting engine.registry engine.options)
      ⟨.start lexer.table text, world.collecting⟩
    let watched := lexer.drive engine.watched ⟨.start lexer.table text, world.watched⟩
    let tokens := (endOf all).world.sink.tokens.toList
    (∃ sink, engine.emitter.feed tokens world.sink = .ok () sink ∧ ending watched = ending all ∧
      (endOf watched).world.sink = ⟨sink, Watched.takings tokens⟩) ∨
    ∃ front token rest middle message sink, tokens = front ++ token :: rest ∧
      engine.emitter.feed front world.sink = .ok () middle ∧
      engine.emitter.emit token middle = .error message sink ∧
      (ending watched).1 = some (.emit message) ∧
      (endOf watched).world.sink =
        ⟨sink, Watched.takings front ++ [(token, some message)]⟩ := by
  intro all watched tokens
  have fed := drive_eq_feed engine.watched lexer text world.watched
  rcases feed_watched engine.emitter tokens world.watched.sink with
    ⟨sink, takes, answers⟩ | ⟨front, token, rest, middle, message, sink, same, takes, refuses, answers⟩
  · obtain ⟨ends, left⟩ := fed.1 _ answers
    exact .inl ⟨sink, takes, ends, left⟩
  · obtain ⟨ends, left⟩ := fed.2 _ _ answers
    exact .inr ⟨front, token, rest, middle, message, sink, same, takes, refuses, ends, left⟩

/-- A run that succeeds sends its sink the tokens that the run into a list collects. -/
theorem exists_of_run_ok {engine : Engine σ} {lexer : Lexer} {text : List Char} {world : World σ}
    {metrics : Metrics} (succeeds : (lexer.run engine text world).result = .ok metrics) :
    ∃ last, lexer.drive (.collecting engine.registry engine.options)
        ⟨.start lexer.table text, world.collecting⟩ = .ok () last ∧
      (endOf (lexer.drive engine.watched ⟨.start lexer.table text, world.watched⟩)).world.sink.taken =
        last.world.sink.tokens.toList := by
  have ends : (ending (lexer.drive engine ⟨.start lexer.table text, world⟩)).1 = none := by
    unfold Lexer.run at succeeds
    split at succeeds
    · rename_i driven
      rw [driven]
      rfl
    · cases succeeds
  rw [← (watched_drive engine lexer text world).1] at ends
  rcases answers_of_drive engine lexer text world with
    ⟨sink, _, same, left⟩ | ⟨_, _, _, _, _, _, _, _, _, refused, _⟩
  · rw [same] at ends
    have taken := Watched.taken_of_takings (congrArg Watched.answers left)
    rw [taken]
    generalize lexer.drive (.collecting engine.registry engine.options) _ = all at ends
    cases all with
    | ok _ last => exact ⟨last, rfl, rfl⟩
    | error => cases ends
  · rw [refused] at ends
    cases ends

end TableLexer
