/-
**What a search learns.**

A search with a memo finds what a run of the plan finds, when its memo is right: when it knows only of points
and positions from which the search fails.

* `Plan.Explains`: a set of points and positions holds of the points of a plan exactly where the search
  from them fails.
* `Plan.agrees_through`, `Plan.agrees_rounds`: what holds of a search in a loop.
* `Plan.agrees_explore`: with such a set and a memo that knows only of its members, the search finds what
  the run finds, and what it learns are members again.
-/

import TableLexer.Pattern.Run
import TableLexer.Pattern.Search

namespace TableLexer.Pattern

namespace Memo

/-- The memo knows only what is dead. -/
def Sound (dead : Nat → Nat → Prop) (memo : Memo) : Prop :=
  ∀ point offset, memo.knows point offset = true → dead point offset

theorem sound_blank (dead : Nat → Nat → Prop) : blank.Sound dead := by
  intro point offset known
  simp [knows_blank] at known

theorem Sound.noteFailure {dead : Nat → Nat → Prop} {memo : Memo} (sound : memo.Sound dead)
    {point offset : Nat} (failing : dead point offset) : (memo.noteFailure point offset).Sound dead := by
  intro other position known
  rw [Memo.noteFailure] at known
  split at known
  · rw [knows_insert, Bool.or_eq_true, decide_eq_true_eq] at known
    rcases known with ⟨rfl, rfl⟩ | known
    · exact failing
    · exact sound _ _ known
  · exact sound _ _ known

end Memo

namespace Outcome

/-- The outcome of a search is that of a run, and what it has learned is right. -/
inductive Agrees (dead : Nat → Nat → Prop) : Outcome → Option Place → Prop where
  | found (place : Place) : Agrees dead (.found place) (some place)
  | failed (memo : Memo) (sound : memo.Sound dead) : Agrees dead (.failed memo) none

/-- What an attempt gives with every memo that is right. -/
def AgreesFrom (dead : Nat → Nat → Prop) (attempt : Memo → Outcome) (result : Option Place) : Prop :=
  ∀ memo : Memo, memo.Sound dead → Agrees dead (attempt memo) result

variable {dead : Nat → Nat → Prop}

theorem AgreesFrom.orElse {first second : Memo → Outcome} {one other : Option Place}
    (first_agrees : AgreesFrom dead first one) (second_agrees : AgreesFrom dead second other) :
    AgreesFrom dead (fun memo => (first memo).orElse second) (one.orElse fun _ => other) := by
  intro memo sound
  cases outcome : first memo with
  | found place =>
    have agrees := first_agrees memo sound
    rw [outcome] at agrees
    cases agrees
    show Agrees dead ((first memo).orElse second) _
    rw [outcome]
    exact .found place
  | failed learned =>
    have agrees := first_agrees memo sound
    rw [outcome] at agrees
    cases agrees with
    | failed _ learned_sound =>
      show Agrees dead ((first memo).orElse second) _
      rw [outcome]
      exact second_agrees learned learned_sound

theorem AgreesFrom.inOrder (greedy : Bool) {first second : Memo → Outcome} {one other : Option Place}
    (first_agrees : AgreesFrom dead first one) (second_agrees : AgreesFrom dead second other) :
    AgreesFrom dead (inOrder greedy first second) (Plan.preferred greedy one other) := by
  cases greedy
  · exact second_agrees.orElse first_agrees
  · exact first_agrees.orElse second_agrees

theorem AgreesFrom.fromPoint {point offset : Nat} {attempt : Memo → Outcome} {result : Option Place}
    (meaning : dead point offset ↔ result = none) (agrees : AgreesFrom dead attempt result) :
    AgreesFrom dead (fromPoint point offset attempt) result := by
  intro memo sound
  rw [Outcome.fromPoint]
  split
  · rename_i known
    rw [meaning.mp (sound _ _ known)]
    exact .failed memo sound
  · have attempted := agrees memo sound
    cases outcome : attempt memo with
    | found place =>
      rw [outcome] at attempted
      exact attempted
    | failed learned =>
      rw [outcome] at attempted
      cases attempted with
      | failed _ learned_sound => exact .failed _ (learned_sound.noteFailure (meaning.mpr rfl))

end Outcome

namespace Plan

/-! ### Places of a text -/

/-- The place is one of the text. -/
def Within (text : List Char) (place : Place) : Prop :=
  ∃ front, text = front ++ place.rest ∧ place.offset = Text.byteLength front ∧
    place.before = front.getLast?

variable {text : List Char}

theorem within_start : Within text (.start text) := ⟨[], rfl, rfl, rfl⟩

theorem Within.advance {place : Place} (within : Within text place) {c : Char} {rest : List Char}
    (ahead : place.rest = c :: rest) : Within text (place.advance c rest) := by
  obtain ⟨front, whole, offset, _⟩ := within
  refine ⟨front ++ [c], ?_, ?_, ?_⟩
  · rw [whole, ahead]
    simp [Place.advance]
  · simp [Place.advance, offset, Text.byteLength_append, Text.byteLength]
  · simp [Place.advance]

theorem Within.after? {place ended : Place} {word : List Char} (within : Within text place)
    (found : place.after? word = some ended) : Within text ended := by
  induction word generalizing place with
  | nil =>
    simp only [Place.after?, Option.some.injEq] at found
    exact found ▸ within
  | cons c word ih =>
    rw [Place.after?] at found
    split at found
    · simp at found
    · rename_i d rest ahead
      split at found
      · rename_i same
        exact ih (within.advance (same ▸ ahead)) found
      · simp at found

theorem Within.afterOne? {place ended : Place} {set : CharSet} (within : Within text place)
    (found : place.afterOne? set = some ended) : Within text ended := by
  rw [Place.afterOne?] at found
  split at found
  · simp at found
  · rename_i c rest ahead
    split at found
    · simp only [Option.some.injEq] at found
      exact found ▸ within.advance ahead
    · simp at found

/-! ### A search with a memo -/

/-- `dead` holds of the points of the plan exactly where the search from them fails, when `next` follows
the plan. A plan with gates has no such description. -/
def Explains (text : List Char) (dead : Nat → Nat → Prop) :
    Plan → (Place → Option Place) → Prop
  | empty, _ | literal _, _ | one _, _ | look _, _ => True
  | gate _, _ => False
  | seq first second, next =>
    first.Explains text dead (second.run next) ∧ second.Explains text dead next
  | alt point first second, next =>
    (∀ place, Within text place →
      (dead point place.offset ↔ (alt point first second).run next place = none)) ∧
    first.Explains text dead next ∧ second.Explains text dead next
  | many point greedy set, next =>
    ∀ place, Within text place →
      (dead point place.offset ↔ (many point greedy set).run next place = none)
  | loop point greedy body, next =>
    (∀ place, Within text place →
      (dead point place.offset ↔ (loop point greedy body).run next place = none)) ∧
    body.consumes = true ∧ body.Explains text dead ((loop point greedy body).run next)
  | group index body, next =>
    ∀ start, body.Explains text dead fun ended => next (ended.close index start)

theorem agrees_goOn {dead : Nat → Nat → Prop} {next : Search} {plain : Place → Option Place}
    {place : Option Place}
    (follows : ∀ ended, place = some ended → Outcome.AgreesFrom dead (next ended) (plain ended)) :
    Outcome.AgreesFrom dead (goOn next place) (place.bind plain) := by
  intro memo sound
  cases place with
  | none => exact .failed memo sound
  | some ended => exact follows ended rfl memo sound

theorem agrees_through {dead : Nat → Nat → Prop} {next : Search} {plain : Place → Option Place}
    {point : Nat} {greedy : Bool} {set : CharSet}
    (explained : (many point greedy set).Explains text dead plain) {ahead : List Char} {place : Place}
    (here : place.rest = ahead) (within : Within text place)
    (follows : ∀ ended, Within text ended → ended.rest.length ≤ ahead.length →
      Outcome.AgreesFrom dead (next ended) (plain ended)) :
    Outcome.AgreesFrom dead (through point greedy set next ahead place)
      (runThrough greedy set plain ahead place) := by
  induction ahead generalizing place with
  | nil =>
    have meaning := explained place within
    rw [run, here] at meaning
    exact .fromPoint meaning (follows place within (by simp [here]))
  | cons c rest ih =>
    have meaning := explained place within
    rw [run, here] at meaning
    have stop := follows place within (by simp [here])
    have more := ih rfl (within.advance here) fun ended ended_within shorter =>
      follows ended ended_within (by simp only [List.length_cons]; omega)
    rw [through]
    refine .fromPoint meaning ?_
    rw [runThrough]
    split
    · exact more.inOrder greedy stop
    · exact stop

/-- The rounds of a loop find what a run of the loop finds, if the body does so whatever follows it. A
round takes a character, so that no more of them are needed than characters are left. -/
theorem agrees_rounds {dead : Nat → Nat → Prop} {next : Search} {plain : Place → Option Place}
    {point : Nat} {greedy : Bool} {body : Plan} (takes : body.consumes = true)
    (meaning : ∀ place, Within text place →
      (dead point place.offset ↔ (loop point greedy body).run plain place = none))
    (body_agrees : ∀ {next : Search} {place : Place}, Within text place →
      (∀ ended, Within text ended → body.MayEndAt place ended →
        Outcome.AgreesFrom dead (next ended) ((loop point greedy body).run plain ended)) →
      Outcome.AgreesFrom dead (body.explore next place)
        (body.run ((loop point greedy body).run plain) place))
    {unread : List Char} {place : Place} (short : place.rest.length ≤ unread.length)
    (within : Within text place)
    (follows : ∀ ended, Within text ended → ended.rest.length ≤ place.rest.length →
      Outcome.AgreesFrom dead (next ended) (plain ended)) :
    Outcome.AgreesFrom dead (rounds point greedy body.explore next unread place)
      ((loop point greedy body).run plain place) := by
  -- The induction is on the text that bounds the rounds; where it ends, the text at the place has ended.
  induction unread generalizing place with
  | nil =>
    have exhausted : place.rest = [] := List.length_eq_zero_iff.mp (Nat.le_zero.mp short)
    refine .fromPoint (meaning place within) ?_
    rw [run_loop_of_rest_eq_nil point greedy body plain exhausted]
    exact follows place within (Nat.le_refl _)
  | cons c unread ih =>
    refine .fromPoint (meaning place within) ?_
    rw [run_loop takes]
    refine .inOrder greedy (body_agrees within fun ended ended_within reached => ?_)
      (follows place within (Nat.le_refl _))
    exact ih (Nat.le_of_lt_succ (Nat.lt_of_lt_of_le (reached.2 takes) short)) ended_within
      fun later later_within shorter =>
        follows later later_within (Nat.le_trans shorter reached.1)

/-- A search with a memo that is right finds what a run finds, and what it learns is right. -/
theorem agrees_explore (plan : Plan) {dead : Nat → Nat → Prop} {next : Search}
    {plain : Place → Option Place} (explained : plan.Explains text dead plain) {place : Place}
    (within : Within text place)
    (follows : ∀ ended, Within text ended → plan.MayEndAt place ended →
      Outcome.AgreesFrom dead (next ended) (plain ended)) :
    Outcome.AgreesFrom dead (plan.explore next place) (plan.run plain place) := by
  induction plan generalizing next plain place with
  | empty => exact follows place within (mayEndAt_refl rfl place)
  | gate => exact explained.elim
  | literal word =>
    rw [run]
    exact agrees_goOn fun ended found =>
      follows ended (within.after? found) (mayEndAt_after? found)
  | one set =>
    rw [run]
    exact agrees_goOn fun ended found =>
      follows ended (within.afterOne? found) (mayEndAt_afterOne? found)
  | look assertion =>
    intro memo sound
    rw [run, explore]
    split
    · exact follows place within (mayEndAt_refl rfl place) memo sound
    · exact .failed memo sound
  | seq first second first_ih second_ih =>
    rw [run]
    refine first_ih explained.1 within fun middle middle_within front => ?_
    exact second_ih explained.2 middle_within fun ended ended_within back =>
      follows ended ended_within (front.seq back)
  | alt point first second first_ih second_ih =>
    obtain ⟨meaning, first_explained, second_explained⟩ := explained
    refine .fromPoint (meaning place within) ?_
    rw [run]
    exact .orElse
      (first_ih first_explained within fun ended ended_within ends =>
        follows ended ended_within ends.altFirst)
      (second_ih second_explained within fun ended ended_within ends =>
        follows ended ended_within ends.altSecond)
  | many point greedy set =>
    rw [run]
    exact agrees_through explained rfl within fun ended ended_within shorter =>
      follows ended ended_within (mayEndAt_of_le rfl shorter)
  | loop point greedy body ih =>
    obtain ⟨meaning, takes, body_explained⟩ := explained
    exact agrees_rounds takes meaning (ih body_explained) (Nat.le_refl _) within
      fun ended ended_within shorter => follows ended ended_within (mayEndAt_of_le rfl shorter)
  | group index body ih =>
    exact ih (explained place.offset) within fun ended ended_within reached =>
      follows _ ended_within reached

end Plan

end TableLexer.Pattern
