/-
**What a plan matches.**

`Plan.run` tries what a plan allows in the order of preference, and remembers nothing: it says which match
a plan finds. It can take time exponential in the text, so it is there to be reasoned about.

* `Plan.MayEndAt`: the places that a plan may lead to, by how much text they leave.
* `Plan.run_congr`: a run depends on what follows only at those places.
* `Plan.run_none`: no match ends where nothing that follows matches.
* `Plan.run_loop`: after a round of a loop the loop begins again.
* `Plan.run_alike`: where a run fails depends on where what follows fails.
-/

import TableLexer.Pattern.Place
import TableLexer.Pattern.Plan

namespace TableLexer.Pattern

namespace Place

/-- The places lie at one position; they may differ in what the groups have matched. -/
structure SamePosition (place other : Place) : Prop where
  offset : place.offset = other.offset
  before : place.before = other.before
  rest : place.rest = other.rest

theorem SamePosition.refl (place : Place) : SamePosition place place := ⟨rfl, rfl, rfl⟩

variable {place other : Place}

theorem SamePosition.advance (same : SamePosition place other) (c : Char) (rest : List Char) :
    SamePosition (place.advance c rest) (other.advance c rest) :=
  ⟨by simp [Place.advance, same.offset], rfl, rfl⟩

theorem SamePosition.close (same : SamePosition place other) (index start otherStart : Nat) :
    SamePosition (place.close index start) (other.close index otherStart) :=
  ⟨same.offset, same.before, same.rest⟩

theorem SamePosition.after? (same : SamePosition place other) (text : List Char) :
    (place.after? text = none ∧ other.after? text = none) ∨
      ∃ ended otherEnded, place.after? text = some ended ∧ other.after? text = some otherEnded ∧
        SamePosition ended otherEnded := by
  induction text generalizing place other with
  | nil => exact .inr ⟨place, other, rfl, rfl, same⟩
  | cons c text ih =>
    rw [Place.after?, Place.after?, ← same.rest]
    split
    · exact .inl ⟨rfl, rfl⟩
    · split
      · exact ih (same.advance ..)
      · exact .inl ⟨rfl, rfl⟩

theorem SamePosition.afterOne? (same : SamePosition place other) (set : CharSet) :
    (place.afterOne? set = none ∧ other.afterOne? set = none) ∨
      ∃ ended otherEnded, place.afterOne? set = some ended ∧ other.afterOne? set = some otherEnded ∧
        SamePosition ended otherEnded := by
  rw [Place.afterOne?, Place.afterOne?, ← same.rest]
  split
  · exact .inl ⟨rfl, rfl⟩
  · split
    · exact .inr ⟨_, _, rfl, rfl, same.advance ..⟩
    · exact .inl ⟨rfl, rfl⟩

theorem SamePosition.holds (same : SamePosition place other) (assertion : Assertion) :
    assertion.holds place = assertion.holds other := by
  cases assertion <;>
    simp only [Assertion.holds, afterWordChar, atWordChar, same.offset, same.before, same.rest]

end Place

namespace Plan

open Place (SamePosition)

/-! ### Running a plan -/

/-- The first of two outcomes that is a place, in the order of preference. -/
def preferred (first : Bool) (one other : Option Place) : Option Place :=
  if first then one.orElse fun _ => other else other.orElse fun _ => one

/-- Takes characters of a set, from a place between two of them. -/
def runThrough (greedy : Bool) (set : CharSet) (next : Place → Option Place) :
    List Char → Place → Option Place
  | [], place => next place
  | c :: rest, place =>
    if set.contains c then
      preferred greedy (runThrough greedy set next rest (place.advance c rest)) (next place)
    else next place

/-- Goes round a loop from a place between two rounds, each of which takes a character at least. -/
def runRounds (greedy : Bool) (body : (Place → Option Place) → Place → Option Place)
    (next : Place → Option Place) (place : Place) : Option Place :=
  preferred greedy
    (body (fun ended =>
      if _shorter : ended.rest.length < place.rest.length then runRounds greedy body next ended
      else none) place)
    (next place)
termination_by place.rest.length

/-- Matches the plan at the place and then what follows it. -/
def run : Plan → (Place → Option Place) → Place → Option Place
  | empty, next, place | gate _, next, place => next place
  | literal text, next, place => (place.after? text).bind next
  | one set, next, place => (place.afterOne? set).bind next
  | look assertion, next, place => if assertion.holds place then next place else none
  | seq first second, next, place => first.run (second.run next) place
  | alt _ first second, next, place => preferred true (first.run next place) (second.run next place)
  | many _ greedy set, next, place => runThrough greedy set next place.rest place
  | loop _ greedy body, next, place => runRounds greedy body.run next place
  | group index body, next, place =>
    body.run (fun ended => next (ended.close index place.offset)) place

/-- Every match takes a character, as the form of the plan shows. -/
def consumes : Plan → Bool
  | literal text => !text.isEmpty
  | one _ => true
  | seq first second => first.consumes || second.consumes
  | alt _ first second => first.consumes && second.consumes
  | group _ body => body.consumes
  | empty | look _ | gate _ | many _ _ _ | loop _ _ _ => false

/-! ### What a run depends on -/

theorem preferred_none (first : Bool) (other : Option Place) : preferred first none other = other := by
  cases first <;> cases other <;> rfl

theorem preferred_eq_none_iff (first : Bool) {one other : Option Place} :
    preferred first one other = none ↔ one = none ∧ other = none := by
  cases first <;> cases one <;> cases other <;> simp [preferred]

theorem length_of_after? {text : List Char} {place ended : Place}
    (found : place.after? text = some ended) :
    ended.rest.length + text.length = place.rest.length := by
  induction text generalizing place with
  | nil => simp_all [Place.after?]
  | cons c text ih =>
    rw [Place.after?] at found
    split at found
    · simp at found
    · rename_i d rest ahead
      split at found
      · have shorter := ih found
        simp only [Place.advance] at shorter
        simp only [ahead, List.length_cons]
        omega
      · simp at found

theorem length_of_afterOne? {set : CharSet} {place ended : Place}
    (found : place.afterOne? set = some ended) : ended.rest.length + 1 = place.rest.length := by
  rw [Place.afterOne?] at found
  split at found
  · simp at found
  · rename_i c rest ahead
    split at found
    · simp only [Option.some.injEq] at found
      simp [← found, Place.advance, ahead]
    · simp at found

/-- The places that a plan may lead to from a place: none has more text left, and a plan that takes a
character leaves less. -/
def MayEndAt (plan : Plan) (start ended : Place) : Prop :=
  ended.rest.length ≤ start.rest.length ∧
    (plan.consumes = true → ended.rest.length < start.rest.length)

section

variable {place ended : Place}

theorem mayEndAt_of_le {plan : Plan} (nothing : plan.consumes = false)
    (shorter : ended.rest.length ≤ place.rest.length) : plan.MayEndAt place ended :=
  ⟨shorter, fun takes => by rw [nothing] at takes; cases takes⟩

theorem mayEndAt_refl {plan : Plan} (nothing : plan.consumes = false) (place : Place) :
    plan.MayEndAt place place :=
  mayEndAt_of_le nothing (Nat.le_refl _)

theorem mayEndAt_after? {word : List Char} (found : place.after? word = some ended) :
    (literal word).MayEndAt place ended := by
  have shorter := length_of_after? found
  refine ⟨by omega, fun takes => ?_⟩
  cases word with
  | nil => cases takes
  | cons => simp only [List.length_cons] at shorter; omega

theorem mayEndAt_afterOne? {set : CharSet} (found : place.afterOne? set = some ended) :
    (one set).MayEndAt place ended := by
  have shorter := length_of_afterOne? found
  exact ⟨by omega, fun _ => by omega⟩

theorem MayEndAt.seq {first second : Plan} {middle : Place} (front : first.MayEndAt place middle)
    (back : second.MayEndAt middle ended) : (Plan.seq first second).MayEndAt place ended := by
  obtain ⟨front_le, front_takes⟩ := front
  obtain ⟨back_le, back_takes⟩ := back
  refine ⟨Nat.le_trans back_le front_le, fun takes => ?_⟩
  rcases (Bool.or_eq_true _ _).mp takes with takes | takes
  · exact Nat.lt_of_le_of_lt back_le (front_takes takes)
  · exact Nat.lt_of_lt_of_le (back_takes takes) front_le

theorem MayEndAt.altFirst {point : Nat} {first second : Plan} (ends : first.MayEndAt place ended) :
    (alt point first second).MayEndAt place ended :=
  ⟨ends.1, fun takes => ends.2 ((Bool.and_eq_true _ _).mp takes).1⟩

theorem MayEndAt.altSecond {point : Nat} {first second : Plan} (ends : second.MayEndAt place ended) :
    (alt point first second).MayEndAt place ended :=
  ⟨ends.1, fun takes => ends.2 ((Bool.and_eq_true _ _).mp takes).2⟩

end

theorem runThrough_congr {greedy : Bool} {set : CharSet} {next other : Place → Option Place}
    {text : List Char} {place : Place} (ahead : place.rest = text)
    (same : ∀ ended : Place, ended.rest.length ≤ text.length → next ended = other ended) :
    runThrough greedy set next text place = runThrough greedy set other text place := by
  induction text generalizing place with
  | nil => exact same place (by simp [ahead])
  | cons c rest ih =>
    have here := same place (by simp [ahead])
    have later := @ih (place.advance c rest) rfl fun ended shorter =>
      same ended (by simp only [List.length_cons]; omega)
    rw [runThrough, runThrough, here, later]

/-- A run depends on what follows at the places that the plan may lead to. -/
theorem run_congr (plan : Plan) {next other : Place → Option Place} {place : Place}
    (same : ∀ ended, plan.MayEndAt place ended → next ended = other ended) :
    plan.run next place = plan.run other place := by
  induction plan generalizing next other place with
  | empty | gate => exact same place (mayEndAt_refl rfl place)
  | literal text =>
    rw [run, run]
    cases found : place.after? text with
    | none => rfl
    | some ended => exact same ended (mayEndAt_after? found)
  | one set =>
    rw [run, run]
    cases found : place.afterOne? set with
    | none => rfl
    | some ended => exact same ended (mayEndAt_afterOne? found)
  | look assertion => rw [run, run, same place (mayEndAt_refl rfl place)]
  | seq first second first_ih second_ih =>
    rw [run, run]
    exact first_ih fun middle front => second_ih fun ended back => same ended (front.seq back)
  | alt point first second first_ih second_ih =>
    rw [run, run, first_ih fun ended ends => same ended ends.altFirst,
      second_ih fun ended ends => same ended ends.altSecond]
  | many point greedy set =>
    rw [run, run]
    exact runThrough_congr rfl fun ended shorter => same ended (mayEndAt_of_le rfl shorter)
  | loop point greedy body ih =>
    rw [run, run]
    induction size : place.rest.length using Nat.strongRecOn generalizing place with
    | ind size rounds =>
      rw [runRounds, runRounds, same place (mayEndAt_refl rfl place)]
      congr 1
      refine ih fun ended _ => ?_
      split
      · rename_i shorter
        refine rounds _ (by omega) (fun later reached => same later ?_) rfl
        exact mayEndAt_of_le rfl (Nat.le_trans reached.1 (Nat.le_of_lt shorter))
      · rfl
  | group index body ih =>
    rw [run, run]
    exact ih fun ended reached => same _ reached

/-- No match ends where nothing that follows matches. -/
theorem run_none (plan : Plan) (place : Place) : plan.run (fun _ => none) place = none := by
  induction plan generalizing place with
  | empty | gate => rfl
  | literal text => rw [run]; cases place.after? text <;> rfl
  | one set => rw [run]; cases place.afterOne? set <;> rfl
  | look assertion => rw [run]; split <;> rfl
  | seq first second first_ih second_ih =>
    rw [run, show second.run (fun _ => none) = fun _ => none from funext second_ih, first_ih]
  | alt point first second first_ih second_ih => rw [run, first_ih, second_ih]; rfl
  | many point greedy set =>
    rw [run]
    generalize place.rest = text
    induction text generalizing place with
    | nil => rfl
    | cons c rest ih => rw [runThrough, ih]; cases greedy <;> simp [preferred]
  | loop point greedy body ih =>
    rw [run]
    induction size : place.rest.length using Nat.strongRecOn generalizing place with
    | ind size rounds =>
      rw [runRounds, preferred_eq_none_iff]
      refine ⟨?_, rfl⟩
      have nothing : (fun ended : Place =>
          if _shorter : ended.rest.length < place.rest.length then
            runRounds greedy body.run (fun _ => none) ended
          else none) = fun _ => none := by
        funext ended
        split
        · rename_i shorter
          exact rounds _ (by omega) ended rfl
        · rfl
      rw [nothing, ih]
  | group index body ih => rw [run]; exact ih place

/-- A loop whose body takes a character: after a round the loop begins again. -/
theorem run_loop {body : Plan} (takes : body.consumes = true) (point : Nat) (greedy : Bool)
    (next : Place → Option Place) (place : Place) :
    (loop point greedy body).run next place =
      preferred greedy (body.run ((loop point greedy body).run next) place) (next place) := by
  rw [run, runRounds]
  congr 1
  refine body.run_congr fun ended reached => ?_
  rw [run, dif_pos (reached.2 takes)]

/-- No round leads on where the text has ended. -/
theorem run_loop_of_rest_eq_nil (point : Nat) (greedy : Bool) (body : Plan)
    (next : Place → Option Place) {place : Place} (exhausted : place.rest = []) :
    (loop point greedy body).run next place = next place := by
  have nothing : (fun ended : Place =>
      if _shorter : ended.rest.length < place.rest.length then runRounds greedy body.run next ended
      else none) = fun _ => none := by
    funext ended
    simp [exhausted]
  rw [run, runRounds, nothing, run_none, preferred_none]

/-! ### Where a run fails -/

/-- Two runs fail at the same positions. -/
def FailsAlike (next other : Place → Option Place) : Prop :=
  ∀ place otherPlace, SamePosition place otherPlace → (next place = none ↔ other otherPlace = none)

theorem bind_alike {next other : Place → Option Place} (alike : FailsAlike next other)
    {ended otherEnded : Option Place}
    (same : (ended = none ∧ otherEnded = none) ∨ ∃ one another, ended = some one ∧
      otherEnded = some another ∧ SamePosition one another) :
    ended.bind next = none ↔ otherEnded.bind other = none := by
  rcases same with ⟨rfl, rfl⟩ | ⟨one, another, rfl, rfl, positions⟩
  · simp
  · exact alike one another positions

theorem runThrough_alike {greedy : Bool} {set : CharSet} {next other : Place → Option Place}
    (alike : FailsAlike next other) (ahead : List Char) {place otherPlace : Place}
    (same : SamePosition place otherPlace) :
    runThrough greedy set next ahead place = none ↔
      runThrough greedy set other ahead otherPlace = none := by
  induction ahead generalizing place otherPlace with
  | nil => exact alike _ _ same
  | cons c rest ih =>
    rw [runThrough, runThrough]
    split
    · rw [preferred_eq_none_iff, preferred_eq_none_iff, ih (same.advance ..), alike _ _ same]
    · exact alike _ _ same

/-- Where a run fails depends on where what follows fails. -/
theorem run_alike (plan : Plan) {next other : Place → Option Place} (alike : FailsAlike next other) :
    FailsAlike (plan.run next) (plan.run other) := by
  induction plan generalizing next other with
  | empty | gate => exact alike
  | literal word => exact fun place otherPlace same => bind_alike alike (same.after? word)
  | one set => exact fun place otherPlace same => bind_alike alike (same.afterOne? set)
  | look assertion =>
    intro place otherPlace same
    rw [run, run, same.holds]
    split
    · exact alike _ _ same
    · simp
  | seq first second first_ih second_ih => exact first_ih (second_ih alike)
  | alt point first second first_ih second_ih =>
    intro place otherPlace same
    rw [run, run, preferred_eq_none_iff, preferred_eq_none_iff, first_ih alike _ _ same,
      second_ih alike _ _ same]
  | many point greedy set =>
    intro place otherPlace same
    rw [run, run, ← same.rest]
    exact runThrough_alike alike _ same
  | loop point greedy body ih =>
    intro place otherPlace same
    rw [run, run]
    induction size : place.rest.length using Nat.strongRecOn generalizing place otherPlace with
    | ind size rounds =>
      rw [runRounds, runRounds, preferred_eq_none_iff, preferred_eq_none_iff, alike _ _ same]
      refine and_congr_left' ?_
      refine ih (fun ended otherEnded positions => ?_) _ _ same
      rw [← positions.rest, ← same.rest]
      split
      · rename_i shorter
        exact rounds _ (by omega) _ _ positions rfl
      · simp
  | group index body ih =>
    intro place otherPlace same
    have closed : FailsAlike (fun ended => next (ended.close index place.offset))
        (fun ended => other (ended.close index otherPlace.offset)) :=
      fun _ _ positions => alike _ _ (positions.close ..)
    exact ih closed _ _ same

end Plan

end TableLexer.Pattern
