/-
**Plans that are searched thoroughly.**

* `Plan.Covers`: a search through a plan refutes what lies behind the plan, if the search that follows
  does. The ways in which plans are made keep this.
* `Plan.covers_loop`: a loop the rounds of which take characters.
* `Plan.covers_gatedLoop`: a loop the rounds of which end at a gate.
-/

import TableLexer.Proofs.Pattern.Goals
import TableLexer.Proofs.Pattern.Refutes

namespace TableLexer.Pattern

open Place (SamePosition)
open Plan (Within)

/-- From the place of the text with the position, the goal can be met so many gates away. -/
def Goal.At (text : List Char) (goal : Goal) (offset n : Nat) : Prop :=
  ∃ place, Within text place ∧ place.offset = offset ∧ goal n place

theorem Goal.at_iff {text : List Char} {goal : Goal} (steady : goal.Steady) {place : Place}
    (within : Within text place) (n : Nat) : goal.At text place.offset n ↔ goal n place := by
  constructor
  · rintro ⟨other, other_within, offset, met⟩
    exact steady n other place (other_within.samePosition within offset) met
  · exact fun met => ⟨place, within, rfl, met⟩

namespace Plan

variable {text : List Char} {away : Distances} {goal : Goal} {first second body : Plan}
  {point : Nat} {greedy : Bool}

/-- Two places of the text with as much left of it lie at one position. -/
theorem Within.offset_eq {place other : Place} (within : Within text place)
    (other_within : Within text other) (lengths : place.rest.length = other.rest.length) :
    place.offset = other.offset := by
  obtain ⟨front, whole, offset, _⟩ := within
  obtain ⟨otherFront, otherWhole, otherOffset, _⟩ := other_within
  have fronts : front = otherFront := (List.append_inj' (whole.symm.trans otherWhole) lengths).1
  rw [offset, otherOffset, fronts]

/-- The point is as far from the goal as the plan that begins there. -/
theorem away_iff {plan : Plan} (steady : goal.Steady)
    (distance : away point = (plan.accepts goal).At text) {place : Place}
    (within : Within text place) (n : Nat) :
    away point place.offset n ↔ plan.accepts goal n place := by
  rw [distance]
  exact Goal.at_iff (steady_accepts plan steady) within n

/-- A search through the plan refutes what lies behind it if the search that follows does. -/
def Covers (text : List Char) (away : Distances) (plan : Plan) (goal : Goal) : Prop :=
  ∀ (floor : Nat → Nat → Prop) (next : Search) (place : Place), Within text place →
    (∀ ended, Within text ended → plan.MayEndAt place ended →
      Refutes away floor (next ended) fun n => goal n ended) →
    Refutes away floor (plan.explore next place) fun n => plan.accepts goal n place

theorem refutes_goOn {floor : Nat → Nat → Prop} {next : Search} {place : Option Place}
    (follows : ∀ ended, place = some ended →
      Refutes away floor (next ended) fun n => goal n ended) :
    Refutes away floor (goOn next place) fun n => ∃ ended, place = some ended ∧ goal n ended := by
  cases place with
  | none =>
    refine .failed fun n => ?_
    rintro ⟨ended, found, _⟩
    cases found
  | some ended =>
    refine (follows ended rfl).weaken fun n => ?_
    rintro ⟨other, found, met⟩
    cases found
    exact met

theorem covers_empty : Covers text away empty goal := fun _ _ place within follows =>
  follows place within (mayEndAt_refl rfl place)

theorem covers_literal (word : List Char) : Covers text away (literal word) goal :=
  fun _ _ _ within follows => refutes_goOn fun ended found =>
    follows ended (within.after? found) (mayEndAt_after? found)

theorem covers_one (set : CharSet) : Covers text away (one set) goal :=
  fun _ _ _ within follows => refutes_goOn fun ended found =>
    follows ended (within.afterOne? found) (mayEndAt_afterOne? found)

theorem covers_look (assertion : Assertion) : Covers text away (look assertion) goal := by
  intro floor next place within follows
  by_cases holds : assertion.holds place
  · have same : (look assertion).explore next place = next place := by
      funext memo
      exact if_pos holds
    rw [same]
    exact (follows place within (mayEndAt_refl rfl place)).weaken fun _ accepted => accepted.2
  · have same : (look assertion).explore next place = Outcome.failed := by
      funext memo
      exact if_neg holds
    rw [same]
    exact .failed fun _ accepted => holds accepted.1

theorem Covers.seq (front : Covers text away first (second.accepts goal))
    (back : Covers text away second goal) : Covers text away (seq first second) goal := by
  intro floor next place within follows
  refine front floor (second.explore next) place within fun middle middle_within front_ends => ?_
  refine back floor next middle middle_within fun ended ended_within back_ends => ?_
  exact follows ended ended_within (front_ends.seq back_ends)

/-- Plans one after another may be taken together in either way. -/
theorem Covers.assoc {third : Plan}
    (covers : Covers text away (Plan.seq first (Plan.seq second third)) goal) :
    Covers text away (Plan.seq (Plan.seq first second) third) goal := by
  intro floor next place within follows
  refine covers floor next place within fun ended ended_within ends => ?_
  have takes : (Plan.seq (Plan.seq first second) third).consumes =
      (Plan.seq first (Plan.seq second third)).consumes := Bool.or_assoc ..
  exact follows ended ended_within ⟨ends.1, fun consumes => ends.2 (takes.symm.trans consumes)⟩

theorem Covers.alt (steady : goal.Steady)
    (distance : away point = ((alt point first second).accepts goal).At text)
    (one : Covers text away first goal) (other : Covers text away second goal) :
    Covers text away (alt point first second) goal := by
  intro floor next place within follows
  refine .fromPoint (away_iff steady distance within) (.orElse ?_ ?_)
  · exact one floor next place within fun ended ended_within ends =>
      follows ended ended_within ends.altFirst
  · exact other floor next place within fun ended ended_within ends =>
      follows ended ended_within ends.altSecond

/-- A gate is passed by a search that may take the gate to be closed. -/
theorem refutes_gate (steady : goal.Steady)
    (distance : away point = ((gate point).accepts goal).At text) {floor : Nat → Nat → Prop}
    {next : Search} {place : Place} (within : Within text place)
    (follows :
      Refutes away (withPair floor point place.offset) (next place) fun n => goal n place) :
    Refutes away floor ((gate point).explore next place) fun n =>
      (gate point).accepts goal n place :=
  .gate (away_iff steady distance within) follows

theorem covers_gate (steady : goal.Steady)
    (distance : away point = ((gate point).accepts goal).At text) :
    Covers text away (gate point) goal := by
  intro floor next place within follows
  refine refutes_gate steady distance within ?_
  exact (follows place within (mayEndAt_refl rfl place)).mono fun _ _ member => .inr member

theorem Covers.group (steady : goal.Steady) {index : Nat} (inner : Covers text away body goal) :
    Covers text away (group index body) goal := by
  intro floor next place within follows
  refine inner floor _ place within fun ended ended_within ends => ?_
  have closed : Within text (ended.close index place.offset) := ended_within
  have same : SamePosition ended (ended.close index place.offset) := ⟨rfl, rfl, rfl⟩
  exact (follows _ closed ends).weaken fun n => steady n ended _ same

theorem refutes_through {set : CharSet} (steady : goal.Steady)
    (distance : away point = ((many point greedy set).accepts goal).At text)
    {floor : Nat → Nat → Prop} {next : Search} {ahead : List Char} {place : Place}
    (here : place.rest = ahead) (within : Within text place)
    (follows : ∀ ended, Within text ended → ended.rest.length ≤ ahead.length →
      Refutes away floor (next ended) fun n => goal n ended) :
    Refutes away floor (through point greedy set next ahead place) fun n =>
      (many point greedy set).accepts goal n place := by
  have stop := follows place within (Nat.le_of_eq (congrArg List.length here))
  have measured := away_iff steady distance within
  induction ahead generalizing place with
  | nil =>
    refine .fromPoint measured (stop.weaken ?_)
    rintro n ⟨_ | count, met⟩
    · exact met
    · obtain ⟨ended, found, _⟩ := met
      simp [Place.afterOne?, here] at found
  | cons c rest ih =>
    refine .fromPoint measured ?_
    split
    · rename_i member
      have taken : place.afterOne? set = some (place.advance c rest) := by
        simp [Place.afterOne?, here, member]
      have next_within := within.advance here
      have shorter (ended : Place) (ended_within : Within text ended)
          (fewer : ended.rest.length ≤ rest.length) :=
        follows ended ended_within (Nat.le_succ_of_le fewer)
      have more := ih rfl next_within shorter (shorter _ next_within (Nat.le_refl _))
        (away_iff steady distance next_within)
      refine (more.inOrder greedy stop).weaken ?_
      rintro n ⟨_ | count, met⟩
      · exact .inr met
      · obtain ⟨ended, found, met⟩ := met
        rw [taken] at found
        cases found
        exact .inl ⟨count, met⟩
    · rename_i outside
      refine stop.weaken ?_
      rintro n ⟨_ | count, met⟩
      · exact met
      · obtain ⟨ended, found, _⟩ := met
        simp [Place.afterOne?, here, outside] at found

theorem covers_many {set : CharSet} (steady : goal.Steady)
    (distance : away point = ((many point greedy set).accepts goal).At text) :
    Covers text away (many point greedy set) goal :=
  fun _ _ _ within follows => refutes_through steady distance rfl within
    fun ended ended_within shorter =>
      follows ended ended_within (mayEndAt_of_le rfl shorter)

/-! ### Loops -/

/-- The first of some rounds of a loop, and the loop behind it. -/
theorem accepts_round {count n : Nat} {place : Place}
    (met : Goal.again body.accepts (count + 1) goal n place) :
    body.accepts ((loop point greedy body).accepts goal) n place :=
  body.accepts_mono (fun _ _ met => ⟨count, met⟩) met

/-- A loop whose rounds take characters ends within as many rounds as characters are left. -/
theorem refutes_rounds (steady : goal.Steady)
    (distance : away point = ((loop point greedy body).accepts goal).At text)
    (takes : body.consumes = true)
    (covers : Covers text away body ((loop point greedy body).accepts goal))
    {floor : Nat → Nat → Prop} {next : Search} {unread : List Char} {place : Place}
    (short : place.rest.length ≤ unread.length) (within : Within text place)
    (follows : ∀ ended, Within text ended → ended.rest.length ≤ place.rest.length →
      Refutes away floor (next ended) fun n => goal n ended) :
    Refutes away floor (rounds point greedy body.explore next unread place) fun n =>
      (loop point greedy body).accepts goal n place := by
  induction unread generalizing place with
  | nil =>
    have stop := follows place within (Nat.le_refl _)
    refine .fromPoint (away_iff steady distance within) (stop.weaken ?_)
    rintro n ⟨_ | count, met⟩
    · exact met
    · obtain ⟨_, ended, _, _, ends, _⟩ := body.ends_of_accepts met within
      exact absurd (Nat.lt_of_lt_of_le (ends.2 takes) short) (Nat.not_lt_zero _)
  | cons c unread ih =>
    have stop := follows place within (Nat.le_refl _)
    have round := covers floor (rounds point greedy body.explore next unread) place within
      fun ended ended_within ends =>
        ih (Nat.le_of_lt_succ (Nat.lt_of_lt_of_le (ends.2 takes) short)) ended_within
          fun later later_within shorter =>
            follows later later_within (Nat.le_trans shorter ends.1)
    refine .fromPoint (away_iff steady distance within) ((round.inOrder greedy stop).weaken ?_)
    rintro n ⟨_ | count, met⟩
    · exact .inr met
    · exact .inl (accepts_round met)

/-- A loop whose rounds end at a gate. -/
abbrev gatedLoop (number point : Nat) (greedy : Bool) (body : Plan) : Plan :=
  loop point greedy (seq body (gate number))

/-- Behind the gate, a round that takes nothing ends at the gate at once. -/
theorem refutes_gatedRounds {number : Nat} (steady : goal.Steady)
    (distance : away point = ((gatedLoop number point greedy body).accepts goal).At text)
    (gate_distance : away number =
      ((gate number).accepts ((gatedLoop number point greedy body).accepts goal)).At text)
    (covers : Covers text away body
      ((gate number).accepts ((gatedLoop number point greedy body).accepts goal)))
    {floor : Nat → Nat → Prop} {next : Search} {unread : List Char} {place : Place}
    (passed : floor number place.offset) (short : place.rest.length ≤ unread.length)
    (within : Within text place)
    (follows : ∀ ended, Within text ended → ended.rest.length ≤ place.rest.length →
      Refutes away floor (next ended) fun n => goal n ended) :
    Refutes away floor
      (rounds point greedy (seq body (gate number)).explore next unread place) fun n =>
      (gatedLoop number point greedy body).accepts goal n place := by
  have loop_steady := steady_accepts (gatedLoop number point greedy body) steady
  induction unread generalizing floor place with
  | nil =>
    have stop := follows place within (Nat.le_refl _)
    -- A round from here takes nothing, so it ends at the gate that was passed.
    have known (n : Nat)
        (met : body.accepts
          ((gate number).accepts ((gatedLoop number point greedy body).accepts goal)) n place) :
        ∃ m ≤ n, away number place.offset m := by
      obtain ⟨m, ended, nearer, ended_within, ends, reached⟩ := body.ends_of_accepts met within
      have lengths : ended.rest.length = place.rest.length := by
        have shorter := ends.1
        rw [List.length_nil] at short
        omega
      rw [← ended_within.offset_eq within lengths]
      exact ⟨m, nearer, (away_iff loop_steady gate_distance ended_within m).mpr reached⟩
    refine .fromPoint (away_iff steady distance within) ((stop.orKnown passed known).weaken ?_)
    rintro n ⟨_ | count, met⟩
    · exact .inl met
    · exact .inr (accepts_round met)
  | cons c unread ih =>
    have stop := follows place within (Nat.le_refl _)
    have round := covers floor
      ((gate number).explore (rounds point greedy (seq body (gate number)).explore next unread))
      place within fun ended ended_within ends => by
        by_cases shorter : ended.rest.length < place.rest.length
        · refine refutes_gate loop_steady gate_distance ended_within ?_
          refine ih (.inl ⟨rfl, rfl⟩) (Nat.le_of_lt_succ (Nat.lt_of_lt_of_le shorter short))
            ended_within fun later later_within fewer => ?_
          exact (follows later later_within (Nat.le_trans fewer ends.1)).mono
            fun _ _ member => .inr member
        · have lengths : ended.rest.length = place.rest.length :=
            Nat.le_antisymm ends.1 (Nat.le_of_not_lt shorter)
          rw [← ended_within.offset_eq within lengths] at passed
          exact .cut (away_iff loop_steady gate_distance ended_within) passed
    refine .fromPoint (away_iff steady distance within) ((round.inOrder greedy stop).weaken ?_)
    rintro n ⟨_ | count, met⟩
    · exact .inr met
    · exact .inl (accepts_round met)

theorem covers_loop (steady : goal.Steady)
    (distance : away point = ((loop point greedy body).accepts goal).At text)
    (takes : body.consumes = true)
    (covers : Covers text away body ((loop point greedy body).accepts goal)) :
    Covers text away (loop point greedy body) goal :=
  fun _ _ _ within follows => refutes_rounds steady distance takes covers (Nat.le_refl _) within
    fun ended ended_within shorter =>
      follows ended ended_within (mayEndAt_of_le rfl shorter)

theorem covers_star (steady : goal.Steady)
    (distance : away point = ((star point greedy body).accepts goal).At text)
    (takes : body.consumes = true)
    (covers : Covers text away body ((star point greedy body).accepts goal)) :
    Covers text away (star point greedy body) goal := by
  cases body with
  | one set => exact covers_many steady distance
  | _ => exact covers_loop steady distance takes covers

/-- A loop may be entered through its gate. -/
theorem covers_gatedLoop {number : Nat} (steady : goal.Steady)
    (distance : away point = ((gatedLoop number point greedy body).accepts goal).At text)
    (gate_distance : away number =
      ((gate number).accepts ((gatedLoop number point greedy body).accepts goal)).At text)
    (covers : Covers text away body
      ((gate number).accepts ((gatedLoop number point greedy body).accepts goal))) :
    Covers text away (seq (gate number) (gatedLoop number point greedy body)) goal := by
  intro floor next place within follows
  refine refutes_gate (steady_accepts _ steady) gate_distance within ?_
  refine refutes_gatedRounds steady distance gate_distance covers (.inl ⟨rfl, rfl⟩) (Nat.le_refl _)
    within fun ended ended_within shorter => ?_
  refine (follows ended ended_within (mayEndAt_of_le rfl shorter)).mono ?_
  exact fun _ _ member => .inr member

end Plan

end TableLexer.Pattern
