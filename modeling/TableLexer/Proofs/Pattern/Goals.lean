/-
**How far a goal is.**

A search must not miss the goal where its memo cuts paths off. What it may cut off is told by distances: how
many gates lie on a way from a place through a plan to a goal.

* `Plan.accepts`: a goal can be met behind a plan, so many gates away.
* `Plan.accepts_of_leads`: a goal at a place to which a plan leads is some gates away.
* `Plan.ends_of_accepts`: a way through a plan ends at a place of the text that is no farther from the goal.
-/

import TableLexer.Pattern.Explained
import TableLexer.Proofs.Pattern.Leads

namespace TableLexer.Pattern

open Place (SamePosition)

/-- What is to be met, by how many gates away it may be and from where. -/
abbrev Goal := Nat → Place → Prop

namespace Goal

/-- The goal depends on the position only, and not on what groups have matched. -/
def Steady (goal : Goal) : Prop :=
  ∀ n place other, SamePosition place other → goal n place → goal n other

/-- Meets a goal behind one character of the set. -/
def behindOne (set : CharSet) (goal : Goal) : Goal := fun n place =>
  ∃ ended, place.afterOne? set = some ended ∧ goal n ended

/-- Meets a goal behind so many rounds. -/
def again (round : Goal → Goal) : Nat → Goal → Goal
  | 0, goal => goal
  | count + 1, goal => round (again round count goal)

variable {goal other : Goal}

theorem steady_behindOne (set : CharSet) (steady : goal.Steady) : (behindOne set goal).Steady := by
  rintro n place other same ⟨ended, found, met⟩
  rcases same.afterOne? set with ⟨nothing, _⟩ | ⟨_, otherEnded, taken, otherTaken, ends⟩
  · rw [nothing] at found
    cases found
  · rw [taken] at found
    cases found
    exact ⟨otherEnded, otherTaken, steady n _ _ ends met⟩

theorem steady_again {round : Goal → Goal}
    (rounds : ∀ goal : Goal, goal.Steady → (round goal).Steady) (steady : goal.Steady) (count : Nat) :
    (again round count goal).Steady := by
  induction count with
  | zero => exact steady
  | succ count ih => exact rounds _ ih

end Goal

namespace Plan

/-- From the place, the goal can be met behind the plan; each gate on the way counts. -/
def accepts : Plan → Goal → Goal
  | empty, goal, n, place => goal n place
  | literal text, goal, n, place => ∃ ended, place.after? text = some ended ∧ goal n ended
  | one set, goal, n, place => goal.behindOne set n place
  | look assertion, goal, n, place => assertion.holds place = true ∧ goal n place
  | gate _, goal, n, place => ∃ m, n = m + 1 ∧ goal m place
  | seq first second, goal, n, place => first.accepts (second.accepts goal) n place
  | alt _ first second, goal, n, place => first.accepts goal n place ∨ second.accepts goal n place
  | many _ _ set, goal, n, place => ∃ count, Goal.again (Goal.behindOne set) count goal n place
  | loop _ _ body, goal, n, place => ∃ count, Goal.again body.accepts count goal n place
  | group _ body, goal, n, place => body.accepts goal n place

variable {goal other : Goal} {place ended : Place} {n : Nat}

theorem steady_accepts (plan : Plan) (steady : goal.Steady) : (plan.accepts goal).Steady := by
  induction plan generalizing goal with
  | empty => exact steady
  | literal text =>
    rintro n place other same ⟨ended, found, met⟩
    rcases same.after? text with ⟨nothing, _⟩ | ⟨_, otherEnded, taken, otherTaken, ends⟩
    · rw [nothing] at found
      cases found
    · rw [taken] at found
      cases found
      exact ⟨otherEnded, otherTaken, steady n _ _ ends met⟩
  | one set => exact Goal.steady_behindOne set steady
  | look assertion =>
    rintro n place other same ⟨holds, met⟩
    exact ⟨(same.holds assertion).symm.trans holds, steady n _ _ same met⟩
  | gate =>
    rintro n place other same ⟨m, one_more, met⟩
    exact ⟨m, one_more, steady m _ _ same met⟩
  | seq first second first_ih second_ih => exact first_ih (second_ih steady)
  | alt _ first second first_ih second_ih =>
    rintro n place other same (met | met)
    · exact .inl (first_ih steady n _ _ same met)
    · exact .inr (second_ih steady n _ _ same met)
  | many _ _ set =>
    rintro n place other same ⟨count, met⟩
    exact ⟨count, Goal.steady_again (fun _ => Goal.steady_behindOne set) steady count n _ _ same met⟩
  | loop _ _ body ih =>
    rintro n place other same ⟨count, met⟩
    exact ⟨count, Goal.steady_again (fun _ => ih) steady count n _ _ same met⟩
  | group _ body ih => exact ih steady

/-- What is met behind a plan may be replaced by what it implies. -/
theorem accepts_mono (plan : Plan) (weaker : ∀ n place, goal n place → other n place)
    (accepted : plan.accepts goal n place) : plan.accepts other n place := by
  induction plan generalizing goal other n place with
  | empty => exact weaker _ _ accepted
  | literal | one =>
    obtain ⟨ended, found, met⟩ := accepted
    exact ⟨ended, found, weaker _ _ met⟩
  | look => exact ⟨accepted.1, weaker _ _ accepted.2⟩
  | gate =>
    obtain ⟨m, one_more, met⟩ := accepted
    exact ⟨m, one_more, weaker _ _ met⟩
  | seq first second first_ih second_ih =>
    exact first_ih (fun _ _ => second_ih weaker) accepted
  | alt _ first second first_ih second_ih =>
    exact accepted.imp (first_ih weaker) (second_ih weaker)
  | many _ _ set =>
    obtain ⟨count, met⟩ := accepted
    refine ⟨count, ?_⟩
    induction count generalizing n place with
    | zero => exact weaker _ _ met
    | succ count count_ih =>
      obtain ⟨ended, found, met⟩ := met
      exact ⟨ended, found, count_ih met⟩
  | loop _ _ body ih =>
    obtain ⟨count, met⟩ := accepted
    refine ⟨count, ?_⟩
    induction count generalizing n place with
    | zero => exact weaker _ _ met
    | succ count count_ih => exact ih (fun _ _ => count_ih) met
  | group _ body ih => exact ih weaker accepted

/-- A goal at a place to which a plan leads is some gates away. -/
theorem accepts_of_leads {plan : Plan} (leads : plan.Leads place ended) (steady : goal.Steady)
    (met : ∃ n, goal n ended) : ∃ n, plan.accepts goal n place := by
  induction leads generalizing goal with
  | empty => exact met
  | literal found | one found =>
    obtain ⟨n, met⟩ := met
    exact ⟨n, _, found, met⟩
  | look holds =>
    obtain ⟨n, met⟩ := met
    exact ⟨n, holds, met⟩
  | gate =>
    obtain ⟨n, met⟩ := met
    exact ⟨n + 1, n, rfl, met⟩
  | seq _ _ front_ih back_ih => exact front_ih (steady_accepts _ steady) (back_ih steady met)
  | altFirst _ ih =>
    obtain ⟨n, met⟩ := ih steady met
    exact ⟨n, .inl met⟩
  | altSecond _ ih =>
    obtain ⟨n, met⟩ := ih steady met
    exact ⟨n, .inr met⟩
  | manyStop | loopStop =>
    obtain ⟨n, met⟩ := met
    exact ⟨n, 0, met⟩
  | manyMore found _ ih =>
    obtain ⟨n, count, met⟩ := ih steady met
    exact ⟨n, count + 1, _, found, met⟩
  | @loopMore _ _ body _ _ _ _ _ round_ih more_ih =>
    obtain ⟨n, count, met⟩ := more_ih steady met
    have later := Goal.steady_again (fun _ => steady_accepts body) steady count
    obtain ⟨n, met⟩ := round_ih later ⟨n, met⟩
    exact ⟨n, count + 1, met⟩
  | @group index _ place inner _ ih =>
    obtain ⟨n, met⟩ := met
    have same : SamePosition (inner.close index place.offset) inner := ⟨rfl, rfl, rfl⟩
    exact ih steady ⟨n, steady n _ _ same met⟩

/-! ### Where ways end -/

/-- A way through a plan ends at a place of the text that is no farther from the goal. -/
theorem ends_of_accepts {text : List Char} (plan : Plan) (accepted : plan.accepts goal n place)
    (within : Within text place) :
    ∃ m ended, m ≤ n ∧ Within text ended ∧ plan.MayEndAt place ended ∧ goal m ended := by
  induction plan generalizing goal n place with
  | empty => exact ⟨n, place, Nat.le_refl n, within, mayEndAt_refl rfl place, accepted⟩
  | literal =>
    obtain ⟨ended, found, met⟩ := accepted
    exact ⟨n, ended, Nat.le_refl n, within.after? found, mayEndAt_after? found, met⟩
  | one =>
    obtain ⟨ended, found, met⟩ := accepted
    exact ⟨n, ended, Nat.le_refl n, within.afterOne? found, mayEndAt_afterOne? found, met⟩
  | look => exact ⟨n, place, Nat.le_refl n, within, mayEndAt_refl rfl place, accepted.2⟩
  | gate =>
    obtain ⟨m, rfl, met⟩ := accepted
    exact ⟨m, place, Nat.le_succ m, within, mayEndAt_refl rfl place, met⟩
  | seq first second first_ih second_ih =>
    obtain ⟨m, middle, nearer, middle_within, front, met⟩ := first_ih accepted within
    obtain ⟨k, ended, nearest, ended_within, back, met⟩ := second_ih met middle_within
    exact ⟨k, ended, Nat.le_trans nearest nearer, ended_within, front.seq back, met⟩
  | alt _ first second first_ih second_ih =>
    rcases accepted with accepted | accepted
    · obtain ⟨m, ended, nearer, ended_within, ends, met⟩ := first_ih accepted within
      exact ⟨m, ended, nearer, ended_within, ends.altFirst, met⟩
    · obtain ⟨m, ended, nearer, ended_within, ends, met⟩ := second_ih accepted within
      exact ⟨m, ended, nearer, ended_within, ends.altSecond, met⟩
  | many _ _ set =>
    obtain ⟨count, met⟩ := accepted
    induction count generalizing place with
    | zero => exact ⟨n, place, Nat.le_refl n, within, mayEndAt_refl rfl place, met⟩
    | succ count count_ih =>
      obtain ⟨middle, found, met⟩ := met
      obtain ⟨m, ended, nearer, ended_within, ends, met⟩ := count_ih (within.afterOne? found) met
      have front := (mayEndAt_afterOne? found).1
      exact ⟨m, ended, nearer, ended_within,
        mayEndAt_of_le rfl (Nat.le_trans ends.1 front), met⟩
  | loop point greedy body ih =>
    obtain ⟨count, met⟩ := accepted
    induction count generalizing n place with
    | zero => exact ⟨n, place, Nat.le_refl n, within, mayEndAt_refl rfl place, met⟩
    | succ count count_ih =>
      obtain ⟨m, middle, nearer, middle_within, front, met⟩ := ih met within
      obtain ⟨k, ended, nearest, ended_within, ends, met⟩ := count_ih middle_within met
      exact ⟨k, ended, Nat.le_trans nearest nearer, ended_within,
        mayEndAt_of_le rfl (Nat.le_trans ends.1 front.1), met⟩
  | group _ body ih => exact ih accepted within

end Plan

end TableLexer.Pattern
