/-
**Attempts that fail.**

A search cuts off what its memo knows: gates that were passed and points from which it failed. A way to
a goal that is cut off at a gate comes to that gate again, so there is a shorter way. Hence a memo that
only knows what is farther from the goal than some distance lets every search succeed that is within
this distance, and when a search fails, what it has learned is farther as well.

* `Refutes`: when the attempt fails, the goal is far.
* `Refutes.gate`: a gate may be closed behind a search that passes it.
-/

import TableLexer.Pattern.Search

namespace TableLexer.Pattern

/-! ### What a memo may know -/

/-- How many gates the goal is away from a point at a position. -/
abbrev Distances := Nat → Nat → Nat → Prop

namespace Memo

/-- All that the memo knows is farther from the goal than the limit. -/
def Clear (away : Distances) (limit : Nat) (memo : Memo) : Prop :=
  ∀ point offset, memo.knows point offset = true → ∀ n ≤ limit, ¬ away point offset n

/-- The memo knows these points at these positions. -/
def Above (floor : Nat → Nat → Prop) (memo : Memo) : Prop :=
  ∀ point offset, floor point offset → memo.knows point offset = true

/-- The later memo knows what the memo knows. -/
def Below (memo later : Memo) : Prop :=
  ∀ point offset, memo.knows point offset = true → later.knows point offset = true

variable {away : Distances} {limit : Nat} {memo learned last : Memo} {floor : Nat → Nat → Prop}

theorem Below.refl (memo : Memo) : memo.Below memo := fun _ _ known => known

theorem Below.trans (one : memo.Below learned) (other : learned.Below last) : memo.Below last :=
  fun point offset known => other point offset (one point offset known)

theorem Above.mono (above : memo.Above floor) (below : memo.Below learned) : learned.Above floor :=
  fun point offset member => below point offset (above point offset member)

theorem below_insert (memo : Memo) (point offset : Nat) :
    memo.Below (memo.insert point offset) := by
  intro other position known
  rw [knows_insert, known, Bool.or_true]

theorem Clear.insert (clear : memo.Clear away limit) {point offset : Nat}
    (farther : ∀ n ≤ limit, ¬ away point offset n) :
    (memo.insert point offset).Clear away limit := by
  intro other position known
  rw [knows_insert, Bool.or_eq_true, decide_eq_true_eq] at known
  rcases known with ⟨rfl, rfl⟩ | known
  · exact farther
  · exact clear other position known

theorem Clear.nearer (clear : memo.Clear away limit) {nearest : Nat} (near : nearest ≤ limit) :
    memo.Clear away nearest :=
  fun point offset known n within => clear point offset known n (Nat.le_trans within near)

theorem clear_blank : blank.Clear away limit := by
  intro point offset known
  rw [knows_blank] at known
  cases known

end Memo

/-- When the attempt fails with a memo above the floor that only knows what is far, the goal is far
too, and so is what was learned. -/
def Refutes (away : Distances) (floor : Nat → Nat → Prop) (attempt : Memo → Outcome)
    (goal : Nat → Prop) : Prop :=
  ∀ limit memo learned, memo.Above floor → memo.Clear away limit → attempt memo = .failed learned →
    (∀ n ≤ limit, ¬ goal n) ∧ learned.Clear away limit ∧ memo.Below learned

/-- The pair together with those of the floor. -/
def withPair (floor : Nat → Nat → Prop) (point offset : Nat) (other position : Nat) : Prop :=
  other = point ∧ position = offset ∨ floor other position

namespace Refutes

variable {away : Distances} {floor higher : Nat → Nat → Prop} {goal one other : Nat → Prop}
  {first second attempt : Memo → Outcome} {point offset : Nat}

theorem mono (refutes : Refutes away floor attempt goal)
    (within : ∀ point offset, floor point offset → higher point offset) :
    Refutes away higher attempt goal := by
  intro limit memo learned above
  refine refutes limit memo learned fun point offset member => ?_
  exact above point offset (within point offset member)

theorem weaken (refutes : Refutes away floor attempt one) (weaker : ∀ n, other n → one n) :
    Refutes away floor attempt other := by
  intro limit memo learned above clear failed
  obtain ⟨far, rest⟩ := refutes limit memo learned above clear failed
  exact ⟨fun n near met => far n near (weaker n met), rest⟩

/-- Where there is no way at all, an attempt may fail at once. -/
theorem failed (nothing : ∀ n, ¬ goal n) : Refutes away floor Outcome.failed goal := by
  intro limit memo learned _ clear failed
  cases failed
  exact ⟨fun n _ => nothing n, clear, .refl memo⟩

theorem found (place : Place) : Refutes away floor (fun _ => .found place) goal := by
  intro limit memo learned _ _ failed
  cases failed

theorem orElse (front : Refutes away floor first one) (back : Refutes away floor second other) :
    Refutes away floor (fun memo => (first memo).orElse second) fun n => one n ∨ other n := by
  intro limit memo learned above clear failed
  cases outcome : first memo with
  | found place =>
    simp only [outcome, Outcome.orElse] at failed
    cases failed
  | failed middle =>
    simp only [outcome, Outcome.orElse] at failed
    obtain ⟨one_far, middle_clear, below⟩ := front limit memo middle above clear outcome
    obtain ⟨other_far, learned_clear, further⟩ :=
      back limit middle learned (above.mono below) middle_clear failed
    exact ⟨fun n near met => met.elim (one_far n near) (other_far n near), learned_clear,
      below.trans further⟩

theorem inOrder (greedy : Bool) (front : Refutes away floor first one)
    (back : Refutes away floor second other) :
    Refutes away floor (Outcome.inOrder greedy first second) fun n => one n ∨ other n := by
  cases greedy
  · exact (back.orElse front).weaken fun _ => Or.symm
  · exact front.orElse back

/-- Ways through what is known already may be left out. -/
theorem orKnown (refutes : Refutes away floor attempt one) (passed : floor point offset)
    (through : ∀ n, other n → ∃ m ≤ n, away point offset m) :
    Refutes away floor attempt fun n => one n ∨ other n := by
  intro limit memo learned above clear failed
  obtain ⟨far, rest⟩ := refutes limit memo learned above clear failed
  refine ⟨fun n near met => ?_, rest⟩
  rcases met with met | met
  · exact far n near met
  · obtain ⟨m, nearer, reached⟩ := through n met
    exact clear point offset (above point offset passed) m (Nat.le_trans nearer near) reached

/-- What is known already may be cut off. -/
theorem cut (distance : ∀ n, away point offset n ↔ goal n) (passed : floor point offset) :
    Refutes away floor
      (fun memo => if memo.knows point offset then .failed memo else attempt memo) goal := by
  intro limit memo learned above clear failed
  have known := above point offset passed
  dsimp only at failed
  rw [if_pos known] at failed
  cases failed
  refine ⟨fun n near met => ?_, clear, .refl memo⟩
  exact clear point offset known n near ((distance n).mpr met)

/-- What fails from a point may be noted. -/
theorem fromPoint (distance : ∀ n, away point offset n ↔ goal n)
    (refutes : Refutes away floor attempt goal) :
    Refutes away floor (Outcome.fromPoint point offset attempt) goal := by
  intro limit memo learned above clear failed
  unfold Outcome.fromPoint at failed
  split at failed
  · rename_i known
    cases failed
    refine ⟨fun n near met => ?_, clear, .refl memo⟩
    exact clear point offset known n near ((distance n).mpr met)
  · cases outcome : attempt memo with
    | found place => rw [outcome] at failed; cases failed
    | failed middle =>
      rw [outcome] at failed
      cases failed
      obtain ⟨far, middle_clear, below⟩ := refutes limit memo middle above clear outcome
      have farther (n : Nat) (near : n ≤ limit) (met : away point offset n) : False :=
        far n near ((distance n).mp met)
      unfold Memo.noteFailure
      split
      · exact ⟨far, middle_clear.insert farther, below.trans (middle.below_insert point offset)⟩
      · exact ⟨far, middle_clear, below⟩

/-- A gate may be closed behind a search that passes it: a way that comes to it again is not the
shortest. -/
theorem gate (distance : ∀ n, away point offset n ↔ ∃ m, n = m + 1 ∧ goal m)
    (refutes : Refutes away (withPair floor point offset) attempt goal) :
    Refutes away floor
      (fun memo =>
        if memo.knows point offset then .failed memo else attempt (memo.insert point offset))
      fun n => ∃ m, n = m + 1 ∧ goal m := by
  intro limit memo learned above clear failed
  dsimp only at failed
  by_cases known : memo.knows point offset
  · rw [if_pos known] at failed
    cases failed
    refine ⟨fun n near met => ?_, clear, .refl memo⟩
    exact clear point offset known n near ((distance n).mpr met)
  · rw [if_neg known] at failed
    have inserted : (memo.insert point offset).Above (withPair floor point offset) := by
      rintro other position (⟨rfl, rfl⟩ | member)
      · rw [Memo.knows_insert]
        simp
      · exact memo.below_insert point offset other position (above other position member)
    have learns (nearest : Nat) (near : nearest ≤ limit)
        (farther : ∀ n ≤ nearest, ¬ ∃ m, n = m + 1 ∧ goal m) := by
      refine refutes nearest (memo.insert point offset) learned inserted ?_ failed
      exact (clear.nearer near).insert fun n within met => farther n within ((distance n).mp met)
    -- The nearest goal behind the gate is nearer than the gate, so the search would have found it.
    have far (m : Nat) (near : m + 1 ≤ limit) : ¬ goal m := by
      induction m using Nat.strongRecOn with
      | ind m ih =>
        refine (learns m (by omega) ?_).1 m (Nat.le_refl m)
        rintro n within ⟨nearer, rfl, met⟩
        exact ih nearer (by omega) (by omega) met
    have far_gate (n : Nat) (near : n ≤ limit) : ¬ ∃ m, n = m + 1 ∧ goal m := by
      rintro ⟨m, rfl, met⟩
      exact far m near met
    obtain ⟨_, learned_clear, below⟩ := learns limit (Nat.le_refl limit) far_gate
    exact ⟨far_gate, learned_clear, (memo.below_insert point offset).trans below⟩

end Refutes

end TableLexer.Pattern
