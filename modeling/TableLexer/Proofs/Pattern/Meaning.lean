/-
**What a pattern means.**

`Node.Leads` says of the tree of a pattern from which place to which other it leads. Plans keep to that: they
write counted repetition out, number their points and put up gates, and lead to the same places.

* `Node.leads_plan`: the plan of a pattern leads where the pattern leads.
-/

import TableLexer.Proofs.Pattern.Leads

namespace TableLexer.Pattern

/-! ### Repetition -/

/-- From the one place to the other in so many rounds. -/
def Rounds (round : Place → Place → Prop) : Nat → Place → Place → Prop
  | 0, place, ended => ended = place
  | count + 1, place, ended => ∃ middle, round place middle ∧ Rounds round count middle ended

namespace Rounds

variable {round : Place → Place → Prop} {place ended : Place}

theorem add {first second : Nat} :
    Rounds round (first + second) place ended ↔
      ∃ middle, Rounds round first place middle ∧ Rounds round second middle ended := by
  induction first generalizing place with
  | zero =>
    rw [Nat.zero_add]
    constructor
    · exact fun rounds => ⟨place, rfl, rounds⟩
    · rintro ⟨middle, rfl, rounds⟩
      exact rounds
  | succ first ih =>
    rw [Nat.succ_add]
    constructor
    · rintro ⟨middle, one, rounds⟩
      obtain ⟨later, front, back⟩ := ih.mp rounds
      exact ⟨later, ⟨middle, one, front⟩, back⟩
    · rintro ⟨later, ⟨middle, one, front⟩, back⟩
      exact ⟨middle, one, ih.mpr ⟨later, front, back⟩⟩

end Rounds

/-! ### Patterns -/

/-- The pattern may lead from one place to the other. -/
def Node.Leads : Node → Place → Place → Prop
  | empty, place, ended => ended = place
  | literal text, place, ended => place.after? text = some ended
  | one set, place, ended => place.afterOne? set = some ended
  | look assertion, place, ended => assertion.holds place = true ∧ ended = place
  | seq first second, place, ended =>
    ∃ middle, first.Leads place middle ∧ second.Leads middle ended
  | alt first second, place, ended => first.Leads place ended ∨ second.Leads place ended
  | repeated least most _ body, place, ended =>
    ∃ more, (∀ bound ∈ most, more ≤ bound - least) ∧ Rounds body.Leads (least + more) place ended
  | group index body, place, ended =>
    ∃ inner, body.Leads place inner ∧ ended = inner.close index place.offset

/-! ### How plans are made -/

namespace Plan

variable {place ended : Place} {plan first second body : Plan} {point : Nat} {greedy : Bool}

theorem leads_empty : empty.Leads place ended ↔ ended = place := by
  constructor
  · rintro ⟨⟩
    rfl
  · rintro rfl
    exact .empty _

theorem leads_gate : (gate point).Leads place ended ↔ ended = place := by
  constructor
  · rintro ⟨⟩
    rfl
  · rintro rfl
    exact .gate _ _

theorem leads_alt :
    (alt point first second).Leads place ended ↔
      first.Leads place ended ∨ second.Leads place ended := by
  constructor
  · rintro (_ | _)
    · exact .inl ‹_›
    · exact .inr ‹_›
  · rintro (leads | leads)
    · exact .altFirst leads
    · exact .altSecond leads

theorem leads_behindGate (gated : Bool) :
    (behindGate gated point plan).Leads place ended ↔ plan.Leads place ended := by
  unfold behindGate
  split
  · rw [leads_seq]
    simp only [leads_gate, exists_eq_left]
  · exact Iff.rfl

theorem leads_beforeGate (gated : Bool) :
    (beforeGate gated point plan).Leads place ended ↔ plan.Leads place ended := by
  unfold beforeGate
  split
  · rw [leads_seq]
    simp only [leads_gate, exists_eq_right']
  · exact Iff.rfl

theorem leads_optional :
    (optional point greedy body).Leads place ended ↔ body.Leads place ended ∨ ended = place := by
  unfold optional
  split
  · rw [leads_alt, leads_empty]
  · rw [leads_alt, leads_empty]
    exact Or.comm

theorem leads_loop :
    (loop point greedy body).Leads place ended ↔ ∃ count, Rounds body.Leads count place ended := by
  constructor
  · intro leads
    generalize same : loop point greedy body = plan at leads
    induction leads with
    | loopStop => exact ⟨0, rfl⟩
    | loopMore round _ _ more_ih =>
      cases same
      obtain ⟨count, rounds⟩ := more_ih rfl
      exact ⟨count + 1, _, round, rounds⟩
    | _ => cases same
  · rintro ⟨count, rounds⟩
    induction count generalizing place with
    | zero =>
      cases rounds
      exact .loopStop ..
    | succ count ih =>
      obtain ⟨middle, round, rounds⟩ := rounds
      exact .loopMore round (ih rounds)

theorem leads_many {set : CharSet} :
    (many point greedy set).Leads place ended ↔
      ∃ count, Rounds (one set).Leads count place ended := by
  constructor
  · intro leads
    generalize same : many point greedy set = plan at leads
    induction leads with
    | manyStop => exact ⟨0, rfl⟩
    | manyMore found _ more_ih =>
      cases same
      obtain ⟨count, rounds⟩ := more_ih rfl
      exact ⟨count + 1, _, .one found, rounds⟩
    | _ => cases same
  · rintro ⟨count, rounds⟩
    induction count generalizing place with
    | zero =>
      cases rounds
      exact .manyStop ..
    | succ count ih =>
      obtain ⟨middle, round, rounds⟩ := rounds
      exact .manyMore (leads_one.mp round) (ih rounds)

theorem leads_star :
    (star point greedy body).Leads place ended ↔ ∃ count, Rounds body.Leads count place ended := by
  unfold star
  split
  · exact leads_many
  · exact leads_loop

/-- The plans made from any number on lead where the relation says. -/
def AllLead (make : Numbered) (round : Place → Place → Prop) : Prop :=
  ∀ fresh place ended, (make fresh).1.Leads place ended ↔ round place ended

variable {make : Numbered} {round : Place → Place → Prop}

theorem AllLead.copies (lead : AllLead make round) (count : Nat) :
    AllLead (copies make count) (Rounds round count) := by
  induction count with
  | zero => exact fun _ _ _ => leads_empty
  | succ count ih =>
    intro fresh place ended
    show (seq (make fresh).1 (Plan.copies make count (make fresh).2).1).Leads place ended ↔ _
    rw [leads_seq]
    exact exists_congr fun middle => and_congr (lead _ _ _) (ih _ _ _)

theorem AllLead.upTo (lead : AllLead make round) (gated greedy : Bool) (most : Nat) :
    AllLead (upTo gated greedy make most) fun place ended =>
      ∃ count, count ≤ most ∧ Rounds round count place ended := by
  induction most with
  | zero =>
    intro fresh place ended
    refine leads_empty.trans ⟨fun same => ⟨0, Nat.le_refl 0, same⟩, ?_⟩
    rintro ⟨count, few, rounds⟩
    rw [Nat.le_zero.mp few] at rounds
    exact rounds
  | succ most ih =>
    intro fresh place ended
    show (behindGate gated fresh (optional (fresh + 1) greedy (seq (make (fresh + 2)).1
      (Plan.upTo gated greedy make most (make (fresh + 2)).2).1))).Leads place ended ↔ _
    rw [leads_behindGate, leads_optional, leads_seq]
    constructor
    · rintro (⟨middle, one, more⟩ | same)
      · obtain ⟨count, few, rounds⟩ := (ih _ _ _).mp more
        exact ⟨count + 1, Nat.succ_le_succ few, middle, (lead _ _ _).mp one, rounds⟩
      · exact ⟨0, Nat.zero_le _, same⟩
    · rintro ⟨count, few, rounds⟩
      cases count with
      | zero => exact .inr rounds
      | succ count =>
        obtain ⟨middle, one, rounds⟩ := rounds
        exact .inl ⟨middle, (lead _ _ _).mpr one,
          (ih _ _ _).mpr ⟨count, Nat.le_of_succ_le_succ few, rounds⟩⟩

theorem AllLead.plus (lead : AllLead make round) (greedy nullable : Bool) :
    AllLead (plus greedy nullable make) fun place ended =>
      ∃ count, Rounds round (count + 1) place ended := by
  intro fresh place ended
  have again : (beforeGate nullable fresh (make (fresh + 2)).1).Leads = round := by
    funext place ended
    exact propext ((leads_beforeGate nullable).trans (lead _ _ _))
  show (seq (beforeGate nullable fresh (make (fresh + 2)).1) (star (fresh + 1) greedy
    (beforeGate nullable fresh (make (fresh + 2)).1))).Leads place ended ↔ _
  rw [leads_seq]
  simp only [leads_star, again]
  constructor
  · rintro ⟨middle, one, count, rounds⟩
    exact ⟨count, middle, one, rounds⟩
  · rintro ⟨count, middle, one, rounds⟩
    exact ⟨middle, one, count, rounds⟩

end Plan

/-! ### The plan of a pattern -/

namespace Node

open Plan (AllLead leads_behindGate leads_beforeGate leads_optional leads_star)

/-- Plans of a pattern lead where the pattern leads, in loops and outside. -/
theorem leads_planFrom (node : Node) (inLoop : Bool) : AllLead (node.planFrom inLoop) node.Leads := by
  induction node generalizing inLoop with
  | empty => exact fun _ _ _ => Plan.leads_empty
  | literal text => exact fun _ _ _ => Plan.leads_literal
  | one set => exact fun _ _ _ => Plan.leads_one
  | look assertion => exact fun _ _ _ => Plan.leads_look
  | seq first second first_ih second_ih =>
    intro fresh place ended
    rw [planFrom, Plan.leads_seq]
    exact exists_congr fun middle => and_congr (first_ih _ _ _ _) (second_ih _ _ _ _)
  | alt first second first_ih second_ih =>
    intro fresh place ended
    rw [planFrom, leads_behindGate, Plan.leads_alt]
    exact or_congr (first_ih _ _ _ _) (second_ih _ _ _ _)
  | group index body ih =>
    intro fresh place ended
    rw [planFrom, Plan.leads_group]
    exact exists_congr fun inner => and_congr (ih _ _ _ _) Iff.rfl
  | repeated least most greedy body ih =>
    intro fresh place ended
    have outside := ih (inLoop && (repeated least most greedy body).nullable)
    cases most with
    | some most =>
      have copies := outside.copies least
      have upTo := outside.upTo (inLoop && (repeated least (some most) greedy body).nullable) greedy
        (most - least)
      simp only [planFrom, Plan.leads_seq, copies _ _ _, upTo _ _ _, Leads, Rounds.add,
        Option.mem_some_iff, forall_eq']
      constructor
      · rintro ⟨middle, front, count, few, back⟩
        exact ⟨count, few, middle, front, back⟩
      · rintro ⟨count, few, middle, front, back⟩
        exact ⟨middle, front, count, few, back⟩
    | none =>
      cases least with
      | zero =>
        simp only [planFrom, Leads, Nat.zero_add]
        split
        · have plus := (ih true).plus greedy true
          simp only [leads_behindGate, leads_optional, plus _ _ _]
          constructor
          · rintro (⟨count, rounds⟩ | same)
            · exact ⟨count + 1, by simp, rounds⟩
            · exact ⟨0, by simp, same⟩
          · rintro ⟨count, _, rounds⟩
            cases count with
            | zero => exact .inr rounds
            | succ count => exact .inl ⟨count, rounds⟩
        · have again (gated : Bool) (point number : Nat) :
              (Plan.beforeGate gated point (body.planFrom false number).1).Leads = body.Leads := by
            funext place ended
            exact propext ((leads_beforeGate gated).trans (ih _ _ _ _))
          simp only [leads_behindGate, leads_star, again]
          simp
      | succ least =>
        have copies := outside.copies least
        have plus := (ih true).plus greedy body.nullable
        simp only [planFrom, Plan.leads_seq, Nat.add_sub_cancel, copies _ _ _, plus _ _ _, Leads]
        constructor
        · rintro ⟨middle, front, count, back⟩
          refine ⟨count, by simp, ?_⟩
          rw [Nat.add_right_comm, Nat.add_assoc, Rounds.add]
          exact ⟨middle, front, back⟩
        · rintro ⟨count, _, rounds⟩
          rw [Nat.add_right_comm, Nat.add_assoc, Rounds.add] at rounds
          obtain ⟨middle, front, back⟩ := rounds
          exact ⟨middle, front, count, back⟩

/-- The plan of a pattern leads where the pattern leads. -/
theorem leads_plan {node : Node} {place ended : Place} :
    node.plan.Leads place ended ↔ node.Leads place ended := node.leads_planFrom false 0 place ended

end Node

end TableLexer.Pattern
