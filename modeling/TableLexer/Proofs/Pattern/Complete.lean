/-
**Searches miss nothing.**

The points of a plan can be given distances from the goal with which every search through the plan is
thorough, because each point has a number of its own. So a search that fails shows that there is no match.

* `Node.covered_planFrom`: searches through the plans of patterns are thorough, with gates and without.
* `Node.leads_none_of_find?`: before the match that a search finds, the pattern leads nowhere.
* `Regex.find?_ofNode_iff`: what is matched by a pattern that leads to one place at most.
-/

import TableLexer.Proofs.Pattern.Covers
import TableLexer.Proofs.Pattern.Meaning
import TableLexer.Proofs.Text.Cuts

namespace TableLexer.Pattern

namespace Plan

variable {text : List Char} {goal : Goal} {first second body : Plan} {point : Nat} {greedy : Bool}

/-! ### Distances for the points of a plan -/

/-- The points from `fresh` on and below `stop` have distances with which this holds, whatever the
others have. -/
def Assignable (fresh stop : Nat) (holds : Distances → Prop) : Prop :=
  fresh ≤ stop ∧ ∃ away : Distances, ∀ other : Distances,
    (∀ point, fresh ≤ point → point < stop → other point = away point) → holds other

namespace Assignable

variable {fresh low middle stop : Nat} {one other : Distances → Prop}

theorem always (fresh : Nat) (holds : ∀ away, one away) : Assignable fresh fresh one :=
  ⟨Nat.le_refl fresh, fun _ _ _ => False, fun away _ => holds away⟩

/-- A point may have any distances. -/
theorem onePoint (number : Nat) (distances : Nat → Nat → Prop) :
    Assignable number (number + 1) fun away => away number = distances :=
  ⟨Nat.le_succ number, fun _ => distances, fun _ agrees =>
    agrees number (Nat.le_refl _) (Nat.lt_succ_self _)⟩

theorem mono (assignable : Assignable fresh stop one) (weaker : ∀ away, one away → other away) :
    Assignable fresh stop other := by
  obtain ⟨le, away, holds⟩ := assignable
  exact ⟨le, away, fun distances agrees => weaker distances (holds distances agrees)⟩

theorem both (front : Assignable fresh middle one) (back : Assignable middle stop other) :
    Assignable fresh stop fun away => one away ∧ other away := by
  obtain ⟨front_le, front_away, front_holds⟩ := front
  obtain ⟨back_le, back_away, back_holds⟩ := back
  refine ⟨Nat.le_trans front_le back_le,
    fun point => if point < middle then front_away point else back_away point, ?_⟩
  intro away agrees
  constructor
  · refine front_holds away fun point above below => ?_
    exact (agrees point above (Nat.lt_of_lt_of_le below back_le)).trans (if_pos below)
  · refine back_holds away fun point above below => ?_
    exact (agrees point (Nat.le_trans front_le above) below).trans (if_neg (Nat.not_lt.mpr above))

/-- Numbers may be left out. -/
theorem skip (assignable : Assignable low stop one) (below : fresh ≤ low) :
    Assignable fresh stop one := by
  obtain ⟨le, away, holds⟩ := assignable
  exact ⟨Nat.le_trans below le, away, fun distances agrees =>
    holds distances fun point above => agrees point (Nat.le_trans below above)⟩

end Assignable

/-- The points from `fresh` on and below `stop` have distances with which the plan covers the
goal. -/
def Coverable (text : List Char) (fresh stop : Nat) (plan : Plan) (goal : Goal) : Prop :=
  Assignable fresh stop fun away => Covers text away plan goal

namespace Coverable

variable {fresh middle stop : Nat}

theorem seq (front : Coverable text fresh middle first (second.accepts goal))
    (back : Coverable text middle stop second goal) :
    Coverable text fresh stop (.seq first second) goal :=
  (front.both back).mono fun _ covers => covers.1.seq covers.2

theorem alt (steady : goal.Steady) (one : Coverable text (point + 1) middle first goal)
    (other : Coverable text middle stop second goal) :
    Coverable text point stop (.alt point first second) goal := by
  have distances := Assignable.onePoint point (((Plan.alt point first second).accepts goal).At text)
  refine (distances.both (one.both other)).mono fun away covers => ?_
  obtain ⟨distance, one, other⟩ := covers
  exact one.alt steady distance other

theorem optional (steady : goal.Steady) (inner : Coverable text (point + 1) stop body goal) :
    Coverable text point stop (optional point greedy body) goal := by
  have nothing (number : Nat) : Coverable text number number empty goal :=
    .always number fun _ => covers_empty
  unfold Plan.optional
  split
  · exact inner.alt steady (nothing stop)
  · exact (nothing (point + 1)).alt steady inner

theorem behindGate (gated : Bool) (steady : goal.Steady)
    (inner : Coverable text (point + 1) stop body goal) :
    Coverable text point stop (behindGate gated point body) goal := by
  unfold Plan.behindGate
  split
  · have distances := Assignable.onePoint point (((gate point).accepts (body.accepts goal)).At text)
    refine (distances.both inner).mono fun away covers => ?_
    exact (covers_gate (steady_accepts body steady) covers.1).seq covers.2
  · exact inner.skip (Nat.le_succ point)

theorem group (steady : goal.Steady) {index : Nat} (inner : Coverable text fresh stop body goal) :
    Coverable text fresh stop (.group index body) goal :=
  inner.mono fun _ covers => covers.group steady

theorem star (steady : goal.Steady) (takes : body.consumes = true)
    (inner : Coverable text (point + 1) stop body ((star point greedy body).accepts goal)) :
    Coverable text point stop (star point greedy body) goal := by
  have distances := Assignable.onePoint point (((Plan.star point greedy body).accepts goal).At text)
  exact (distances.both inner).mono fun _ covers => covers_star steady covers.1 takes covers.2

/-- The first round is the same body as the others, so its points mean the same in both. -/
theorem plus (steady : goal.Steady) (takes : body.consumes = true)
    (inner : Coverable text (point + 1) stop body ((Plan.star point greedy body).accepts goal)) :
    Coverable text point stop (.seq body (Plan.star point greedy body)) goal := by
  have distances := Assignable.onePoint point (((Plan.star point greedy body).accepts goal).At text)
  refine (distances.both inner).mono fun away covers => ?_
  exact covers.2.seq (covers_star steady covers.1 takes covers.2)

/-- The gate of a loop and the points of its body mean the same in every round. -/
theorem gatedLoop (steady : goal.Steady) (inner : Coverable text (fresh + 2) stop body
      ((gate fresh).accepts ((gatedLoop fresh (fresh + 1) greedy body).accepts goal))) :
    Assignable fresh stop fun away =>
      Covers text away body
        ((gate fresh).accepts ((Plan.gatedLoop fresh (fresh + 1) greedy body).accepts goal)) ∧
      Covers text away (.seq (gate fresh) (Plan.gatedLoop fresh (fresh + 1) greedy body)) goal := by
  let rounds := Plan.gatedLoop fresh (fresh + 1) greedy body
  have gates := Assignable.onePoint fresh (((gate fresh).accepts (rounds.accepts goal)).At text)
  have points := Assignable.onePoint (fresh + 1) ((rounds.accepts goal).At text)
  refine ((gates.both points).both inner).mono fun away covers => ?_
  obtain ⟨⟨gate_distance, distance⟩, covers⟩ := covers
  exact ⟨covers, covers_gatedLoop steady distance gate_distance covers⟩

end Coverable

/-- The plans made from any number on can cover what goal follows. -/
def AllCover (text : List Char) (make : Numbered) : Prop :=
  ∀ fresh (goal : Goal), goal.Steady → Coverable text fresh (make fresh).2 (make fresh).1 goal

namespace AllCover

variable {make : Numbered}

/-- Plans that need no numbers. -/
theorem pointless {plan : Plan} (covers : ∀ away goal, Covers text away plan goal) :
    AllCover text fun fresh => (plan, fresh) :=
  fun fresh goal _ => .always fresh fun away => covers away goal

theorem seq {one other : Numbered} (front : AllCover text one) (back : AllCover text other) :
    AllCover text fun fresh =>
      (.seq (one fresh).1 (other (one fresh).2).1, (other (one fresh).2).2) := by
  intro fresh goal steady
  have rest := back (one fresh).2 goal steady
  exact (front fresh _ (steady_accepts _ steady)).seq rest

theorem copies (cover : AllCover text make) (count : Nat) : AllCover text (copies make count) := by
  induction count with
  | zero => exact .pointless fun _ _ => covers_empty
  | succ count ih => exact cover.seq ih

theorem upTo (cover : AllCover text make) (gated greedy : Bool) (most : Nat) :
    AllCover text (upTo gated greedy make most) := by
  induction most with
  | zero => exact .pointless fun _ _ => covers_empty
  | succ most ih =>
    intro fresh goal steady
    have rest := ih (make (fresh + 2)).2 goal steady
    have rounds := (cover (fresh + 2) _ (steady_accepts _ steady)).seq rest
    exact (rounds.optional steady).behindGate gated steady

theorem gatedPlus (cover : AllCover text make) (greedy : Bool) :
    AllCover text (plus greedy true make) := by
  intro fresh goal steady
  let rounds := gatedLoop fresh (fresh + 1) greedy (make (fresh + 2)).1
  have inner := cover (fresh + 2) _ (steady_accepts (gate fresh) (steady_accepts rounds steady))
  refine (Coverable.gatedLoop steady inner).mono fun away covers => ?_
  have round : Covers text away (.seq (make (fresh + 2)).1 (.seq (gate fresh) rounds)) goal :=
    .seq covers.1 covers.2
  exact round.assoc

theorem plus (cover : AllCover text make) (greedy : Bool)
    (takes : ∀ fresh, (make fresh).1.consumes = true) : AllCover text (plus greedy false make) := by
  intro fresh goal steady
  have inner := cover (fresh + 2) _
    (steady_accepts (Plan.star (fresh + 1) greedy (make (fresh + 2)).1) steady)
  exact (Coverable.plus steady (takes (fresh + 2)) inner).skip (Nat.le_succ fresh)

/-- A loop whose rounds take characters, with a gate or without. -/
theorem loop (cover : AllCover text make) (takes : ∀ fresh, (make fresh).1.consumes = true)
    (gated greedy : Bool) (fresh : Nat) (goal : Goal) (steady : goal.Steady) :
    Coverable text fresh (make (fresh + 2)).2 (behindGate gated fresh
      (star (fresh + 1) greedy (beforeGate gated fresh (make (fresh + 2)).1))) goal := by
  cases gated
  · have inner := cover (fresh + 2) _
      (steady_accepts (Plan.star (fresh + 1) greedy (make (fresh + 2)).1) steady)
    exact (Coverable.star steady (takes (fresh + 2)) inner).skip (Nat.le_succ fresh)
  · let rounds := gatedLoop fresh (fresh + 1) greedy (make (fresh + 2)).1
    have inner := cover (fresh + 2) _ (steady_accepts (gate fresh) (steady_accepts rounds steady))
    exact (Coverable.gatedLoop steady inner).mono fun _ covers => covers.2

end AllCover

end Plan

/-! ### Searches for patterns -/

namespace Node

open Plan (AllCover Coverable covers_empty covers_literal covers_one covers_look steady_accepts)

variable {text : List Char}

/-- The rounds of a pattern, with gates if it can match nothing. -/
theorem covered_plus {body : Node} (cover : ∀ inLoop, AllCover text (body.planFrom inLoop))
    (greedy : Bool) : AllCover text (Plan.plus greedy body.nullable (body.planFrom true)) := by
  cases takes : body.nullable with
  | true => exact (cover true).gatedPlus greedy
  | false =>
    rw [planFrom_of_not_nullable takes true]
    exact (cover false).plus greedy (consumes_planFrom takes)

/-- Searches through the plans of patterns are thorough, with gates and without. -/
theorem covered_planFrom (node : Node) (inLoop : Bool) : AllCover text (node.planFrom inLoop) := by
  induction node generalizing inLoop with
  | empty => exact .pointless fun _ _ => covers_empty
  | literal word => exact .pointless fun _ _ => covers_literal word
  | one set => exact .pointless fun _ _ => covers_one set
  | look assertion => exact .pointless fun _ _ => covers_look assertion
  | seq first second first_ih second_ih => exact (first_ih _).seq (second_ih _)
  | alt first second first_ih second_ih =>
    intro fresh goal steady
    have one := first_ih (inLoop && (alt first second).nullable) (fresh + 2) goal steady
    exact (one.alt steady (second_ih _ _ goal steady)).behindGate _ steady
  | group index body ih => exact fun fresh goal steady => (ih _ fresh goal steady).group steady
  | repeated least most greedy body ih =>
    have outside := ih (inLoop && (repeated least most greedy body).nullable)
    cases most with
    | some most =>
      have rest := outside.upTo (inLoop && (repeated least (some most) greedy body).nullable) greedy
        (most - least)
      simp only [planFrom]
      exact (outside.copies least).seq rest
    | none =>
      cases least with
      | zero =>
        intro fresh goal steady
        simp only [planFrom]
        split
        · have rounds := (ih true).gatedPlus greedy (fresh + 2) goal steady
          exact (rounds.optional steady).behindGate _ steady
        · rename_i takes
          have takes : body.nullable = false := eq_false_of_ne_true takes
          exact (ih false).loop (consumes_planFrom takes) _ greedy fresh goal steady
      | succ least =>
        have front := outside.copies least
        simp only [planFrom, Nat.add_sub_cancel]
        exact front.seq (covered_plus ih greedy)

end Node

namespace Plan

variable {text : List Char} {away : Distances} {plan : Plan}

/-- What a search looks for: any place will do. -/
def anywhere : Goal := fun _ _ => True

theorem steady_anywhere : anywhere.Steady := fun _ _ _ _ met => met

/-- Where a search fails there is no way through the plan, and what was learned is as far away as
before. -/
theorem far_of_matchFrom (covers : Covers text away plan anywhere) {place : Place}
    (within : Within text place) {memo learned : Memo} (clear : ∀ limit, memo.Clear away limit)
    (failed : plan.matchFrom place memo = .failed learned) :
    (∀ n, ¬ plan.accepts anywhere n place) ∧ ∀ limit, learned.Clear away limit := by
  have refutes : Refutes away (fun _ _ => False) (plan.matchFrom place) fun n =>
      plan.accepts anywhere n place :=
    covers _ _ place within fun ended _ _ => .found ended
  have far (limit : Nat) := refutes limit memo learned (fun _ _ => False.elim) (clear limit) failed
  exact ⟨fun n => (far n).1 n (Nat.le_refl n), fun limit => (far limit).2.1⟩

/-- A place that lies behind another one lies behind a character that follows there. -/
theorem Within.advance_le {place other : Place} (within : Within text place)
    (other_within : Within text other) (behind : place.offset < other.offset) :
    ∃ c rest, place.rest = c :: rest ∧ (place.advance c rest).offset ≤ other.offset := by
  obtain ⟨front, whole, offset, _⟩ := within
  obtain ⟨longer, other_whole, other_offset, _⟩ := other_within
  obtain ⟨more, split, ahead⟩ := Text.exists_append_of_byteLength_le (whole.symm.trans other_whole)
    (by omega)
  have lengths : Text.byteLength longer = Text.byteLength front + Text.byteLength more := by
    rw [split, Text.byteLength_append]
  cases more with
  | nil =>
    rw [Text.byteLength] at lengths
    omega
  | cons c more =>
    rw [Text.byteLength] at lengths
    refine ⟨c, more ++ other.rest, ahead, ?_⟩
    show place.offset + c.utf8Size ≤ other.offset
    omega

/-- From the start of a search up to the match that it finds, there is no way through the plan. -/
theorem far_of_search (covers : Covers text away plan anywhere) {rest : List Char} {offset : Nat}
    {before : Option Char} (within : Within text { offset, before, rest }) {memo : Memo}
    (clear : ∀ limit, memo.Clear away limit) {place : Place} (place_within : Within text place)
    (behind : offset ≤ place.offset)
    (ahead : ∀ found, plan.search rest offset before memo = some found →
      place.offset < found.span.start) (n : Nat) :
    ¬ plan.accepts anywhere n place := by
  induction rest generalizing offset before memo with
  | nil =>
    rw [search] at ahead
    cases outcome : plan.matchFrom { offset, before, rest := [] } memo with
    | found ended =>
      rw [outcome] at ahead
      exact absurd (ahead _ rfl) (Nat.not_lt.mpr behind)
    | failed learned =>
      have far := (far_of_matchFrom covers within clear outcome).1 n
      by_cases later : offset < place.offset
      · obtain ⟨_, _, nothing, _⟩ := within.advance_le place_within later
        cases nothing
      · have here := place_within.samePosition within (by dsimp only; omega)
        exact fun met => far (steady_accepts plan steady_anywhere n _ _ here met)
  | cons c rest ih =>
    rw [search] at ahead
    cases outcome : plan.matchFrom { offset, before, rest := c :: rest } memo with
    | found ended =>
      rw [outcome] at ahead
      exact absurd (ahead _ rfl) (Nat.not_lt.mpr behind)
    | failed learned =>
      rw [outcome] at ahead
      obtain ⟨far, learned_clear⟩ := far_of_matchFrom covers within clear outcome
      by_cases later : offset < place.offset
      · obtain ⟨_, _, next, advanced⟩ := within.advance_le place_within later
        cases next
        exact ih (within.advance rfl) learned_clear advanced ahead
      · have here := place_within.samePosition within (by dsimp only; omega)
        exact fun met => far n (steady_accepts plan steady_anywhere n _ _ here met)

end Plan

namespace Node

variable {node : Node} {text : List Char}

/-- The points of a plan have distances with which every search for a match is thorough. -/
theorem exists_covers (node : Node) (text : List Char) :
    ∃ away, Plan.Covers text away node.plan Plan.anywhere := by
  obtain ⟨_, away, covers⟩ := node.covered_planFrom false 0 Plan.anywhere Plan.steady_anywhere
  exact ⟨away, covers away fun _ _ _ => rfl⟩

/-- Before the match that a search finds, the pattern leads nowhere, and if it finds none the pattern
leads nowhere from all places at which it is tried. -/
theorem leads_none_of_find? {anchored : Bool} {place : Place} (within : Plan.Within text place)
    (tried : anchored = true → place.offset = 0)
    (ahead : ∀ found, node.plan.find? anchored text = some found → place.offset < found.span.start)
    (ended : Place) : ¬ node.Leads place ended := by
  intro leads
  obtain ⟨away, covers⟩ := node.exists_covers text
  obtain ⟨n, met⟩ := Plan.accepts_of_leads (leads_plan.mpr leads) Plan.steady_anywhere ⟨0, trivial⟩
  have clear (limit : Nat) : Memo.blank.Clear away limit := Memo.clear_blank
  cases anchored with
  | false =>
    have behind := Nat.zero_le place.offset
    exact Plan.far_of_search covers Plan.within_start clear within behind ahead n met
  | true =>
    rw [Plan.find?, if_pos rfl] at ahead
    cases outcome : node.plan.matchFrom (.start text) .blank with
    | found ended =>
      rw [outcome] at ahead
      exact absurd (ahead _ rfl) (Nat.not_lt_zero _)
    | failed learned =>
      have far := (Plan.far_of_matchFrom covers Plan.within_start clear outcome).1 n
      have here := within.samePosition Plan.within_start (tried rfl)
      exact far (Plan.steady_accepts _ Plan.steady_anywhere n _ _ here met)

end Node

namespace Regex

/-- What a pattern matches that is tried at the start of the text only, and leads to one place at most. -/
theorem find?_ofNode_iff {node : Node} {text : List Char} (anchored : node.startsWith .textStart = true)
    (unique : ∀ one other, node.Leads (.start text) one → node.Leads (.start text) other → one = other)
    {found : Match} :
    (ofNode node).find? text = some found ↔
      ∃ ended, node.Leads (.start text) ended ∧ found = ⟨⟨0, ended.offset⟩, ended.groups⟩ := by
  have matched {found : Match} (find?_found : (ofNode node).find? text = some found) :
      ∃ ended, node.Leads (.start text) ended ∧ found = ⟨⟨0, ended.offset⟩, ended.groups⟩ := by
    obtain ⟨start, ended, _, _, at_start, leads, rfl⟩ := Plan.leads_of_find? find?_found
    obtain rfl := at_start anchored
    exact ⟨ended, Node.leads_plan.mp leads, rfl⟩
  constructor
  · exact matched
  · rintro ⟨ended, leads, rfl⟩
    cases outcome : (ofNode node).find? text with
    | none =>
      have ahead (found : Match) (find?_found : (ofNode node).find? text = some found) :
          (Place.start text).offset < found.span.start := by
        rw [outcome] at find?_found
        cases find?_found
      exact absurd leads (Node.leads_none_of_find? Plan.within_start (fun _ => rfl) ahead _)
    | some found =>
      obtain ⟨other, leads_too, rfl⟩ := matched outcome
      rw [unique _ _ leads leads_too]

end Regex

end TableLexer.Pattern
