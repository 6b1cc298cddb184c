/-
**Searches without gates.**

A loop whose body takes a character needs no gates. For a pattern with such loops only, a search with a memo
finds what a run of its plan finds.

* `Plan.Explainable`: there is a set of points and positions that says where the search from the points of a
  plan fails. The ways in which plans are made keep this.
* `Node.explainable_planFrom`: the plan of a pattern whose loops take a character can be explained.
* `Node.find?_plan`: the match that a search finds for such a pattern is the one that a run finds.
-/

import TableLexer.Pattern.Learned

namespace TableLexer.Pattern

namespace Plan

open Place (SamePosition)

variable {text : List Char}

/-! ### Where a run fails in a text -/

/-- A text has one place at a position, whatever its groups have matched. -/
theorem Within.samePosition {place other : Place} (within : Within text place)
    (other_within : Within text other) (offsets : place.offset = other.offset) :
    SamePosition place other := by
  obtain ⟨front, whole, offset, before⟩ := within
  obtain ⟨otherFront, otherWhole, otherOffset, otherBefore⟩ := other_within
  have lengths : Text.byteLength front = Text.byteLength otherFront := by omega
  have fronts : front = otherFront := by
    have first := Text.takeBytes_byteLength_append front place.rest
    have second := Text.takeBytes_byteLength_append otherFront other.rest
    rw [← whole] at first
    rw [← otherWhole, ← lengths] at second
    exact first.symm.trans second
  subst fronts
  exact ⟨offsets, before.trans otherBefore.symm, List.append_cancel_left (whole.symm.trans otherWhole)⟩

/-- The run fails at the place of the text with the given position. -/
def FailsAt (text : List Char) (result : Place → Option Place) (offset : Nat) : Prop :=
  ∃ place, Within text place ∧ place.offset = offset ∧ result place = none

theorem failsAt_iff {result other : Place → Option Place} (alike : FailsAlike result other)
    {place : Place} (within : Within text place) :
    FailsAt text result place.offset ↔ other place = none := by
  constructor
  · rintro ⟨witness, witness_within, offset, failing⟩
    exact (alike _ _ (witness_within.samePosition within offset)).mp failing
  · exact fun failing =>
      ⟨place, within, rfl, (alike _ _ (SamePosition.refl place)).mpr failing⟩

/-! ### How plans are explained -/

/-- The points of the plan have numbers from `fresh` on and below `stop`, and there is a description of
where the search from them fails. -/
def Explainable (text : List Char) (fresh stop : Nat) (plan : Plan)
    (next : Place → Option Place) : Prop :=
  fresh ≤ stop ∧ ∃ dead : Nat → Nat → Prop, ∀ other : Nat → Nat → Prop,
    (∀ point offset, fresh ≤ point → point < stop → (other point offset ↔ dead point offset)) →
    ∀ alternative, FailsAlike next alternative → plan.Explains text other alternative

theorem explainable_of_pointless {plan : Plan} {next : Place → Option Place} (fresh : Nat)
    (explained : ∀ dead alternative, plan.Explains text dead alternative) :
    Explainable text fresh fresh plan next :=
  ⟨Nat.le_refl _, fun _ _ => False, fun other _ alternative _ => explained other alternative⟩

theorem Explainable.seq {first second : Plan} {next : Place → Option Place} {fresh middle stop : Nat}
    (one : Explainable text fresh middle first (second.run next))
    (other : Explainable text middle stop second next) :
    Explainable text fresh stop (.seq first second) next := by
  obtain ⟨one_le, one_dead, one_explains⟩ := one
  obtain ⟨other_le, other_dead, other_explains⟩ := other
  refine ⟨by omega, fun point => if point < middle then one_dead point else other_dead point, ?_⟩
  intro dead agrees alternative alike
  refine ⟨one_explains dead (fun point offset low high => ?_) _ (second.run_alike alike),
    other_explains dead (fun point offset low high => ?_) _ alike⟩
  · exact (agrees point offset low (by omega)).trans (by simp [high])
  · exact (agrees point offset (by omega) high).trans (by simp [Nat.not_lt.mpr low])

theorem Explainable.alt {first second : Plan} {next : Place → Option Place}
    {fresh point middle stop : Nat} (low : fresh ≤ point)
    (one : Explainable text (point + 1) middle first next)
    (other : Explainable text middle stop second next) :
    Explainable text fresh stop (.alt point first second) next := by
  obtain ⟨one_le, one_dead, one_explains⟩ := one
  obtain ⟨other_le, other_dead, other_explains⟩ := other
  refine ⟨by omega, fun number =>
    if number = point then FailsAt text ((Plan.alt point first second).run next)
    else if number < middle then one_dead number else other_dead number, ?_⟩
  intro dead agrees alternative alike
  refine ⟨fun place within => ?_,
    one_explains dead (fun number offset low high => ?_) _ alike,
    other_explains dead (fun number offset low high => ?_) _ alike⟩
  · refine (agrees point _ low (by omega)).trans ?_
    simpa using failsAt_iff (run_alike _ alike) within
  · have apart : number ≠ point := by omega
    exact (agrees number offset (by omega) (by omega)).trans (by simp [apart, high])
  · have apart : number ≠ point := by omega
    exact (agrees number offset (by omega) high).trans (by simp [apart, Nat.not_lt.mpr low])

theorem explainable_many {set : CharSet} {greedy : Bool} {next : Place → Option Place}
    {fresh point stop : Nat} (low : fresh ≤ point) (high : point < stop) :
    Explainable text fresh stop (many point greedy set) next := by
  refine ⟨by omega, fun _ => FailsAt text ((many point greedy set).run next), ?_⟩
  intro dead agrees alternative alike place within
  exact (agrees point _ low high).trans (failsAt_iff (run_alike _ alike) within)

/-- A round of a loop and the loop behind it have the same points, which mean the same in both. -/
theorem Explainable.rounds {body : Plan} {greedy : Bool} {next : Place → Option Place}
    {fresh point stop : Nat} (low : fresh ≤ point) (takes : body.consumes = true)
    (inner : Explainable text (point + 1) stop body ((Plan.loop point greedy body).run next)) :
    Explainable text fresh stop (.seq body (.loop point greedy body)) next := by
  obtain ⟨inner_le, inner_dead, inner_explains⟩ := inner
  refine ⟨by omega, fun number =>
    if number = point then FailsAt text ((Plan.loop point greedy body).run next)
    else inner_dead number, ?_⟩
  intro dead agrees alternative alike
  have explained := inner_explains dead (fun number offset low high => by
    have apart : number ≠ point := by omega
    exact (agrees number offset (by omega) high).trans (by simp [apart])) _ (run_alike _ alike)
  refine ⟨explained, fun place within => ?_, takes, explained⟩
  refine (agrees point _ low (by omega)).trans ?_
  simpa using failsAt_iff (run_alike _ alike) within

theorem Explainable.second {first second : Plan} {next : Place → Option Place} {fresh stop : Nat}
    (both : Explainable text fresh stop (.seq first second) next) :
    Explainable text fresh stop second next := by
  obtain ⟨le, dead, explains⟩ := both
  exact ⟨le, dead, fun other agrees alternative alike => (explains other agrees alternative alike).2⟩

theorem Explainable.group {body : Plan} {index : Nat} {next : Place → Option Place}
    {fresh stop : Nat} (inner : Explainable text fresh stop body next) :
    Explainable text fresh stop (.group index body) next := by
  obtain ⟨inner_le, inner_dead, inner_explains⟩ := inner
  refine ⟨inner_le, inner_dead, fun dead agrees alternative alike start => ?_⟩
  exact inner_explains dead agrees _ fun place otherPlace same =>
    alike _ _ ⟨same.offset, same.before, same.rest⟩

/-! ### Plans with numbers from any number on -/

/-- Plans made from any number on can be explained, whatever follows them. -/
def AllExplainable (text : List Char) (make : Numbered) : Prop :=
  ∀ fresh next, Explainable text fresh (make fresh).2 (make fresh).1 next

theorem AllExplainable.copies {body : Numbered} (explainable : AllExplainable text body) (count : Nat) :
    AllExplainable text (copies body count) := by
  induction count with
  | zero => exact fun fresh next => explainable_of_pointless fresh fun _ _ => trivial
  | succ count ih => exact fun fresh next => (explainable fresh _).seq (ih _ next)

theorem AllExplainable.upTo {body : Numbered} (explainable : AllExplainable text body)
    (greedy : Bool) (count : Nat) : AllExplainable text (upTo false greedy body count) := by
  induction count with
  | zero => exact fun fresh next => explainable_of_pointless fresh fun _ _ => trivial
  | succ count ih =>
    intro fresh next
    have rounds : Explainable text (fresh + 2) (Plan.upTo false greedy body (count + 1) fresh).2
        (.seq (body (fresh + 2)).1 (Plan.upTo false greedy body count (body (fresh + 2)).2).1) next :=
      (explainable (fresh + 2) _).seq (ih _ next)
    have nothing (number : Nat) : Explainable text number number empty next :=
      explainable_of_pointless number fun _ _ => trivial
    cases greedy
    · exact Explainable.alt (Nat.le_succ fresh) (nothing _) rounds
    · exact Explainable.alt (Nat.le_succ fresh) rounds (nothing _)

theorem Explainable.star {body : Plan} {greedy : Bool} {next : Place → Option Place}
    {fresh point stop : Nat} (low : fresh ≤ point) (takes : body.consumes = true)
    (inner : Explainable text (point + 1) stop body ((star point greedy body).run next)) :
    Explainable text fresh stop (.seq body (star point greedy body)) next := by
  have high := inner.1
  cases body with
  | one set =>
    have round : Explainable text fresh fresh (one set) ((many point greedy set).run next) :=
      explainable_of_pointless fresh fun _ _ => trivial
    exact round.seq (explainable_many low (by omega))
  | _ => exact Explainable.rounds low takes inner

theorem AllExplainable.plus {body : Numbered} (explainable : AllExplainable text body) (greedy : Bool)
    (takes : ∀ fresh, (body fresh).1.consumes = true) :
    AllExplainable text (plus greedy false body) := fun fresh next =>
  .star (Nat.le_succ fresh) (takes _)
    (explainable (fresh + 2) ((star (fresh + 1) greedy (body (fresh + 2)).1).run next))

end Plan

/-! ### Patterns whose loops take a character -/

namespace Node

open Plan (AllExplainable Explainable)

/-- Every loop of the pattern takes a character in every round. -/
def loopsTakeChars : Node → Bool
  | empty | literal _ | one _ | look _ => true
  | seq first second | alt first second => first.loopsTakeChars && second.loopsTakeChars
  | repeated _ most _ body => (most.isSome || !body.nullable) && body.loopsTakeChars
  | group _ body => body.loopsTakeChars

/-- A pattern that takes a character has the same plan in every loop. -/
theorem planFrom_of_not_nullable {node : Node} (takes : node.nullable = false) (inLoop : Bool) :
    node.planFrom inLoop = node.planFrom false := by
  funext fresh
  unfold planFrom
  rw [takes, Bool.and_false, Bool.and_false]

theorem consumes_copies {body : Plan.Numbered} (takes : ∀ fresh, (body fresh).1.consumes = true)
    {count : Nat} (some_copies : 0 < count) (fresh : Nat) :
    (Plan.copies body count fresh).1.consumes = true := by
  cases count with
  | zero => omega
  | succ count => simp [Plan.copies, Plan.consumes, takes]

/-- The plan of a pattern that takes a character takes one. -/
theorem consumes_planFrom {node : Node} (takes : node.nullable = false) (fresh : Nat) :
    (node.planFrom false fresh).1.consumes = true := by
  induction node generalizing fresh with
  | empty | look => simp [nullable] at takes
  | literal text => simpa [planFrom, Plan.consumes, nullable] using takes
  | one set => rfl
  | seq first second first_ih second_ih =>
    simp only [nullable, Bool.and_eq_false_iff] at takes
    simp only [planFrom, Bool.false_and, Plan.consumes, Bool.or_eq_true]
    rcases takes with takes | takes
    · exact .inl (first_ih takes _)
    · exact .inr (second_ih takes _)
  | alt first second first_ih second_ih =>
    simp only [nullable, Bool.or_eq_false_iff] at takes
    simp [planFrom, Plan.behindGate, Plan.consumes, first_ih takes.1, second_ih takes.2]
  | repeated least most greedy body ih =>
    simp only [nullable, Bool.or_eq_false_iff, beq_eq_false_iff_ne] at takes
    obtain ⟨some_rounds, takes⟩ := takes
    cases most with
    | none =>
      cases least with
      | zero => exact absurd rfl some_rounds
      | succ least =>
        simp [planFrom, takes, planFrom_of_not_nullable takes true, Plan.plus, Plan.beforeGate,
          Plan.consumes, ih takes]
    | some most =>
      simp [planFrom, Plan.consumes,
        consumes_copies (ih takes) (Nat.pos_of_ne_zero some_rounds)]
  | group index body ih => simpa [planFrom, Plan.consumes, nullable] using ih takes fresh

/-- The plan of a pattern whose loops take a character can be explained. -/
theorem explainable_planFrom {text : List Char} {node : Node} (takes : node.loopsTakeChars = true) :
    AllExplainable text (node.planFrom false) := by
  induction node with
  | empty | literal | one | look =>
    exact fun fresh next => Plan.explainable_of_pointless fresh fun _ _ => trivial
  | seq first second first_ih second_ih =>
    simp only [loopsTakeChars, Bool.and_eq_true] at takes
    exact fun fresh next => (first_ih takes.1 fresh _).seq (second_ih takes.2 _ next)
  | alt first second first_ih second_ih =>
    simp only [loopsTakeChars, Bool.and_eq_true] at takes
    exact fun fresh next =>
      .alt (Nat.le_succ fresh) (first_ih takes.1 (fresh + 2) next) (second_ih takes.2 _ next)
  | repeated least most greedy body ih =>
    simp only [loopsTakeChars, Bool.and_eq_true] at takes
    obtain ⟨rounds, body_takes⟩ := takes
    have body_explained := ih body_takes
    cases most with
    | some most =>
      intro fresh next
      simp only [planFrom, Bool.false_and]
      exact (body_explained.copies least fresh _).seq (body_explained.upTo greedy _ _ next)
    | none =>
      have takes : body.nullable = false := by simpa using rounds
      have consumes := consumes_planFrom takes
      cases least with
      | zero =>
        intro fresh next
        simp only [planFrom, takes, Bool.false_and, Plan.beforeGate, Plan.behindGate]
        exact (Plan.Explainable.star (Nat.le_succ fresh) (consumes _)
          (body_explained (fresh + 2) _)).second
      | succ least =>
        have plus : AllExplainable text (Plan.plus greedy body.nullable (body.planFrom true)) := by
          rw [takes, planFrom_of_not_nullable takes true]
          exact body_explained.plus greedy consumes
        exact fun fresh next => (body_explained.copies _ fresh _).seq (plus _ next)
  | group index body ih => exact fun fresh next => (ih takes fresh _).group

end Node

/-! ### What a search finds -/

namespace Plan

/-- The first match of a run that starts at the place or later. -/
def firstRun (plan : Plan) : List Char → Nat → Option Char → Option Match
  | text, offset, before =>
    match plan.run some { offset, before, rest := text } with
    | some ended => some (.upTo offset ended)
    | none =>
      match text with
      | [] => none
      | c :: rest => plan.firstRun rest (offset + c.utf8Size) (some c)

/-- The match that a run finds. A plan that is anchored is tried at the start only. -/
def findRun (plan : Plan) (anchored : Bool) (text : List Char) : Option Match :=
  if anchored then (plan.run some (.start text)).map (.upTo 0) else plan.firstRun text 0 none

variable {text : List Char} {dead : Nat → Nat → Prop}

theorem agrees_matchFrom {plan : Plan} (explained : plan.Explains text dead some) {place : Place}
    (within : Within text place) :
    Outcome.AgreesFrom dead (plan.matchFrom place) (plan.run some place) :=
  plan.agrees_explore explained within fun ended _ _ _ _ => .found ended

theorem search_eq_firstRun {plan : Plan} (explained : plan.Explains text dead some) {rest : List Char}
    {offset : Nat} {before : Option Char} (within : Within text { offset, before, rest })
    {memo : Memo} (sound : memo.Sound dead) :
    plan.search rest offset before memo = plan.firstRun rest offset before := by
  induction rest generalizing offset before memo with
  | nil =>
    have agrees := agrees_matchFrom explained within memo sound
    rw [search, firstRun]
    generalize plan.matchFrom _ memo = outcome at agrees ⊢
    generalize plan.run some _ = result at agrees ⊢
    cases agrees <;> rfl
  | cons c rest ih =>
    have agrees := agrees_matchFrom explained within memo sound
    rw [search, firstRun]
    generalize plan.matchFrom _ memo = outcome at agrees ⊢
    generalize plan.run some _ = result at agrees ⊢
    cases agrees with
    | found ended => rfl
    | failed learned learned_sound => exact ih (within.advance rfl) learned_sound

end Plan

/-- A pattern whose loops take a character finds the match that a run finds. -/
theorem Node.find?_plan {node : Node} (takes : node.loopsTakeChars = true) (anchored : Bool)
    (text : List Char) : node.plan.find? anchored text = node.plan.findRun anchored text := by
  obtain ⟨_, dead, explains⟩ := node.explainable_planFrom takes 0 some
  have explained : node.plan.Explains text dead some :=
    explains dead (fun _ _ _ _ => Iff.rfl) some fun _ _ same => by simp
  cases anchored
  · exact Plan.search_eq_firstRun explained Plan.within_start (Memo.sound_blank dead)
  · have agrees := Plan.agrees_matchFrom explained Plan.within_start .blank (Memo.sound_blank dead)
    rw [Plan.find?, Plan.findRun]
    generalize node.plan.matchFrom _ _ = outcome at agrees ⊢
    generalize node.plan.run some _ = result at agrees ⊢
    cases agrees <;> rfl

end TableLexer.Pattern
