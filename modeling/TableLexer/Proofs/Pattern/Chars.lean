/-
**Characters that a pattern takes or leaves out.**

Whether every match of a pattern has a certain character in it, or none has, can often be read off the plan,
and so can whether it takes characters of one kind only.

* `Leads.mem_of_needs`, `Leads.forall_passes`, `Leads.not_mem_of_avoids`, `Leads.beginsWith`: what a plan takes
  on the way.
* `Regex.mem_of_needs`: a text with a match of the pattern has the character.
* `Regex.find?_of_beginsWith`: a text that begins with another character than all matches has no match.
* `Regex.leads_of_eachGroup`: a group matched what its body leads over.
* `Regex.not_mem_of_groupAvoids`: what the group matched does not have the character.
-/

import TableLexer.Proofs.Pattern.Leads

namespace TableLexer.Pattern

/-! ### Kinds of characters -/

/-- A kind of characters, with a test for sets that have no others. -/
structure CharTest where
  passes : Char → Bool
  admits : CharSet → Bool
  sound : ∀ set, admits set = true → ∀ c, set.contains c = true → passes c = true

namespace CharTest

/-- All characters but one. -/
def except (c : Char) : CharTest where
  passes d := d != c
  admits set := !set.contains c
  sound set missing d inside := by
    refine bne_iff_ne.mpr fun same => ?_
    rw [← same, inside] at missing
    cases missing

/-- White space. -/
def blank : CharTest where
  passes := Text.isBlank
  admits set := set.ranges == Text.blankRanges
  sound set same c inside := by
    have inside : Text.inRanges c.toNat set.ranges = true := inside
    rwa [beq_iff_eq.mp same] at inside

theorem exists_range_of_inRanges {code : Nat} {ranges : List (Nat × Nat)}
    (inside : Text.inRanges code ranges = true) : ∃ range ∈ ranges, range.1 ≤ code ∧ code ≤ range.2 := by
  induction ranges with
  | nil => cases inside
  | cons range higher ih =>
    rw [Text.inRanges] at inside
    split at inside
    · cases inside
    · rename_i reached
      rcases (Bool.or_eq_true _ _).mp inside with last | further
      · exact ⟨range, List.mem_cons_self, Nat.not_lt.mp reached, of_decide_eq_true last⟩
      · obtain ⟨other, member, bounds⟩ := ih further
        exact ⟨other, List.mem_cons_of_mem range member, bounds⟩

/-- The characters of the spans, tested by the ranges of a set. -/
def ofSpans (spans : List (Nat × Nat)) (passes : Char → Bool)
    (pass : ∀ span ∈ spans, ∀ code ∈ List.range' span.1 (span.2 + 1 - span.1),
      passes (.ofNat code) = true) : CharTest where
  passes
  admits set := set.ranges.all fun range =>
    spans.any fun span => decide (span.1 ≤ range.1) && decide (range.2 ≤ span.2)
  sound set covered c inside := by
    obtain ⟨range, member, low, high⟩ := exists_range_of_inRanges inside
    obtain ⟨span, listed, covers⟩ := List.any_eq_true.mp (List.all_eq_true.mp covered range member)
    simp only [Bool.and_eq_true, decide_eq_true_eq] at covers
    have code : c.toNat ∈ List.range' span.1 (span.2 + 1 - span.1) := by
      rw [List.mem_range'_1]
      omega
    have passed := pass span listed c.toNat code
    rwa [Char.ofNat_toNat] at passed

/-- Word characters, tested in ASCII. -/
def word : CharTest :=
  ofSpans [(48, 57), (65, 90), (95, 95), (97, 122)] Text.isWordChar (by decide)

/-- Characters that are no white space, tested in ASCII. -/
def unblank : CharTest := ofSpans [(33, 126)] (fun c => !Text.isBlank c) (by decide)

end CharTest

namespace Plan

variable {c : Char} {plan : Plan} {place ended : Place}

/-- Whatever the plan takes, the character is part of it. -/
def needs (c : Char) : Plan → Bool
  | literal text => text.contains c
  | seq first second => first.needs c || second.needs c
  | alt _ first second => first.needs c && second.needs c
  | group _ body => body.needs c
  | _ => false

/-- Whatever the plan takes, the character is no part of it. -/
def avoids (c : Char) : Plan → Bool
  | literal text => !text.contains c
  | one set | many _ _ set => !set.contains c
  | seq first second | alt _ first second => first.avoids c && second.avoids c
  | loop _ _ body | group _ body => body.avoids c
  | empty | look _ | gate _ => true

theorem Leads.mem_of_needs (needs : plan.needs c = true) (leads : plan.Leads place ended) :
    ∃ taken, place.Takes taken ended ∧ c ∈ taken := by
  induction leads with
  | @literal text _ _ found =>
    exact ⟨text, (Place.Takes.after? found).1, List.contains_iff_mem.mp needs⟩
  | seq front back front_ih back_ih =>
    rcases (Bool.or_eq_true _ _).mp needs with needs | needs
    · obtain ⟨taken, one, member⟩ := front_ih needs
      obtain ⟨more, other⟩ := back.takes
      exact ⟨taken ++ more, one.trans other, List.mem_append_left more member⟩
    · obtain ⟨taken, one⟩ := front.takes
      obtain ⟨more, other, member⟩ := back_ih needs
      exact ⟨taken ++ more, one.trans other, List.mem_append_right taken member⟩
  | altFirst _ ih => exact ih ((Bool.and_eq_true _ _).mp needs).1
  | altSecond _ ih => exact ih ((Bool.and_eq_true _ _).mp needs).2
  | group _ ih =>
    obtain ⟨taken, takes, member⟩ := ih needs
    exact ⟨taken, takes.close .., member⟩
  | _ => cases needs

/-- Whatever the plan takes passes the test. -/
def takesOnly (test : CharTest) : Plan → Bool
  | literal text => text.all test.passes
  | one set | many _ _ set => test.admits set
  | seq first second | alt _ first second => first.takesOnly test && second.takesOnly test
  | loop _ _ body | group _ body => body.takesOnly test
  | empty | look _ | gate _ => true

theorem Leads.forall_passes {test : CharTest} (only : plan.takesOnly test = true)
    (leads : plan.Leads place ended) :
    ∃ taken, place.Takes taken ended ∧ ∀ c ∈ taken, test.passes c = true := by
  have joined {taken more : List Char} (one : ∀ c ∈ taken, test.passes c = true)
      (other : ∀ c ∈ more, test.passes c = true) : ∀ c ∈ taken ++ more, test.passes c = true :=
    fun c member => (List.mem_append.mp member).elim (one c) (other c)
  have single {set : CharSet} {d : Char} (admitted : test.admits set = true)
      (inside : set.contains d = true) : ∀ c ∈ [d], test.passes c = true := fun c member =>
    List.mem_singleton.mp member ▸ test.sound set admitted d inside
  induction leads with
  | empty place | gate _ place | manyStop _ _ _ place | loopStop _ _ _ place =>
    exact ⟨[], .refl place, fun _ member => absurd member List.not_mem_nil⟩
  | look => exact ⟨[], .refl _, fun _ member => absurd member List.not_mem_nil⟩
  | @literal text _ _ found => exact ⟨text, (Place.Takes.after? found).1, List.all_eq_true.mp only⟩
  | one found =>
    obtain ⟨d, inside, takes, _⟩ := Place.Takes.afterOne? found
    exact ⟨[d], takes, single only inside⟩
  | seq _ _ front_ih back_ih =>
    obtain ⟨front, back⟩ := (Bool.and_eq_true _ _).mp only
    obtain ⟨taken, one, passes⟩ := front_ih front
    obtain ⟨more, other, pass⟩ := back_ih back
    exact ⟨taken ++ more, one.trans other, joined passes pass⟩
  | altFirst _ ih => exact ih ((Bool.and_eq_true _ _).mp only).1
  | altSecond _ ih => exact ih ((Bool.and_eq_true _ _).mp only).2
  | manyMore found _ ih =>
    obtain ⟨d, inside, one, _⟩ := Place.Takes.afterOne? found
    obtain ⟨more, other, pass⟩ := ih only
    exact ⟨[d] ++ more, one.trans other, joined (single only inside) pass⟩
  | loopMore _ _ round_ih more_ih =>
    obtain ⟨taken, one, passes⟩ := round_ih only
    obtain ⟨more, other, pass⟩ := more_ih only
    exact ⟨taken ++ more, one.trans other, joined passes pass⟩
  | group _ ih =>
    obtain ⟨taken, takes, passes⟩ := ih only
    exact ⟨taken, takes.close .., passes⟩

/-- The plan takes no character. -/
def takesNothing : Plan → Bool
  | empty | look _ | gate _ => true
  | literal _ | one _ | seq _ _ | alt _ _ _ | many _ _ _ | loop _ _ _ | group _ _ => false

/-- Whatever the plan takes begins with a character that passes the test. -/
def beginsWith (test : CharTest) : Plan → Bool
  | literal text => text.head?.any test.passes
  | one set => test.admits set
  | seq first second => first.beginsWith test || first.takesNothing && second.beginsWith test
  | alt _ first second => first.beginsWith test && second.beginsWith test
  | group _ body => body.beginsWith test
  | empty | look _ | gate _ | many _ _ _ | loop _ _ _ => false

theorem Leads.eq_of_takesNothing (nothing : plan.takesNothing = true) (leads : plan.Leads place ended) :
    ended = place := by
  cases leads with
  | empty | look | gate => rfl
  | _ => cases nothing

theorem Leads.beginsWith {test : CharTest} (begins : plan.beginsWith test = true)
    (leads : plan.Leads place ended) : place.rest.head?.any test.passes = true := by
  induction leads with
  | @literal text _ _ found =>
    rw [(Place.Takes.after? found).1.rest]
    cases text with
    | nil => cases begins
    | cons => exact begins
  | one found =>
    obtain ⟨d, inside, takes, _⟩ := Place.Takes.afterOne? found
    rw [takes.rest]
    exact test.sound _ begins d inside
  | seq front _ front_ih back_ih =>
    rcases (Bool.or_eq_true _ _).mp begins with begins | later
    · exact front_ih begins
    · obtain ⟨nothing, begins⟩ := (Bool.and_eq_true _ _).mp later
      rw [← front.eq_of_takesNothing nothing]
      exact back_ih begins
  | altFirst _ ih => exact ih ((Bool.and_eq_true _ _).mp begins).1
  | altSecond _ ih => exact ih ((Bool.and_eq_true _ _).mp begins).2
  | group _ ih => exact ih begins
  | _ => cases begins

theorem takesOnly_except (c : Char) (plan : Plan) :
    plan.takesOnly (.except c) = plan.avoids c := by
  induction plan with
  | empty | look | gate | one | many => rfl
  | literal text =>
    show (text.all fun d => d != c) = !text.contains c
    rw [List.contains_eq_any_beq, List.not_any_eq_all_not]
    exact congrArg text.all (funext fun d => congrArg not BEq.comm)
  | seq _ _ first_ih second_ih | alt _ _ _ first_ih second_ih =>
    rw [takesOnly, avoids, first_ih, second_ih]
  | loop _ _ _ ih | group _ _ ih => exact ih

theorem Leads.not_mem_of_avoids (avoids : plan.avoids c = true) (leads : plan.Leads place ended) :
    ∃ taken, place.Takes taken ended ∧ c ∉ taken := by
  obtain ⟨taken, takes, passes⟩ := leads.forall_passes ((takesOnly_except c plan).trans avoids)
  exact ⟨taken, takes, fun member => bne_iff_ne.mp (passes c member) rfl⟩

end Plan

namespace Regex

variable {c : Char} {regex : Regex} {text : List Char} {found : Match}

/-- A text with a match has the characters that the pattern needs. -/
theorem mem_of_needs (needs : regex.plan.needs c = true) (find?_found : regex.find? text = some found) :
    c ∈ text := by
  obtain ⟨start, ended, within, _, _, leads, _⟩ := Plan.leads_of_find? find?_found
  obtain ⟨front, split, _, _⟩ := within
  obtain ⟨taken, takes, member⟩ := leads.mem_of_needs needs
  rw [split, takes.rest]
  exact List.mem_append_right front (List.mem_append_left ended.rest member)

/-- A text that begins with another character is not matched. -/
theorem find?_of_beginsWith {test : CharTest} (anchored : regex.anchored = true)
    (begins : regex.plan.beginsWith test = true) (other : text.head?.any test.passes = false) :
    regex.find? text = none := by
  cases outcome : regex.find? text with
  | none => rfl
  | some found =>
    obtain ⟨start, ended, _, _, at_start, leads, _⟩ := Plan.leads_of_find? outcome
    obtain rfl := at_start anchored
    have passes : text.head?.any test.passes = true := leads.beginsWith begins
    rw [other] at passes
    cases passes

/-- All groups of this number have a body that passes the test. -/
def eachGroup (regex : Regex) (index : Nat) (test : Plan → Bool) : Bool :=
  index != 0 && regex.plan.allGroups fun number body => number != index || test body

/-- What the group matched lies on the way of a body that passes the test. -/
theorem leads_of_eachGroup {index : Nat} {test : Plan → Bool} (passes : regex.eachGroup index test = true)
    (find?_found : regex.find? text = some found) {span : Span}
    (participates : found.group? index = some span) :
    ∃ body first last, test body = true ∧ body.Leads first last ∧
      first.Takes (Text.slice text span.start span.stop) last := by
  obtain ⟨proper, groups⟩ := (Bool.and_eq_true _ _).mp passes
  obtain ⟨body, first, last, tested, within, leads, same⟩ :=
    Plan.notes_of_find? groups find?_found (by simpa using proper) participates
  obtain ⟨taken, takes⟩ := leads.takes
  obtain ⟨front, split, offset, _⟩ := within
  have whole : text = front ++ (taken ++ last.rest) := by rw [split, takes.rest]
  have same : span = ⟨first.offset, last.offset⟩ := same
  refine ⟨body, first, last, by simpa using tested, leads, ?_⟩
  rw [same, takes.offset, offset, whole, Text.slice_append]
  exact takes

/-- No group of this number takes the character. -/
def groupAvoids (regex : Regex) (c : Char) (index : Nat) : Bool :=
  index != 0 && regex.plan.allGroups fun number body => number != index || body.avoids c

/-- What the group matched does not have the characters that it avoids. -/
theorem not_mem_of_groupAvoids {index : Nat} (avoids : regex.groupAvoids c index = true)
    (find?_found : regex.find? text = some found) {span : Span}
    (participates : found.group? index = some span) : c ∉ Text.slice text span.start span.stop := by
  have each : regex.eachGroup index (·.avoids c) = true := avoids
  obtain ⟨body, first, last, avoided, leads, takes⟩ := leads_of_eachGroup each find?_found participates
  obtain ⟨taken, other, missing⟩ := leads.not_mem_of_avoids avoided
  rwa [takes.eq other]

end Regex

end TableLexer.Pattern
