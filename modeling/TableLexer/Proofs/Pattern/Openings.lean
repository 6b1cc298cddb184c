/-
**How a match begins.**

With which characters a match begins can be read off the plan of a pattern, and so can that it takes a
character at all. A text that begins otherwise is passed over: nothing of it is matched, or the empty text.

* `Leads.ne_nil_of_consumes`: what a plan takes that takes a character.
* `Leads.opensWith`: what a plan takes begins with a character of a kind, unless it is nothing.
* `Regex.passesOver_of_opensWith`: a text that begins with another character is passed over.
* `Node.leads_atStart_iff`, `Regex.find?_atStart_iff`: a plain pattern that is tried at the start of the text.
* `Regex.exists_find?_of_spells`: such a pattern matches where a text that it spells stands first.
-/

import TableLexer.Proofs.Pattern.Chars
import TableLexer.Proofs.Pattern.Complete
import TableLexer.Proofs.Pattern.Spelled

namespace TableLexer.Pattern

namespace Plan

variable {plan : Plan} {place ended : Place} {taken : List Char}

/-- A plan that takes a character leads over some text. -/
theorem Leads.exists_takes_of_consumes (takes : plan.consumes = true) (leads : plan.Leads place ended) :
    ∃ taken, place.Takes taken ended ∧ taken ≠ [] := by
  induction leads with
  | @literal text _ _ found =>
    refine ⟨text, (Place.Takes.after? found).1, ?_⟩
    rintro rfl
    cases takes
  | one found =>
    obtain ⟨c, _, along, _⟩ := Place.Takes.afterOne? found
    exact ⟨[c], along, List.cons_ne_nil c []⟩
  | seq front back front_ih back_ih =>
    rcases (Bool.or_eq_true _ _).mp takes with takes | takes
    · obtain ⟨text, one, some_text⟩ := front_ih takes
      obtain ⟨more, other⟩ := back.takes
      exact ⟨text ++ more, one.trans other, List.append_ne_nil_of_left_ne_nil some_text more⟩
    · obtain ⟨text, one⟩ := front.takes
      obtain ⟨more, other, some_more⟩ := back_ih takes
      exact ⟨text ++ more, one.trans other, List.append_ne_nil_of_right_ne_nil text some_more⟩
  | altFirst _ ih => exact ih ((Bool.and_eq_true _ _).mp takes).1
  | altSecond _ ih => exact ih ((Bool.and_eq_true _ _).mp takes).2
  | group _ ih =>
    obtain ⟨text, along, some_text⟩ := ih takes
    exact ⟨text, along.close .., some_text⟩
  | _ => cases takes

theorem Leads.ne_nil_of_consumes (takes : plan.consumes = true) (leads : plan.Leads place ended)
    (along : place.Takes taken ended) : taken ≠ [] := by
  obtain ⟨text, other, some_text⟩ := leads.exists_takes_of_consumes takes
  rwa [along.eq other]

/-- Whatever the plan takes begins with a character that passes the test, unless it is nothing. -/
def opensWith (test : CharTest) : Plan → Bool
  | literal text => text.head?.all test.passes
  | one set | many _ _ set => test.admits set
  | seq first second => first.opensWith test && (first.consumes || second.opensWith test)
  | alt _ first second => first.opensWith test && second.opensWith test
  | loop _ _ body | group _ body => body.opensWith test
  | empty | look _ | gate _ => true

/-- A text begins with a character of the kind if its first part does that is not empty. -/
theorem head?_all_append {test : Char → Bool} {first second : List Char}
    (front : first.head?.all test = true) (back : first = [] → second.head?.all test = true) :
    (first ++ second).head?.all test = true := by
  cases first with
  | nil => exact back rfl
  | cons c rest => exact front

theorem Leads.opensWith {test : CharTest} (opens : plan.opensWith test = true)
    (leads : plan.Leads place ended) :
    ∃ taken, place.Takes taken ended ∧ taken.head?.all test.passes = true := by
  induction leads with
  | empty place | gate _ place | manyStop _ _ _ place | loopStop _ _ _ place =>
    exact ⟨[], .refl place, rfl⟩
  | look => exact ⟨[], .refl _, rfl⟩
  | @literal text _ _ found => exact ⟨text, (Place.Takes.after? found).1, opens⟩
  | one found =>
    obtain ⟨d, inside, takes, _⟩ := Place.Takes.afterOne? found
    exact ⟨[d], takes, test.sound _ opens d inside⟩
  | seq front back front_ih back_ih =>
    obtain ⟨first, second⟩ := (Bool.and_eq_true _ _).mp opens
    obtain ⟨taken, one, passes⟩ := front_ih first
    rcases (Bool.or_eq_true _ _).mp second with takes | second
    · obtain ⟨more, other⟩ := back.takes
      have some_text := front.ne_nil_of_consumes takes one
      exact ⟨taken ++ more, one.trans other, head?_all_append passes fun nothing => absurd nothing some_text⟩
    · obtain ⟨more, other, pass⟩ := back_ih second
      exact ⟨taken ++ more, one.trans other, head?_all_append passes fun _ => pass⟩
  | altFirst _ ih => exact ih ((Bool.and_eq_true _ _).mp opens).1
  | altSecond _ ih => exact ih ((Bool.and_eq_true _ _).mp opens).2
  | manyMore found _ ih =>
    obtain ⟨d, inside, one, _⟩ := Place.Takes.afterOne? found
    obtain ⟨more, other, _⟩ := ih opens
    exact ⟨[d] ++ more, one.trans other, test.sound _ opens d inside⟩
  | loopMore _ _ round_ih more_ih =>
    obtain ⟨taken, one, passes⟩ := round_ih opens
    obtain ⟨more, other, pass⟩ := more_ih opens
    exact ⟨taken ++ more, one.trans other, head?_all_append passes fun _ => pass⟩
  | group _ ih =>
    obtain ⟨taken, takes, passes⟩ := ih opens
    exact ⟨taken, takes.close .., passes⟩

end Plan

namespace Regex

variable {regex : Regex} {text taken rest : List Char} {found : Match}

/-- The pattern matches nothing of the text, or the empty text. -/
def PassesOver (regex : Regex) (text : List Char) : Prop :=
  ∀ found, regex.find? text = some found → found.length = 0

theorem passesOver_of_none (missing : regex.find? text = none) : regex.PassesOver text :=
  fun _ find?_found => nomatch missing.symm.trans find?_found

/-- An anchored pattern leads from the start of the text over what it matches. -/
theorem exists_takes_of_find? (anchored : regex.anchored = true)
    (find?_found : regex.find? text = some found) :
    ∃ taken ended, regex.plan.Leads (.start text) ended ∧ (Place.start text).Takes taken ended ∧
      found.length = Text.byteLength taken := by
  obtain ⟨start, ended, _, _, same, leads, rfl⟩ := Plan.leads_of_find? find?_found
  obtain rfl := same anchored
  obtain ⟨taken, takes⟩ := leads.takes
  refine ⟨taken, ended, leads, takes, ?_⟩
  show ended.offset - 0 = _
  rw [takes.offset]
  exact Nat.zero_add _

/-- A text that begins with another character than all matches is passed over. -/
theorem passesOver_of_opensWith {test : CharTest} (anchored : regex.anchored = true)
    (opens : regex.plan.opensWith test = true) (other : text.head?.any test.passes = false) :
    regex.PassesOver text := by
  intro found find?_found
  obtain ⟨taken, ended, leads, takes, length⟩ := exists_takes_of_find? anchored find?_found
  obtain ⟨again, along, passes⟩ := leads.opensWith opens
  obtain rfl := along.eq takes
  have whole : text = again ++ ended.rest := takes.rest
  rw [length]
  cases again with
  | nil => rfl
  | cons c more =>
    rw [whole] at other
    have fails : test.passes c = false := other
    exact absurd passes (ne_true_of_eq_false fails)

/-- Where a pattern that takes a character leads somewhere from the start of the text, it matches more than
nothing. -/
theorem exists_find?_of_leads {node : Node} {ended : Place} (anchored : node.startsWith .textStart = true)
    (takes : node.plan.consumes = true) (leads : node.Leads (.start text) ended) :
    ∃ found, (ofNode node).find? text = some found ∧ found.length ≠ 0 := by
  cases outcome : (ofNode node).find? text with
  | none =>
    have ahead (found : Match) (find?_found : (ofNode node).find? text = some found) :
        (Place.start text).offset < found.span.start := nomatch outcome.symm.trans find?_found
    exact absurd leads (Node.leads_none_of_find? Plan.within_start (fun _ => rfl) ahead _)
  | some found =>
    obtain ⟨taken, ended, leads, along, length⟩ := exists_takes_of_find? anchored outcome
    refine ⟨found, rfl, ?_⟩
    rw [length]
    exact Nat.ne_of_gt (Text.byteLength_pos (leads.ne_nil_of_consumes takes along))

end Regex

/-! ### Plain patterns at the start of the text -/

namespace Node

/-- The pattern, tried at the start of the text only. -/
def atStart (body : Node) : Node := .seq (.look .textStart) body

variable {body : Node} {text : List Char} {ended : Place}

theorem leads_atStart : (atStart body).Leads (.start text) ended ↔ body.Leads (.start text) ended := by
  constructor
  · rintro ⟨_, ⟨_, rfl⟩, leads⟩
    exact leads
  · exact fun leads => ⟨_, ⟨rfl, rfl⟩, leads⟩

/-- A plain pattern leads over the texts that it spells and that stand first. -/
theorem leads_atStart_iff (plain : body.plain = true) :
    (atStart body).Leads (.start text) ended ↔
      ∃ taken rest, body.Spells taken ∧ text = taken ++ rest ∧
        ended = (Place.start text).past taken rest :=
  leads_atStart.trans (leads_iff_past plain)

end Node

/-- The match of a first part of the text, without groups. -/
def Match.ofFirst (taken : List Char) : Match := ⟨⟨0, Text.byteLength taken⟩, []⟩

namespace Regex

variable {body : Node} {text taken rest : List Char} {found : Match}

/-- Behind a first part of the text lies the match of it. -/
theorem upTo_past (text taken rest : List Char) :
    (⟨⟨0, ((Place.start text).past taken rest).offset⟩, ((Place.start text).past taken rest).groups⟩ : Match) =
      .ofFirst taken := by
  simp [Place.past, Place.start, Match.ofFirst]

/-- What a plain pattern matches at the start of a text, if it spells one first part of it at most. -/
theorem find?_atStart_iff (plain : body.plain = true)
    (unique : ∀ taken rest other left, text = taken ++ rest → text = other ++ left →
      body.Spells taken → body.Spells other → taken = other) :
    (ofNode body.atStart).find? text = some found ↔
      ∃ taken rest, text = taken ++ rest ∧ body.Spells taken ∧ found = .ofFirst taken := by
  have one_place (one other : Place) (leads : body.atStart.Leads (.start text) one)
      (leads_too : body.atStart.Leads (.start text) other) : one = other := by
    obtain ⟨taken, rest, spells, split, rfl⟩ := (Node.leads_atStart_iff plain).mp leads
    obtain ⟨again, left, spells_too, same, rfl⟩ := (Node.leads_atStart_iff plain).mp leads_too
    obtain rfl := unique taken rest again left split same spells spells_too
    rw [List.append_cancel_left (split.symm.trans same)]
  rw [find?_ofNode_iff rfl one_place]
  constructor
  · rintro ⟨ended, leads, rfl⟩
    obtain ⟨taken, rest, spells, split, rfl⟩ := (Node.leads_atStart_iff plain).mp leads
    exact ⟨taken, rest, split, spells, upTo_past ..⟩
  · rintro ⟨taken, rest, split, spells, rfl⟩
    exact ⟨_, (Node.leads_atStart_iff plain).mpr ⟨taken, rest, spells, split, rfl⟩, (upTo_past ..).symm⟩

/-- A plain pattern that takes a character matches where a text that it spells stands first. -/
theorem exists_find?_of_spells (plain : body.plain = true) (takes : body.atStart.plan.consumes = true)
    (spells : body.Spells taken) (rest : List Char) :
    ∃ found, (ofNode body.atStart).find? (taken ++ rest) = some found ∧ found.length ≠ 0 :=
  exists_find?_of_leads rfl takes ((Node.leads_atStart_iff plain).mpr ⟨taken, rest, spells, rfl, rfl⟩)

/-- A plain pattern matches nothing where no text that it spells stands first. -/
theorem find?_atStart_of_none (plain : body.plain = true)
    (none_first : ∀ taken rest, text = taken ++ rest → ¬ body.Spells taken) :
    (ofNode body.atStart).find? text = none := by
  cases outcome : (ofNode body.atStart).find? text with
  | none => rfl
  | some found =>
    obtain ⟨_, ended, leads, _⟩ := exists_takes_of_find? rfl outcome
    obtain ⟨taken, rest, spells, split, _⟩ := (Node.leads_atStart_iff plain).mp (Node.leads_plan.mp leads)
    exact absurd spells (none_first taken rest split)

end Regex

end TableLexer.Pattern
