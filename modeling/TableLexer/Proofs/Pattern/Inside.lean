/-
**Groups lie inside their match.**

A search goes forward only, and looks neither back nor ahead for what its groups match. So the parts of a match
lie between its two ends, and take no more bytes than the match as a whole.

* `Plan.Leads.inside`: what is noted where a plan leads lies on the way there.
* `Regex.inside_of_find?`: the groups of a match lie inside it.
* `byteLength_slice_le_length`: a part of the text that a group matches has no more bytes than the match.
-/

import TableLexer.Proofs.Pattern.Leads

namespace TableLexer

/-- A slice takes no more bytes than lie between its two positions. -/
theorem Text.byteLength_slice_le (text : List Char) (start stop : Nat) :
    byteLength (slice text start stop) ≤ stop - start := by
  have taken (text : List Char) (count : Nat) : byteLength (takeBytes text count) ≤ count := by
    fun_induction takeBytes text count with
    | case1 => exact Nat.zero_le _
    | case2 c rest count fits ih =>
      rw [byteLength]
      omega
    | case3 => exact Nat.zero_le _
  exact taken _ _

namespace Pattern

/-- The span lies between the two positions. -/
def Span.Inside (first last : Nat) (span : Span) : Prop := first ≤ span.start ∧ span.stop ≤ last

namespace Plan

variable {plan : Plan} {place ended : Place}

theorem Leads.offset_le (leads : plan.Leads place ended) : place.offset ≤ ended.offset := by
  obtain ⟨taken, takes⟩ := leads.takes
  rw [takes.offset]
  exact Nat.le_add_right _ _

/-- What is noted where a plan leads lies between where it was before and where it leads. -/
theorem Leads.inside {first : Nat} (leads : plan.Leads place ended) (from_first : first ≤ place.offset)
    (inside : ∀ noted ∈ place.groups, noted.2.Inside first place.offset) :
    ∀ noted ∈ ended.groups, noted.2.Inside first ended.offset := by
  have further {place ended : Place} (longer : place.offset ≤ ended.offset)
      (same : ended.groups = place.groups)
      (inside : ∀ noted ∈ place.groups, noted.2.Inside first place.offset) :
      ∀ noted ∈ ended.groups, noted.2.Inside first ended.offset := fun noted member =>
    have here := inside noted (same ▸ member)
    ⟨here.1, Nat.le_trans here.2 longer⟩
  induction leads with
  | empty | gate | manyStop | loopStop | look => exact inside
  | literal found =>
    exact further (Leads.literal found).offset_le (Place.Takes.after? found).2 inside
  | one found =>
    obtain ⟨_, _, _, same⟩ := Place.Takes.afterOne? found
    exact further (Leads.one found).offset_le same inside
  | seq front _ front_ih back_ih =>
    exact back_ih (Nat.le_trans from_first front.offset_le) (front_ih from_first inside)
  | altFirst _ ih | altSecond _ ih => exact ih from_first inside
  | manyMore found _ ih =>
    obtain ⟨_, _, _, same⟩ := Place.Takes.afterOne? found
    have forward := (Leads.one found).offset_le
    exact ih (Nat.le_trans from_first forward) (further forward same inside)
  | loopMore round _ round_ih more_ih =>
    exact more_ih (Nat.le_trans from_first round.offset_le) (round_ih from_first inside)
  | group leads ih =>
    intro noted member
    rcases List.mem_cons.mp member with rfl | member
    · exact ⟨from_first, Nat.le_refl _⟩
    · exact ih from_first inside noted member

end Plan

variable {regex : Regex} {text : List Char} {found : Match}

/-- The groups of a match lie inside it. -/
theorem Regex.inside_of_find? (find?_found : regex.find? text = some found) {group : Nat} {span : Span}
    (participates : found.group? group = some span) : span.Inside found.span.start found.span.stop := by
  obtain ⟨start, ended, _, nothing_noted, _, leads, rfl⟩ := Plan.leads_of_find? find?_found
  unfold Match.group? at participates
  split at participates
  · cases participates
    exact ⟨Nat.le_refl _, Nat.le_refl _⟩
  · obtain ⟨later, earlier, split, _⟩ := List.lookup_eq_some_iff.mp participates
    have noted : (group, span) ∈ ended.groups := by
      show (group, span) ∈ (Match.upTo start.offset ended).groups
      rw [split]
      exact List.mem_append_right later List.mem_cons_self
    refine leads.inside (Nat.le_refl _) (fun noted member => ?_) _ noted
    rw [nothing_noted] at member
    cases member

/-- A part of the text that a group matches has no more bytes than the match. -/
theorem Regex.byteLength_slice_le_length (find?_found : regex.find? text = some found) {group : Nat}
    {span : Span} (participates : found.group? group = some span) :
    Text.byteLength (Text.slice text span.start span.stop) ≤ found.length := by
  obtain ⟨starts, stops⟩ := inside_of_find? find?_found participates
  have taken := Text.byteLength_slice_le text span.start span.stop
  unfold Match.length
  omega

end Pattern

end TableLexer
