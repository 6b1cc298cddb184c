/-
**Patterns that are rows of groups.**

A pattern such as `(\.)([a-z]+)` is a row of groups: apart from conditions, everything that it takes lies in
one of its groups. This can be read off the plan, and the groups of every match then cover the match.

* `Leads.row`: where a row leads, its groups are noted side by side.
* `Regex.tile_of_find?`: the groups of a match of a row lie side by side and cover the match.
* `Regex.exists_group_of_row`: every group of a row takes part in a match.
-/

import Mathlib.Data.List.Basic
import TableLexer.Proofs.Pattern.Leads

namespace TableLexer.Pattern

/-! ### Spans side by side -/

/-- The spans lie side by side and reach from one position to the other. -/
def Tile : Nat → List Span → Nat → Prop
  | start, [], stop => start = stop
  | start, span :: rest, stop => span.start = start ∧ Tile span.stop rest stop

theorem Tile.append {start middle stop : Nat} {first second : List Span}
    (front : Tile start first middle) (back : Tile middle second stop) :
    Tile start (first ++ second) stop := by
  induction first generalizing start with
  | nil =>
    have same : start = middle := front
    rw [same]
    exact back
  | cons span rest ih => exact ⟨front.1, ih front.2⟩

/-- A key that occurs once is looked up where it occurs. -/
theorem lookup_of_mem {notes : List (Nat × Span)} (distinct : (notes.map Prod.fst).Nodup) {index : Nat}
    {span : Span} (member : (index, span) ∈ notes) : notes.lookup index = some span := by
  obtain ⟨before, behind, split⟩ := List.append_of_mem member
  refine List.lookup_eq_some_iff.mpr ⟨before, behind, split, fun other earlier => ?_⟩
  rw [split, List.map_append, List.nodup_append] at distinct
  have apart := distinct.2.2 other.1 (List.mem_map_of_mem earlier) index (by simp)
  simpa using apart.symm

namespace Plan

/-! ### Rows -/

/-- The plan notes no group. -/
def notesNothing : Plan → Bool
  | group _ _ => false
  | seq first second | alt _ first second => first.notesNothing && second.notesNothing
  | loop _ _ body => body.notesNothing
  | _ => true

/-- The groups of a plan in which everything but conditions lies in a group, in order. -/
def row? : Plan → Option (List Nat)
  | empty | look _ | gate _ => some []
  | group index body => if body.notesNothing then some [index] else none
  | seq first second =>
    match first.row?, second.row? with
    | some front, some back => some (front ++ back)
    | _, _ => none
  | _ => none

theorem Leads.groups_of_notesNothing {plan : Plan} {place ended : Place}
    (nothing : plan.notesNothing = true) (leads : plan.Leads place ended) :
    ended.groups = place.groups := by
  induction leads with
  | empty | gate | manyStop | loopStop | look => rfl
  | literal found => exact (Place.Takes.after? found).2
  | one found =>
    obtain ⟨_, _, _, same⟩ := Place.Takes.afterOne? found
    exact same
  | seq _ _ front_ih back_ih =>
    rw [notesNothing, Bool.and_eq_true] at nothing
    rw [back_ih nothing.2, front_ih nothing.1]
  | altFirst _ ih =>
    rw [notesNothing, Bool.and_eq_true] at nothing
    exact ih nothing.1
  | altSecond _ ih =>
    rw [notesNothing, Bool.and_eq_true] at nothing
    exact ih nothing.2
  | manyMore found _ ih =>
    obtain ⟨_, _, _, same⟩ := Place.Takes.afterOne? found
    rw [ih rfl, same]
  | loopMore _ _ round_ih more_ih => rw [more_ih nothing, round_ih nothing]
  | group => simp [notesNothing] at nothing

/-- Where a row leads, its groups are noted side by side. -/
theorem Leads.row {plan : Plan} {row : List Nat} {place ended : Place} (known : plan.row? = some row)
    (leads : plan.Leads place ended) :
    ∃ notes : List (Nat × Span), notes.map Prod.fst = row ∧
      ended.groups = notes.reverse ++ place.groups ∧
      Tile place.offset (notes.map Prod.snd) ended.offset := by
  induction leads generalizing row with
  | empty | gate | look =>
    cases known
    exact ⟨[], rfl, rfl, rfl⟩
  | seq _ _ front_ih back_ih =>
    rw [row?] at known
    split at known
    · rename_i front back front_row back_row
      cases known
      obtain ⟨one, one_row, one_groups, one_tile⟩ := front_ih front_row
      obtain ⟨other, other_row, other_groups, other_tile⟩ := back_ih back_row
      refine ⟨one ++ other, ?_, ?_, ?_⟩
      · rw [List.map_append, one_row, other_row]
      · rw [other_groups, one_groups, List.reverse_append, List.append_assoc]
      · rw [List.map_append]
        exact one_tile.append other_tile
    · cases known
  | @group index body place ended leads ih =>
    rw [row?] at known
    split at known
    · rename_i nothing
      cases known
      have same := leads.groups_of_notesNothing nothing
      refine ⟨[(index, ⟨place.offset, ended.offset⟩)], rfl, ?_, rfl, rfl⟩
      show (index, _) :: ended.groups = _
      rw [same]
      rfl
    · cases known
  | _ => cases known

end Plan

namespace Regex

variable {regex : Regex} {row : List Nat} {text : List Char} {found : Match}

/-- A match of a row has its groups as they were noted side by side. -/
theorem notes_of_row (known : regex.plan.row? = some row) (distinct : row.Nodup) (proper : 0 ∉ row)
    (find?_found : regex.find? text = some found) :
    ∃ notes : List (Nat × Span), notes.map Prod.fst = row ∧
      Tile found.span.start (notes.map Prod.snd) found.span.stop ∧
      ∀ note ∈ notes, found.group? note.1 = some note.2 := by
  obtain ⟨start, ended, _, none_noted, _, leads, rfl⟩ := Plan.leads_of_find? find?_found
  obtain ⟨notes, keys, groups, tile⟩ := leads.row known
  rw [none_noted, List.append_nil] at groups
  refine ⟨notes, keys, tile, fun note member => ?_⟩
  have participates : note.1 ∈ row := keys ▸ List.mem_map_of_mem member
  have reversed : (notes.reverse.map Prod.fst).Nodup := by
    rw [List.map_reverse, keys]
    exact (List.reverse_perm row).nodup_iff.mpr distinct
  unfold Match.group?
  rw [if_neg fun zero : note.1 = 0 => proper (zero ▸ participates)]
  show ended.groups.lookup note.1 = some note.2
  rw [groups]
  exact lookup_of_mem reversed (List.mem_reverse.mpr member)

/-- The groups of a match of a row lie side by side and cover the match. -/
theorem tile_of_find? (known : regex.plan.row? = some row) (distinct : row.Nodup) (proper : 0 ∉ row)
    (find?_found : regex.find? text = some found) :
    Tile found.span.start (row.filterMap found.group?) found.span.stop := by
  obtain ⟨notes, keys, tile, looked_up⟩ := notes_of_row known distinct proper find?_found
  have each : ∀ note ∈ notes, (found.group? ∘ Prod.fst) note = some note.2 := looked_up
  rw [← keys, List.filterMap_map, List.filterMap_eq_map_iff_forall_eq_some.mpr each]
  exact tile

/-- Every group of a row takes part in a match. -/
theorem exists_group_of_row (known : regex.plan.row? = some row) (distinct : row.Nodup) (proper : 0 ∉ row)
    (find?_found : regex.find? text = some found) {index : Nat} (member : index ∈ row) :
    ∃ span, found.group? index = some span := by
  obtain ⟨notes, rfl, _, looked_up⟩ := notes_of_row known distinct proper find?_found
  obtain ⟨note, noted, rfl⟩ := List.mem_map.mp member
  exact ⟨note.2, looked_up note noted⟩

end Regex

end TableLexer.Pattern
