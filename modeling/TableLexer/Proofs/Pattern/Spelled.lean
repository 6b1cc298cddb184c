/-
**The texts that a pattern spells.**

A pattern without conditions and groups takes the same texts wherever they stand. `Node.Spells` says which,
without a place, an order of preference or a search.

* `Place.after?_eq_some_iff`: the place behind a text.
* `Node.leads_iff_of_plain`, `Node.leads_iff_past`: a plain pattern leads over the texts that it spells, and
  nowhere else.
* `spells_repeated_one`, `spells_run`: a set that is repeated spells the texts of its characters.
* `spells_optional`: a pattern that is taken once at most.
-/

import Mathlib.Data.List.Basic
import TableLexer.Proofs.Pattern.Meaning

namespace TableLexer.Pattern

/-! ### Behind a text -/

namespace Place

variable {place ended : Place} {taken rest : List Char}

/-- The place behind a text, where the rest follows. -/
def past (place : Place) (taken rest : List Char) : Place :=
  { place with
    offset := place.offset + Text.byteLength taken
    before := taken.getLast?.or place.before
    rest }

/-- Behind nothing lies the place itself. -/
theorem past_nil (place : Place) : place.past [] place.rest = place := rfl

/-- Behind a text lies what is behind its first character and the others. -/
theorem past_advance (place : Place) (c : Char) (more rest : List Char) :
    (place.advance c (more ++ rest)).past more rest = place.past (c :: more) rest := by
  simp only [past, advance, mk.injEq, and_true]
  exact ⟨Nat.add_assoc .., by cases more <;> simp [List.getLast?_cons]⟩

/-- Behind two texts lies what is behind the second, from behind the first on. -/
theorem past_past (place : Place) (first second rest : List Char) :
    (place.past first (second ++ rest)).past second rest = place.past (first ++ second) rest := by
  simp [past, Text.byteLength_append, Nat.add_assoc, Option.or_assoc, List.getLast?_append]

/-- A place lies behind a text if the text was ahead. -/
theorem after?_eq_some_iff :
    place.after? taken = some ended ↔
      ∃ rest, place.rest = taken ++ rest ∧ ended = place.past taken rest := by
  constructor
  · intro found
    obtain ⟨takes, groups⟩ := Takes.after? found
    refine ⟨ended.rest, takes.rest, ?_⟩
    obtain ⟨offset, before, rest, noted⟩ := ended
    simp only [past, mk.injEq]
    exact ⟨takes.offset, takes.before, trivial, groups⟩
  · rintro ⟨rest, ahead, rfl⟩
    induction taken generalizing place with
    | nil =>
      have ahead : place.rest = rest := ahead
      simp [after?, past, ← ahead, Text.byteLength]
    | cons c more further =>
      have next : place.rest = c :: (more ++ rest) := ahead
      have ahead_then : (place.advance c (more ++ rest)).rest = more ++ rest := rfl
      simp only [after?, next, if_true, further ahead_then, past_advance]

theorem after?_append (first second : List Char) :
    place.after? (first ++ second) = (place.after? first).bind (·.after? second) := by
  induction first generalizing place with
  | nil => rfl
  | cons c rest further =>
    rw [List.cons_append, after?, after?]
    split
    · rfl
    · split
      · exact further
      · rfl

end Place

/-! ### Texts -/

namespace Node

/-- The pattern takes the text, whatever stands around it. -/
def Spells : Node → List Char → Prop
  | empty, taken => taken = []
  | literal text, taken => taken = text
  | one set, taken => ∃ c, set.contains c = true ∧ taken = [c]
  | look _, _ => False
  | seq first second, taken =>
    ∃ front back, taken = front ++ back ∧ first.Spells front ∧ second.Spells back
  | alt first second, taken => first.Spells taken ∨ second.Spells taken
  | repeated least most _ body, taken =>
    ∃ pieces : List (List Char), taken = pieces.flatten ∧
      (∃ more, (∀ bound ∈ most, more ≤ bound - least) ∧ pieces.length = least + more) ∧
      ∀ piece ∈ pieces, body.Spells piece
  | group _ body, taken => body.Spells taken

/-- The pattern has neither conditions nor groups. -/
def plain : Node → Bool
  | look _ | group _ _ => false
  | seq first second | alt first second => first.plain && second.plain
  | repeated _ _ _ body => body.plain
  | empty | literal _ | one _ => true

variable {node body : Node} {place ended : Place} {taken : List Char}

/-- Rounds over texts lead over all of them, one after another. -/
theorem rounds_iff (round : ∀ place ended, body.Leads place ended ↔
      ∃ taken, body.Spells taken ∧ place.after? taken = some ended) {count : Nat} :
    Rounds body.Leads count place ended ↔
      ∃ pieces : List (List Char), pieces.length = count ∧ (∀ piece ∈ pieces, body.Spells piece) ∧
        place.after? pieces.flatten = some ended := by
  induction count generalizing place with
  | zero =>
    constructor
    · intro same
      exact ⟨[], by simp, by simp, congrArg some same.symm⟩
    · rintro ⟨pieces, none_left, _, found⟩
      rw [List.length_eq_zero_iff.mp none_left] at found
      exact (Option.some.inj found).symm
  | succ count further =>
    constructor
    · rintro ⟨middle, one, others⟩
      obtain ⟨piece, spells, along⟩ := (round _ _).mp one
      obtain ⟨pieces, as_many, each, found⟩ := further.mp others
      refine ⟨piece :: pieces, by simp [as_many], by simpa using ⟨spells, each⟩, ?_⟩
      rw [List.flatten_cons, Place.after?_append, along, Option.bind_some, found]
    · rintro ⟨pieces, as_many, each, found⟩
      obtain ⟨piece, others, rfl⟩ := List.exists_cons_of_length_eq_add_one as_many
      rw [List.flatten_cons, Place.after?_append] at found
      obtain ⟨middle, along, found⟩ := Option.bind_eq_some_iff.mp found
      rw [List.forall_mem_cons] at each
      exact ⟨middle, (round _ _).mpr ⟨piece, each.1, along⟩,
        further.mpr ⟨others, by simpa using as_many, each.2, found⟩⟩

/-- **A plain pattern leads over the texts that it spells**, and nowhere else. -/
theorem leads_iff_of_plain (plain : node.plain = true) :
    node.Leads place ended ↔ ∃ taken, node.Spells taken ∧ place.after? taken = some ended := by
  induction node generalizing place ended with
  | empty =>
    simp only [Leads, Spells, exists_eq_left, Place.after?, Option.some.injEq]
    exact eq_comm
  | literal text => simp [Leads, Spells]
  | one set =>
    rw [Leads, Place.afterOne?]
    cases ahead : place.rest with
    | nil => simp [Spells, Place.after?, ahead]
    | cons d rest => by_cases member : set.contains d <;> simp [Spells, Place.after?, ahead, member]
  | look | group => cases plain
  | seq first second first_ih second_ih =>
    obtain ⟨front_plain, back_plain⟩ := (Bool.and_eq_true _ _).mp plain
    simp only [Leads, first_ih front_plain, second_ih back_plain]
    constructor
    · rintro ⟨middle, ⟨front, spells, along⟩, back, spells_too, found⟩
      refine ⟨front ++ back, ⟨front, back, rfl, spells, spells_too⟩, ?_⟩
      rw [Place.after?_append, along, Option.bind_some, found]
    · rintro ⟨_, ⟨front, back, rfl, spells, spells_too⟩, found⟩
      rw [Place.after?_append] at found
      obtain ⟨middle, along, found⟩ := Option.bind_eq_some_iff.mp found
      exact ⟨middle, ⟨front, spells, along⟩, back, spells_too, found⟩
  | alt first second first_ih second_ih =>
    obtain ⟨one_plain, other_plain⟩ := (Bool.and_eq_true _ _).mp plain
    simp only [Leads, Spells, first_ih one_plain, second_ih other_plain, or_and_right, exists_or]
  | repeated least most greedy body ih =>
    simp only [Leads, rounds_iff fun _ _ => ih plain]
    constructor
    · rintro ⟨more, few, pieces, as_many, each, found⟩
      exact ⟨_, ⟨pieces, rfl, ⟨more, few, as_many⟩, each⟩, found⟩
    · rintro ⟨_, ⟨pieces, rfl, ⟨more, few, as_many⟩, each⟩, found⟩
      exact ⟨more, few, pieces, as_many, each, found⟩

/-- So it leads to the places behind them. -/
theorem leads_iff_past (plain : node.plain = true) :
    node.Leads place ended ↔
      ∃ taken rest, node.Spells taken ∧ place.rest = taken ++ rest ∧ ended = place.past taken rest := by
  simp only [leads_iff_of_plain plain, Place.after?_eq_some_iff, exists_and_left]

/-! ### Sets that are repeated -/

/-- A set that is repeated spells the texts of its characters that are of such a length. -/
theorem spells_repeated_one {set : CharSet} {least : Nat} {most : Option Nat} {greedy : Bool} :
    (repeated least most greedy (one set)).Spells taken ↔
      (∃ more, (∀ bound ∈ most, more ≤ bound - least) ∧ taken.length = least + more) ∧
        ∀ c ∈ taken, set.contains c = true := by
  constructor
  · rintro ⟨pieces, rfl, ⟨more, few, as_many⟩, each⟩
    have singles : ∀ piece ∈ pieces, piece.length = 1 ∧ ∀ c ∈ piece, set.contains c = true := by
      intro piece among
      obtain ⟨c, inside, rfl⟩ := each piece among
      exact ⟨rfl, by simpa using inside⟩
    have lengths : pieces.flatten.length = pieces.length := by
      rw [List.length_flatten, List.map_congr_left fun piece among => (singles piece among).1]
      simp
    refine ⟨⟨more, few, lengths.trans as_many⟩, fun c among => ?_⟩
    obtain ⟨piece, member, inside⟩ := List.mem_flatten.mp among
    exact (singles piece member).2 c inside
  · rintro ⟨⟨more, few, as_many⟩, inside⟩
    refine ⟨taken.map fun c => [c], ?_, ⟨more, few, by rwa [List.length_map]⟩, ?_⟩
    · rw [← List.flatMap_def, List.flatMap_singleton']
    · intro piece among
      obtain ⟨c, member, rfl⟩ := List.mem_map.mp among
      exact ⟨c, inside c member, rfl⟩

/-- A set that is repeated without a bound spells the texts of its characters that are long enough. -/
theorem spells_run {set : CharSet} {least : Nat} {greedy : Bool} :
    (repeated least none greedy (one set)).Spells taken ↔
      least ≤ taken.length ∧ ∀ c ∈ taken, set.contains c = true := by
  rw [spells_repeated_one]
  refine and_congr_left' ⟨?_, fun long => ⟨taken.length - least, by simp, by omega⟩⟩
  rintro ⟨more, _, as_many⟩
  omega

/-- What is taken once at most is nothing or one text of it. -/
theorem spells_optional {greedy : Bool} :
    (repeated 0 (some 1) greedy body).Spells taken ↔ taken = [] ∨ body.Spells taken := by
  constructor
  · rintro ⟨pieces, rfl, ⟨more, few, as_many⟩, each⟩
    have once : more ≤ 1 := few 1 rfl
    rcases Nat.le_one_iff_eq_zero_or_eq_one.mp once with rfl | rfl
    · rw [List.length_eq_zero_iff.mp as_many]
      exact .inl rfl
    · obtain ⟨piece, rfl⟩ := List.length_eq_one_iff.mp as_many
      rw [List.flatten_singleton]
      exact .inr (each piece List.mem_cons_self)
  · rintro (rfl | spells)
    · exact ⟨[], rfl, ⟨0, fun _ _ => Nat.zero_le _, rfl⟩, List.forall_mem_nil _⟩
    · refine ⟨[taken], (List.flatten_singleton).symm, ⟨1, ?_, rfl⟩, List.forall_mem_singleton.mpr spells⟩
      rintro bound ⟨⟩
      exact Nat.le_refl 1

end Node

end TableLexer.Pattern
