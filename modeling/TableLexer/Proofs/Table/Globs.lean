/-
**What a glob matches.**

A glob fits a name that can be cut into pieces, one for each character of the glob: any piece for `*`, one
character for `?`, and the character itself for every other.

The walk through a glob and a name goes back to the last star only. Nothing is lost by that: the
characters between two stars take as many characters of the name, so whatever an earlier star could make room
for, the last one can make room for as well (`fits_behind`).

* `Glob.Fits`: the glob fits the name.
* `Glob.keeps_turn`: a turn neither gains nor loses a way to fit.
* `Glob.exists_walkOn`: the walk ends with the answer whether the glob fits.
* `filename_matches_exactly`: a file is matched by the globs that fit the last part of its path.
-/

import Mathlib.Data.List.Forall2
import TableLexer.Table.Descriptor

namespace TableLexer

namespace Glob

/-! ### Globs that fit -/

/-- The character of a glob stands for the piece of a name. -/
def StandsFor (g : Char) (piece : List Char) : Prop :=
  if g = '*' then True else if g = '?' then ∃ c, piece = [c] else piece = [g]

/-- The name is made of pieces for which the characters of the glob stand, one after the other. -/
def Fits (glob name : List Char) : Prop :=
  ∃ pieces, List.Forall₂ StandsFor glob pieces ∧ name = pieces.flatten

section Fits

variable {g c : Char} {glob name : List Char}

theorem fits_nil : Fits [] name ↔ name = [] := by
  constructor
  · rintro ⟨_, ⟨⟩, same⟩
    simpa using same
  · rintro rfl
    exact ⟨[], .nil, rfl⟩

theorem fits_cons :
    Fits (g :: glob) name ↔ ∃ piece rest, StandsFor g piece ∧ Fits glob rest ∧ name = piece ++ rest := by
  constructor
  · rintro ⟨_, ⟨⟩, same⟩
    rename_i piece pieces stands each
    exact ⟨piece, pieces.flatten, stands, ⟨pieces, each, rfl⟩, by simpa using same⟩
  · rintro ⟨piece, _, stands, ⟨pieces, each, rfl⟩, rfl⟩
    exact ⟨piece :: pieces, .cons stands each, by simp⟩

theorem fits_star : Fits ('*' :: glob) name ↔ ∃ front rest, Fits glob rest ∧ name = front ++ rest := by
  simp [fits_cons, StandsFor]

/-- What follows a star fits the rest of a name, or a later rest. -/
theorem fits_star_drop {start : Nat} (inside : start ≤ name.length) :
    Fits ('*' :: glob) (name.drop start) ↔
      ∃ place, start ≤ place ∧ place ≤ name.length ∧ Fits glob (name.drop place) := by
  rw [fits_star]
  constructor
  · rintro ⟨front, rest, fits, split⟩
    have lengths := congrArg List.length split
    rw [List.length_drop, List.length_append] at lengths
    refine ⟨start + front.length, by omega, by omega, ?_⟩
    rw [← List.drop_drop, split, List.drop_left]
    exact fits
  · rintro ⟨place, later, _, fits⟩
    refine ⟨(name.drop start).take (place - start), _, fits, ?_⟩
    rw [← Nat.add_sub_cancel' later, ← List.drop_drop, Nat.add_sub_cancel_left, List.take_append_drop]

/-- A character that is no star takes one character. -/
theorem fits_one (plain : g ≠ '*') :
    Fits (g :: glob) name ↔ ∃ c rest, (g = '?' ∨ g = c) ∧ Fits glob rest ∧ name = c :: rest := by
  have stands (piece : List Char) : StandsFor g piece ↔ ∃ c, (g = '?' ∨ g = c) ∧ piece = [c] := by
    unfold StandsFor
    rw [if_neg plain]
    split <;> simp_all
  rw [fits_cons]
  constructor
  · rintro ⟨piece, rest, held, fits, rfl⟩
    obtain ⟨c, same, rfl⟩ := (stands piece).mp held
    exact ⟨c, rest, same, fits, rfl⟩
  · rintro ⟨c, rest, same, fits, rfl⟩
    exact ⟨[c], rest, (stands [c]).mpr ⟨c, same, rfl⟩, fits, rfl⟩

/-- Only stars fit the empty name. -/
theorem fits_empty : Fits glob [] ↔ ∀ g ∈ glob, g = '*' := by
  induction glob with
  | nil => simp [fits_nil]
  | cons g glob ih =>
    rw [List.forall_mem_cons, ← ih]
    by_cases star : g = '*'
    · subst star
      simp [fits_star]
    · simp [fits_one star, star]

/-- Characters that are no stars take as many characters. -/
theorem exists_of_fits_append {middle : List Char} (starless : '*' ∉ middle)
    (fits : Fits (middle ++ glob) name) :
    ∃ front rest, front.length = middle.length ∧ Fits glob rest ∧ name = front ++ rest := by
  induction middle generalizing name with
  | nil => exact ⟨[], name, rfl, fits, rfl⟩
  | cons g middle ih =>
    rw [List.mem_cons, not_or] at starless
    obtain ⟨plain, starless⟩ := starless
    obtain ⟨c, others, _, others_fit, rfl⟩ := (fits_one (Ne.symm plain)).mp fits
    obtain ⟨front, rest, length, rest_fits, rfl⟩ := ih starless others_fit
    exact ⟨c :: front, rest, congrArg (· + 1) length, rest_fits, rfl⟩

end Fits

/-! ### What a walk leaves to be tried -/

/-- The walk has not left the glob or the name, and since its last star it has passed as many characters of
the glob, none of them a star, as of the name. -/
structure Walk.Sound (glob name : List Char) (walk : Walk) : Prop where
  glob_le : walk.glob ≤ glob.length
  name_le : walk.name ≤ name.length
  since : ∀ last ∈ walk.star, last.glob < walk.glob ∧
    ∃ middle, glob.drop (last.glob + 1) = middle ++ glob.drop walk.glob ∧ '*' ∉ middle ∧
      walk.name = last.name + middle.length

/-- The glob still may fit: its rest fits the rest of the name, or what follows the last star fits a later
rest. -/
def Walk.Hopeful (glob name : List Char) (walk : Walk) : Prop :=
  Fits (glob.drop walk.glob) (name.drop walk.name) ∨
    ∃ last ∈ walk.star, ∃ place, last.name < place ∧ place ≤ name.length ∧
      Fits (glob.drop (last.glob + 1)) (name.drop place)

/-- The turn leaves the walk as hopeful as it was, and an answer tells whether it was. -/
def Turn.Keeps (glob name : List Char) (walk : Walk) : Turn → Prop
  | goOn next => next.Sound glob name ∧ (next.Hopeful glob name ↔ walk.Hopeful glob name)
  | answer fits => fits = true ↔ walk.Hopeful glob name
  | outside => False

section Walk

variable {glob name : List Char} {walk : Walk}

/-- What follows the last star fits a later rest only if what is left of it fits a rest behind the walk: the
characters between take as many as the walk has passed. -/
theorem Walk.Sound.fits_behind (sound : walk.Sound glob name) {last : Star} (star : last ∈ walk.star)
    {place : Nat} (later : last.name < place) (inside : place ≤ name.length)
    (fits : Fits (glob.drop (last.glob + 1)) (name.drop place)) :
    ∃ behind, walk.name < behind ∧ behind ≤ name.length ∧
      Fits (glob.drop walk.glob) (name.drop behind) := by
  obtain ⟨_, middle, split, starless, passed⟩ := sound.since last star
  rw [split] at fits
  obtain ⟨front, rest, length, fits, same⟩ := exists_of_fits_append starless fits
  have lengths := congrArg List.length same
  simp only [List.length_drop, List.length_append] at lengths
  refine ⟨place + middle.length, by omega, by omega, ?_⟩
  rw [← List.drop_drop, same, ← length, List.drop_left]
  exact fits

theorem Walk.Sound.start : Walk.start.Sound glob name :=
  ⟨Nat.zero_le _, Nat.zero_le _, nofun⟩

theorem Walk.hopeful_start : Walk.start.Hopeful glob name ↔ Fits glob name := by
  simp [Hopeful, Walk.start]

/-- A walk that is stuck goes back to the last star. -/
theorem Walk.Sound.keeps_retry (sound : walk.Sound glob name) (ahead : walk.name < name.length)
    (stuck : ¬ Fits (glob.drop walk.glob) (name.drop walk.name)) : walk.retry.Keeps glob name walk := by
  unfold retry
  cases star : walk.star with
  | none => simp [Turn.Keeps, Hopeful, stuck, star]
  | some last =>
    obtain ⟨before, _⟩ := sound.since last star
    have tried := walk.tried last star
    have glob_le := sound.glob_le
    refine ⟨⟨?_, ?_, ?_⟩, ?_⟩
    · show last.glob + 1 ≤ glob.length
      omega
    · show last.name + 1 ≤ name.length
      omega
    · rintro _ ⟨⟩
      exact ⟨Nat.lt_succ_self _, [], rfl, List.not_mem_nil, rfl⟩
    · simp only [Hopeful, star, stuck, Walk.behind, Option.mem_some_iff, exists_eq_left', false_or]
      constructor
      · rintro (fits | ⟨place, later, inside, fits⟩)
        · exact ⟨last.name + 1, by omega, by omega, fits⟩
        · exact ⟨place, by omega, inside, fits⟩
      · rintro ⟨place, later, inside, fits⟩
        rcases Nat.eq_or_lt_of_le later with rfl | later
        · exact .inl fits
        · exact .inr ⟨place, later, inside, fits⟩

/-- A walk that passes a star needs no earlier star any more. -/
theorem Walk.Sound.keeps_passStar (sound : walk.Sound glob name) {rest : List Char}
    (here : glob.drop walk.glob = '*' :: rest) :
    (Turn.goOn walk.passStar).Keeps glob name walk := by
  have next : glob.drop (walk.glob + 1) = rest := by rw [← List.drop_drop, here]; rfl
  have lengths := congrArg List.length here
  rw [List.length_drop, List.length_cons] at lengths
  refine ⟨⟨?_, sound.name_le, ?_⟩, ?_⟩
  · show walk.glob + 1 ≤ glob.length
    omega
  · rintro _ ⟨⟩
    exact ⟨Nat.lt_succ_self _, [], rfl, List.not_mem_nil, rfl⟩
  · have star : Fits ('*' :: rest) (name.drop walk.name) ↔ _ := fits_star_drop sound.name_le
    simp only [Hopeful, Walk.passStar, Option.mem_some_iff, exists_eq_left', next, here, star]
    constructor
    · rintro (fits | ⟨place, later, inside, fits⟩)
      · exact .inl ⟨walk.name, Nat.le_refl _, sound.name_le, fits⟩
      · exact .inl ⟨place, Nat.le_of_lt later, inside, fits⟩
    · rintro (⟨place, later, inside, fits⟩ | ⟨last, earlier, place, later, inside, fits⟩)
      · rcases Nat.eq_or_lt_of_le later with rfl | later
        · exact .inl fits
        · exact .inr ⟨place, later, inside, fits⟩
      · obtain ⟨behind, passed, within, fits⟩ := sound.fits_behind earlier later inside fits
        rw [here, fits_star_drop within] at fits
        obtain ⟨place, later, inside, fits⟩ := fits
        exact .inr ⟨place, by omega, inside, fits⟩

/-- A walk that passes a character on both sides leaves the same to be tried. -/
theorem Walk.Sound.keeps_passBoth (sound : walk.Sound glob name) {g c : Char} {rest others : List Char}
    (here : glob.drop walk.glob = g :: rest) (there : name.drop walk.name = c :: others)
    (plain : g ≠ '*') (same : g = '?' ∨ g = c) : (Turn.goOn walk.passBoth).Keeps glob name walk := by
  have next : glob.drop (walk.glob + 1) = rest := by rw [← List.drop_drop, here]; rfl
  have behind : name.drop (walk.name + 1) = others := by rw [← List.drop_drop, there]; rfl
  have lengths := congrArg List.length here
  have name_lengths := congrArg List.length there
  rw [List.length_drop, List.length_cons] at lengths name_lengths
  refine ⟨⟨?_, ?_, ?_⟩, ?_⟩
  · show walk.glob + 1 ≤ glob.length
    omega
  · show walk.name + 1 ≤ name.length
    omega
  · intro last star
    obtain ⟨before, middle, split, starless, passed⟩ := sound.since last star
    refine ⟨Nat.lt_succ_of_lt before, middle ++ [g], ?_, ?_, ?_⟩
    · simp [split, here, Walk.passBoth, next]
    · simp [starless, Ne.symm plain]
    · simp [Walk.passBoth, passed, Nat.add_assoc]
  · have fits : Fits (g :: rest) (c :: others) ↔ Fits rest others := by
      rw [fits_one plain]
      constructor
      · rintro ⟨_, _, _, fits, ⟨⟩⟩
        exact fits
      · exact fun fits => ⟨c, others, same, fits, rfl⟩
    simp only [Hopeful, Walk.passBoth, next, behind, here, there, fits]

/-- Behind the end of the name, what is left of the glob fits if it has stars only. -/
theorem Walk.Sound.keeps_answer (sound : walk.Sound glob name) (ended : name.length ≤ walk.name) :
    (Turn.answer ((glob.drop walk.glob).all (· == '*'))).Keeps glob name walk := by
  have nothing : name.drop walk.name = [] := List.drop_eq_nil_of_le ended
  have no_later : ¬ ∃ last ∈ walk.star, ∃ place, last.name < place ∧ place ≤ name.length ∧
      Fits (glob.drop (last.glob + 1)) (name.drop place) := by
    rintro ⟨last, star, place, later, inside, fits⟩
    obtain ⟨behind, passed, within, _⟩ := sound.fits_behind star later inside fits
    omega
  simp only [Turn.Keeps, Hopeful, nothing, fits_empty, no_later, or_false]
  simp

end Walk

/-! ### The walk -/

section Run

variable {glob name : Array Char} {walk : Walk}

/-- A turn neither gains nor loses a way to fit, and never leaves the glob behind. -/
theorem keeps_turn (sound : walk.Sound glob.toList name.toList) :
    (turn glob name walk).Keeps glob.toList name.toList walk := by
  unfold turn
  split
  · rename_i ahead
    have there : name.toList.drop walk.name = name[walk.name] :: name.toList.drop (walk.name + 1) :=
      List.drop_eq_getElem_cons _
    split
    · rename_i g at_glob
      obtain ⟨inside, rfl⟩ := Array.getElem?_eq_some_iff.mp at_glob
      have here : glob.toList.drop walk.glob = glob[walk.glob] :: glob.toList.drop (walk.glob + 1) :=
        List.drop_eq_getElem_cons _
      by_cases star : glob[walk.glob] = '*'
      · rw [if_pos star]
        exact sound.keeps_passStar (star ▸ here)
      · rw [if_neg star]
        by_cases same : glob[walk.glob] = '?' ∨ glob[walk.glob] = name[walk.name]
        · rw [if_pos same]
          exact sound.keeps_passBoth here there star same
        · rw [if_neg same]
          refine sound.keeps_retry ahead fun fits => same ?_
          rw [here, there, fits_one star] at fits
          obtain ⟨_, _, same, _, equal⟩ := fits
          rwa [(List.cons.inj equal).1]
    · rename_i ended
      refine sound.keeps_retry ahead fun fits => ?_
      rw [there, List.drop_eq_nil_of_le (Array.getElem?_eq_none_iff.mp ended), fits_nil] at fits
      cases fits
  · rename_i ended
    have glob_le : walk.glob ≤ glob.size := sound.glob_le
    rw [if_pos glob_le]
    exact sound.keeps_answer (Nat.le_of_not_lt ended)

/-- What the walk comes to in so many turns and one more. -/
def after (glob name : Array Char) : Nat → Walk → Turn
  | 0, walk => turn glob name walk
  | turns + 1, walk =>
    match turn glob name walk with
    | .goOn next => after glob name turns next
    | ended => ended

/-- The walk ends, as soon as no turns are left at the latest, with the answer whether there was a way to
fit. -/
theorem exists_answer (sound : walk.Sound glob.toList name.toList) :
    ∃ turns ≤ turnsLeft glob name walk, ∃ fits, after glob name turns walk = .answer fits ∧
      walkOn glob name walk = some fits ∧ (fits = true ↔ walk.Hopeful glob.toList name.toList) := by
  fun_induction walkOn glob name walk with
  | case1 walk next goes ih =>
    have keeps := keeps_turn sound
    rw [goes] at keeps
    obtain ⟨turns, few, fits, ended, answered, hope⟩ := ih keeps.1
    have fewer := turnsLeft_lt goes
    refine ⟨turns + 1, by omega, fits, ?_, answered, hope.trans keeps.2⟩
    rw [after, goes]
    exact ended
  | case2 walk fits answers =>
    have keeps := keeps_turn sound
    rw [answers] at keeps
    exact ⟨0, Nat.zero_le _, fits, answers, rfl, keeps⟩
  | case3 walk left =>
    have keeps := keeps_turn sound
    rw [left] at keeps
    exact keeps.elim

end Run

end Glob

/-! ### Paths -/

/-- The file is what stands in the path behind its last slash or backslash. -/
def IsLastPart (path file : List Char) : Prop :=
  ∃ front, path = front ++ file ∧ (∀ c ∈ file, c ≠ '/' ∧ c ≠ '\\') ∧
    ∀ c, front.getLast? = some c → c = '/' ∨ c = '\\'

theorem isLastPart_fileName (path : String) : IsLastPart path.toList (fileName path).toList := by
  let inside : Char → Bool := fun c => c != '/' && c != '\\'
  have split := List.takeWhile_append_dropWhile (p := inside) (l := path.toList.reverse)
  refine ⟨(path.toList.reverse.dropWhile inside).reverse, ?_, ?_, ?_⟩
  · have reversed := congrArg List.reverse split
    rw [List.reverse_append, List.reverse_reverse] at reversed
    simpa [fileName] using reversed.symm
  · intro c member
    have member : c ∈ path.toList.reverse.takeWhile inside := by simpa [fileName] using member
    have passes : inside c = true := List.all_eq_true.mp List.all_takeWhile c member
    simpa [inside] using passes
  · intro c last
    rw [List.getLast?_reverse] at last
    have stops := List.head?_dropWhile_not inside path.toList.reverse
    rw [last] at stops
    simpa [inside, or_iff_not_imp_left] using stops

/-- A path has one last part: of two cuts, the later one would leave a slash or backslash in the part behind
the earlier one. -/
theorem IsLastPart.unique {path file other : List Char} (one : IsLastPart path file)
    (two : IsLastPart path other) : file = other := by
  have shorter {front middle file : List Char} (apart : ∀ c ∈ middle ++ file, c ≠ '/' ∧ c ≠ '\\')
      (cut : ∀ c, (front ++ middle).getLast? = some c → c = '/' ∨ c = '\\') : middle = [] := by
    cases last : middle.getLast? with
    | none => exact List.getLast?_eq_none_iff.mp last
    | some c =>
      have inside := apart c (List.mem_append_left _ (List.mem_of_getLast? last))
      have slash := cut c (by simp [List.getLast?_append, last])
      exact (slash.elim inside.1 inside.2).elim
  obtain ⟨front, rfl, apart, cut⟩ := one
  obtain ⟨other_front, split, other_apart, other_cut⟩ := two
  rcases List.append_eq_append_iff.mp split with ⟨middle, rfl, rfl⟩ | ⟨middle, rfl, rfl⟩
  · rw [shorter apart other_cut, List.nil_append]
  · rw [shorter other_apart cut, List.nil_append]

/-- A language whose only glob is the given one takes exactly the paths whose last part the glob fits, and for
every glob and every name the walk ends with an answer, within so many turns as there are pairs of places,
and never leaves the glob or the name. -/
theorem filename_matches_exactly (descriptor : Descriptor) (glob path : String) :
    (∃! file, IsLastPart path.toList file ∧
      (({ descriptor with filenames := [glob] } : Descriptor).matchesFilename path = true ↔
        Glob.Fits glob.toList file)) ∧
    ∀ name : String, ∃ turns ≤ (name.length + 2) * (glob.length + 1),
      Glob.after glob.toList.toArray name.toList.toArray turns .start =
        .answer (globMatches glob name) := by
  let start : Glob.Walk := .start
  have answers (name : String) : ∃ turns ≤ Glob.turnsLeft glob.toList.toArray name.toList.toArray start,
      ∃ fits, Glob.after glob.toList.toArray name.toList.toArray turns start = .answer fits ∧
        Glob.walkOn glob.toList.toArray name.toList.toArray start = some fits ∧
        (fits = true ↔ start.Hopeful glob.toList name.toList) := Glob.exists_answer .start
  constructor
  · refine ⟨(fileName path).toList, ⟨isLastPart_fileName path, ?_⟩,
      fun _ other => other.1.unique (isLastPart_fileName path)⟩
    obtain ⟨_, _, fits, _, walked, hope⟩ := answers (fileName path)
    rw [Glob.Walk.hopeful_start] at hope
    have matched : globMatches glob (fileName path) = fits := by simp [globMatches, start, walked]
    simp [Descriptor.matchesFilename, matched, hope]
  · intro name
    obtain ⟨turns, few, fits, ended, walked, _⟩ := answers name
    have matched : globMatches glob name = fits := by simp [globMatches, start, walked]
    refine ⟨turns, ?_, matched ▸ ended⟩
    simp only [Glob.turnsLeft, start, Glob.Walk.start, Option.elim_none, List.size_toArray,
      String.length_toList, Nat.sub_zero] at few
    calc turns ≤ (name.length + 1) * (glob.length + 1) + glob.length := few
      _ ≤ (name.length + 1) * (glob.length + 1) + (glob.length + 1) := Nat.le_succ _
      _ = (name.length + 2) * (glob.length + 1) := (Nat.succ_mul ..).symm

end TableLexer
