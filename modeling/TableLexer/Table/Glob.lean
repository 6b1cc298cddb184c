/-
**Globs of file names.**

In a glob `*` stands for any run of characters, `?` for exactly one, and every other character for
itself. A glob and a name are walked through side by side (`Glob.turn`). A star stands for nothing at
first; where the walk gets stuck, it goes back to the last star, which then stands for one character
more (`Glob.Walk.retry`). It never goes back to an earlier star.

* `Glob.turnsLeft_lt`: each turn leaves fewer turns, so the walk ends (`Glob.walkOn`).
-/

namespace TableLexer

namespace Glob

/-- A star of a glob by its place there, and the place in the name from which on the rest of the glob is
tried. -/
structure Star where
  glob : Nat
  name : Nat
  deriving DecidableEq, Repr

/-- How far a glob and a name were walked through. -/
structure Walk where
  /-- So many characters of the glob are behind. -/
  glob : Nat
  /-- So many characters of the name are behind. -/
  name : Nat
  /-- The last star that is behind. -/
  star : Option Star
  tried : ∀ last ∈ star, last.name ≤ name

/-- What a turn of the walk comes to. -/
inductive Turn where
  | goOn (walk : Walk)
  | answer (fits : Bool)
  /-- The walk has left the glob behind. -/
  | outside

/-- Before the first turn. -/
def Walk.start : Walk := ⟨0, 0, none, nofun⟩

/-- The walk passes a star, which stands for nothing so far. -/
def Walk.passStar (walk : Walk) : Walk :=
  ⟨walk.glob + 1, walk.name, some ⟨walk.glob, walk.name⟩,
    fun _ same => Option.some.inj same ▸ Nat.le_refl walk.name⟩

/-- The walk passes a character on both sides. -/
def Walk.passBoth (walk : Walk) : Walk :=
  ⟨walk.glob + 1, walk.name + 1, walk.star, fun last same => Nat.le_succ_of_le (walk.tried last same)⟩

/-- The walk goes back to the star, which stands for one character more. -/
def Walk.behind (last : Star) : Walk :=
  ⟨last.glob + 1, last.name + 1, some ⟨last.glob, last.name + 1⟩,
    fun _ same => Option.some.inj same ▸ Nat.le_refl (last.name + 1)⟩

/-- Where the glob and the name do not go together, the walk goes back to the last star. -/
def Walk.retry (walk : Walk) : Turn :=
  match walk.star with
  | some last => .goOn (.behind last)
  | none => .answer false

/-- One turn of the walk. Behind the end of the name only stars fit. -/
def turn (glob name : Array Char) (walk : Walk) : Turn :=
  if ahead : walk.name < name.size then
    match glob[walk.glob]? with
    | some g =>
      if g = '*' then .goOn walk.passStar
      else if g = '?' ∨ g = name[walk.name] then .goOn walk.passBoth
      else walk.retry
    | none => walk.retry
  else if walk.glob ≤ glob.size then .answer ((glob.toList.drop walk.glob).all (· == '*'))
  else .outside

/-- How many turns are left at most: for each place of the name from which on the rest of the glob can be
tried, as many as the glob has characters. -/
def turnsLeft (glob name : Array Char) (walk : Walk) : Nat :=
  let places := walk.star.elim (name.size + 1) fun last => name.size - last.name
  places * (glob.size + 1) + (glob.size - walk.glob)

/-- To go back to a star gives up one place of the name. -/
theorem turnsLeft_lt_of_retry {glob name : Array Char} {walk next : Walk}
    (ahead : walk.name < name.size) (goes : walk.retry = .goOn next) :
    turnsLeft glob name next < turnsLeft glob name walk := by
  unfold Walk.retry at goes
  split at goes
  · rename_i last star
    cases goes
    have tried := walk.tried last star
    have places : name.size - last.name = name.size - (last.name + 1) + 1 := by omega
    simp only [turnsLeft, star, Walk.behind, Option.elim_some]
    rw [places, Nat.succ_mul]
    omega
  · cases goes

/-- Each turn leaves fewer turns. -/
theorem turnsLeft_lt {glob name : Array Char} {walk next : Walk}
    (goes : turn glob name walk = .goOn next) : turnsLeft glob name next < turnsLeft glob name walk := by
  unfold turn at goes
  split at goes
  · rename_i ahead
    split at goes
    · rename_i g here
      have inside : walk.glob < glob.size := (Array.getElem?_eq_some_iff.mp here).1
      split at goes
      · cases goes
        have fewer : name.size - walk.name ≤
            walk.star.elim (name.size + 1) fun last => name.size - last.name := by
          cases star : walk.star with
          | none => exact Nat.le_succ_of_le (Nat.sub_le _ _)
          | some last => exact Nat.sub_le_sub_left (walk.tried last star) _
        have places := Nat.mul_le_mul_right (glob.size + 1) fewer
        simp only [turnsLeft, Walk.passStar, Option.elim_some]
        omega
      · split at goes
        · cases goes
          simp only [turnsLeft, Walk.passBoth]
          omega
        · exact turnsLeft_lt_of_retry ahead goes
    · exact turnsLeft_lt_of_retry ahead goes
  · split at goes <;> cases goes

/-- Whether the rest of the glob fits the rest of the name; `none` if the walk leaves the glob behind. -/
def walkOn (glob name : Array Char) (walk : Walk) : Option Bool :=
  match _goes : turn glob name walk with
  | .goOn next => walkOn glob name next
  | .answer fits => some fits
  | .outside => none
termination_by turnsLeft glob name walk
decreasing_by exact turnsLeft_lt _goes

end Glob

/-- The glob matches the name. -/
def globMatches (glob name : String) : Bool :=
  Glob.walkOn glob.toList.toArray name.toList.toArray .start == some true

end TableLexer
