/-
**What a run comes through.**

A run comes through the states of its own scan and through those of the runs that are nested in it.

* `Starts`: a step starts a nested run when the way the step ends depends on how that run ends.
* `Reaches`: what a run comes through, step after step and from a step into the runs that it starts.
* `Starts.of_agree`: where a step is the same for nested runs that agree on some texts, it starts runs on
  these texts only.
-/

import TableLexer.Proofs.Scan.Parts

namespace TableLexer

variable {σ : Type}

/-- A step of the lexer starts a nested run of the child on the text in the world: were this nested run to
end in another way, the step would too. -/
def Starts (engine : Engine σ) (lexer : Lexer) (run : Run σ) (child : Lexer) (text : List Char)
    (world : World σ) : Prop :=
  ∃ nested other : NestedRun σ, nestedRun engine (lexer.levelsLeft engine) = some nested ∧
    (∀ otherChild piece before, (otherChild, piece, before) ≠ (child, text, world) →
      other otherChild piece before = nested otherChild piece before) ∧
    step engine (some other) lexer run ≠ step engine (some nested) lexer run

/-- What a run of the lexer from the given state on comes through: its own states and those of the runs
nested in it, each with its lexer. -/
inductive Reaches (engine : Engine σ) (lexer : Lexer) (start : Run σ) : Lexer → Run σ → Prop where
  | start : Reaches engine lexer start lexer start
  | step {child : Lexer} {run next : Run σ} (reached : Reaches engine lexer start child run)
      (unfinished : run.scan.isDone = false) (stepped : child.step engine run = .ok () next) :
      Reaches engine lexer start child next
  | nest {child inner : Lexer} {run : Run σ} {text : List Char} {world : World σ}
      (reached : Reaches engine lexer start child run) (unfinished : run.scan.isDone = false)
      (starts : Starts engine child run inner text world) :
      Reaches engine lexer start inner ⟨.start inner.table text, world⟩

/-- The nested runs of the given kind are the same. -/
def NestedRun.Agree (kind : Lexer → List Char → Prop) (one other : NestedRun σ) : Prop :=
  ∀ child text world, kind child text → other child text world = one child text world

/-- Where a step is the same for nested runs that agree on those of a kind, it starts runs of this kind
only. -/
theorem Starts.of_agree {engine : Engine σ} {lexer child : Lexer} {run : Run σ}
    {text : List Char} {world : World σ} {kind : Lexer → List Char → Prop}
    (same : ∀ one other : NestedRun σ, one.Agree kind other →
      step engine (some other) lexer run = step engine (some one) lexer run)
    (starts : Starts engine lexer run child text world) : kind child text := by
  obtain ⟨nested, other, _, elsewhere, differs⟩ := starts
  by_cases inside : kind child text
  · exact inside
  · refine absurd (same nested other fun otherChild piece before allowed => ?_) differs
    refine elsewhere otherChild piece before fun equal => inside ?_
    obtain ⟨rfl, rfl, rfl⟩ : otherChild = child ∧ piece = text ∧ before = world := by
      simpa using equal
    exact allowed

end TableLexer
