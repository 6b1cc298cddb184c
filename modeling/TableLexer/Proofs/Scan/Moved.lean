/-
**The same run elsewhere.**

The depth of a run and the base of its text show in what it writes to the log, in the positions of its
errors and in the greatest depth that it counts. All these are those of a run elsewhere, moved: so many
levels deeper, and so many bytes further on.

* `Metrics.absorb_deepened`: counters of nested runs may be added deeper.
* `Lexer.intent_moved`: what a step intends elsewhere is what it intends here, moved.
-/

import TableLexer.Proofs.Scan.Deeds

namespace TableLexer

/-- The error of a run that is so much deeper and further on, where the limit of depth is the greater by
as much. -/
def ScanError.moved (deeper further : Nat) : ScanError → ScanError
  | stall offset state => stall (offset + further) state
  | popRoot offset => popRoot (offset + further)
  | depthExceeded limit offset => depthExceeded (limit + deeper) (offset + further)
  | insideCharacter offset => insideCharacter (offset + further)
  | nothingToSkip offset => nothingToSkip (offset + further)
  | error => error

/-- The record of a run that is so much deeper and further on. -/
def Record.moved (deeper further : Nat) : Record → Record
  | delegating parent bytes offset child depth =>
    delegating parent bytes (offset + further) child (depth + deeper)
  | selected language depth state offset index source text =>
    selected language (depth + deeper) state (offset + further) index source text
  | skipped language offset state text => skipped language (offset + further) state text
  | record => record

/-- The counters of a run that is so much deeper: a greatest depth of 0 says that nothing was nested. -/
def Metrics.deepened (deeper : Nat) (metrics : Metrics) : Metrics :=
  { metrics with maxDepth := if metrics.maxDepth = 0 then 0 else metrics.maxDepth + deeper }

/-- The scan of a run that is so much deeper. -/
def Scan.deepened (deeper : Nat) (scan : Scan) : Scan := scan.count (·.deepened deeper)

/-- The lexer so much deeper and further on. -/
def Lexer.moved (deeper further : Nat) (lexer : Lexer) : Lexer :=
  { lexer with depth := lexer.depth + deeper, base := lexer.base + further }

/-- The deed of a run that is so much deeper and further on. -/
def Deed.moved (deeper further : Nat) : Deed → Deed
  | note record => note (record.moved deeper further)
  | pop origin => pop (origin + further)
  | delegate target text offset => delegate target text (offset + further)
  | deed => deed

/-- The intent of a run that is so much deeper and further on. -/
def Intent.moved (deeper further : Nat) : Intent → Intent
  | fail error => fail (error.moved deeper further)
  | go deeds bytes => go (deeds.map (Deed.moved deeper further)) bytes

/-! ### Nowhere else -/

theorem ScanError.moved_zero (error : ScanError) : error.moved 0 0 = error := by
  cases error <;> rfl

theorem Record.moved_zero (record : Record) : record.moved 0 0 = record := by
  cases record <;> rfl

theorem Metrics.deepened_zero (metrics : Metrics) : metrics.deepened 0 = metrics := by
  unfold deepened
  split
  · rename_i nothing_nested
    exact congrArg (fun depth => { metrics with maxDepth := depth }) nothing_nested.symm
  · rfl

theorem Scan.deepened_zero (scan : Scan) : scan.deepened 0 = scan := by
  exact congrArg (fun metrics => { scan with metrics }) scan.metrics.deepened_zero

theorem Lexer.moved_zero (lexer : Lexer) : lexer.moved 0 0 = lexer := rfl

theorem Deed.moved_zero (deed : Deed) : deed.moved 0 0 = deed := by
  cases deed with
  | note record => exact congrArg note record.moved_zero
  | emit | fallBack | push | pop | delegate => rfl

theorem Intent.moved_zero (intent : Intent) : intent.moved 0 0 = intent := by
  cases intent with
  | fail error => exact congrArg fail error.moved_zero
  | go deeds bytes =>
    have same : deeds.map (Deed.moved 0 0) = deeds := by
      rw [show Deed.moved 0 0 = id from funext Deed.moved_zero, List.map_id]
    exact congrArg (go · bytes) same

/-! ### Counters and intents -/

/-- The counters of a nested run may be added before or after all is taken deeper. -/
theorem Metrics.absorb_deepened (metrics child : Metrics) {depth : Nat} (nested : 0 < depth)
    (deeper : Nat) :
    (metrics.deepened deeper).absorb (child.deepened deeper) (depth + deeper) =
      (metrics.absorb child depth).deepened deeper := by
  unfold absorb deepened
  simp only [Metrics.mk.injEq, true_and]
  split <;> split <;> split <;> omega

variable {deeper further : Nat} {lexer : Lexer} {scan : Scan} {text : List Char}

/-- The place of a match of a run that is so much deeper and further on. -/
def Step.Site.moved (deeper further : Nat) (site : Step.Site) : Step.Site :=
  { site with lexer := site.lexer.moved deeper further, origin := site.origin + further }

theorem Step.Site.deed?_moved (site : Step.Site) (action : Action StateId) :
    (site.moved deeper further).deed? action = (site.deed? action).map (Deed.moved deeper further) := by
  cases action with
  | emit group kind =>
    unfold deed?
    rw [Option.map_map]
    rfl
  | delegate group target =>
    cases part : site.found.group? group <;>
      simp [deed?, moved, part, Deed.moved, slice, Nat.add_right_comm]
  | push | pop => rfl

theorem Step.Site.deeds_moved (site : Step.Site) (behavior : Behavior StateId) :
    (site.moved deeper further).deeds behavior =
      (site.deeds behavior).map (Deed.moved deeper further) := by
  cases behavior with
  | emit | emitAndPush | emitAndPop | delegate => rfl
  | composite actions =>
    simp only [deeds, List.map_filterMap]
    exact congrArg (List.filterMap · actions) (funext site.deed?_moved)

/-- What a step intends elsewhere is what it intends here, moved. -/
theorem Lexer.intent_moved {one other : Options} (policy : one.stall = other.stall)
    (trace : one.trace = other.trace) :
    (lexer.moved deeper further).intent one (scan.deepened deeper) text =
      (lexer.intent other scan text).moved deeper further := by
  have origin : (lexer.moved deeper further).base + (scan.deepened deeper).cursor =
      lexer.base + scan.cursor + further := Nat.add_right_comm _ _ _
  have state : (lexer.moved deeper further).table.state (scan.deepened deeper).stack.top =
      lexer.table.state scan.stack.top := rfl
  unfold intent
  rw [policy]
  dsimp only
  rw [origin, state]
  split
  · split <;> rfl
  · rename_i selection _
    have site : (lexer.moved deeper further).site (scan.deepened deeper) text selection =
        (lexer.site scan text selection).moved deeper further := by
      unfold Lexer.site
      rw [origin]
      rfl
    have told : (lexer.moved deeper further).told one (scan.deepened deeper) text selection =
        (lexer.told other scan text selection).map (Deed.moved deeper further) := by
      unfold Lexer.told
      rw [trace, origin, state]
      split <;> rfl
    rw [told, site, Step.Site.deeds_moved, ← List.map_append]
    rfl

end TableLexer
