/-
**Runs of orderly tables.**

* `ends_run`: runs fail by a stall or by a token that the emitter refuses only.
* `goesOn_of_reaches`: runs come through stacks of one or two states only, nest once at most, and choose
  no rule that hands text on while they are nested.
-/

import TableLexer.Proofs.Scan.Orderly
import TableLexer.Proofs.Scan.Reached

namespace TableLexer

open Step

namespace Step

variable {σ : Type} {engine : Engine σ} {lexer : Lexer} {site : Site} {regex : Pattern.Regex}
  {c : Char} {leaves : List StateId} {here : List Char}

/-! ### Which nested runs a step starts -/

/-- What an orderly rule hands on: a text without the character, where the text ahead has it. -/
def HandsOn (lexer : Lexer) (c : Char) (here : List Char) (child : Lexer) (piece : List Char) : Prop :=
  child.table = lexer.table ∧ child.depth = lexer.depth + 1 ∧ c ∉ piece ∧ c ∈ here

variable {one other : NestedRun σ}

theorem runNested_agree {kind : Lexer → List Char → Prop} (agree : one.Agree kind other)
    {child : Lexer} {piece : List Char} (allowed : kind child piece) :
    runNested other child piece = runNested one child piece := by
  funext run
  unfold runNested
  rw [agree child piece run.world allowed]

theorem act_agree (agree : one.Agree (HandsOn site.lexer c site.text) other)
    (found : regex.find? site.text = some site.found) {action : Action StateId}
    (guarded : action.guardedBy c regex = true) :
    act engine (some other) site action = act engine (some one) site action := by
  cases action with
  | delegate group target =>
    simp only [Action.guardedBy, Bool.and_eq_true, beq_iff_eq] at guarded
    obtain ⟨⟨rfl, needs⟩, avoids⟩ := guarded
    rw [act, act]
    split
    · rfl
    · rename_i span participates
      let child : Lexer := ⟨site.lexer.table, site.lexer.depth + 1, site.origin + span.start⟩
      have allowed : HandsOn site.lexer c site.text child (site.slice span) :=
        ⟨rfl, rfl, regex.not_mem_of_groupAvoids avoids found participates,
          regex.mem_of_needs needs found⟩
      unfold delegate
      rw [resolve, pure_bind, pure_bind]
      dsimp only
      rw [runNested_agree agree allowed]
  | emit | push | pop => rfl

theorem actAll_agree (agree : one.Agree (HandsOn site.lexer c site.text) other)
    (found : regex.find? site.text = some site.found) {actions : List (Action StateId)}
    (guarded : ∀ action ∈ actions, action.guardedBy c regex = true) :
    actAll engine (some other) site actions = actAll engine (some one) site actions := by
  induction actions with
  | nil => rfl
  | cons action rest ih =>
    have later := ih fun other member => guarded other (List.mem_cons_of_mem action member)
    rw [actAll, actAll, later, act_agree agree found (guarded action List.mem_cons_self)]

/-- A step is the same for nested runs that agree on what the rules of the table hand on. -/
theorem step_agree (orderly : lexer.table.Orderly c leaves) {run : Run σ}
    (ahead : run.scan.ahead = some here) (agree : one.Agree (HandsOn lexer c here) other) :
    step engine (some other) lexer run = step engine (some one) lexer run := by
  rw [step_of_ahead ahead, step_of_ahead ahead]
  split
  · rfl
  · rename_i selection chosen
    obtain ⟨member, found, _⟩ := exists_of_select chosen
    have guarded := orderly.guarded _ (Table.mem_rules member)
    unfold Rule.guardedBy at guarded
    obtain ⟨_, behaves⟩ := (Bool.and_eq_true _ _).mp guarded
    let site : Site :=
      { lexer, origin := lexer.base + run.scan.cursor, text := here, found := selection.found }
    have performs : perform engine (some other) site selection.rule.behavior =
        perform engine (some one) site selection.rule.behavior := by
      cases behavior : selection.rule.behavior with
      | composite actions =>
        rw [behavior] at behaves
        exact actAll_agree agree found (List.all_eq_true.mp behaves)
      | delegate target =>
        rw [behavior] at behaves
        cases behaves
      | emit | emitAndPush | emitAndPop => rfl
    unfold follow
    rw [performs]

end Step

/-! ### Whole runs -/

variable {σ : Type} {engine : Engine σ} {lexer : Lexer} {c : Char} {leaves : List StateId}
  {allowed : ScanError → Prop} {sinks : σ → Prop}

/-- Steps that end well make runs that do. -/
theorem ends_repeatStep {good : Run σ → Prop} {step : StepM σ Unit}
    (steps : ∀ run, good run → run.scan.isDone = false → Ends allowed good (step run)) (bound : Nat)
    {run : Run σ} (fine : good run) : Ends allowed good (repeatStep step bound run) := by
  induction bound generalizing run with
  | zero => exact .ok fine
  | succ bound ih =>
    rw [repeatStep]
    by_cases done : run.scan.isDone
    · rw [if_pos done]
      exact .ok fine
    · rw [if_neg done]
      have stepped := steps run fine (Bool.eq_false_iff.mpr done)
      generalize step run = result at stepped
      cases stepped with
      | ok fine => exact ih fine
      | error expected fine => exact .error expected fine

/-- A run that starts at the root state is settled. -/
theorem settled_start (table : Table) (leaves : List StateId) (bound : Nat) (text : List Char)
    {world : World σ} (sink : sinks world.sink) :
    Settled sinks table leaves bound text ⟨.start table text, world⟩ :=
  ⟨⟨.inl rfl, Nat.zero_le bound, sink⟩, text, rfl, List.suffix_refl text⟩

/-- Without the character there is nothing to nest. -/
theorem mayNest_of_not_mem {bound : Nat} {text : List Char} (missing : c ∉ text)
    (nested : Option (NestedRun σ)) :
    ∀ here, here <:+ text → MayNest allowed sinks lexer c bound here nested :=
  fun _ suffix member => absurd (suffix.subset member) missing

/-- Nested runs on texts without the character end well. -/
theorem nestedEnds_nestedRun (orderly : lexer.table.Orderly c leaves)
    (serves : engine.Serves allowed sinks) (bound levels : Nat) :
    ∀ run ∈ nestedRun engine levels, NestedEnds allowed sinks lexer.table c bound run := by
  intro run nested child text world same _ missing sink
  cases levels with
  | zero => cases nested
  | succ levels =>
    cases nested
    rw [← same] at orderly
    have may (here : List Char) (suffix : here <:+ text) :
        MayNest allowed sinks child c bound here (nestedRun engine levels) :=
      mayNest_of_not_mem missing _ here suffix
    have ends : Ends allowed (Settled sinks child.table leaves bound text)
        (driveWith (step engine (nestedRun engine levels) child) ⟨.start child.table text, world⟩) :=
      ends_repeatStep (fun _ settled => ends_step orderly serves may settled) _
        (settled_start child.table leaves bound text sink)
    exact ends.mono fun _ settled => ⟨settled.balanced.shallow, settled.balanced.sink⟩

/-- Where nesting is allowed, nested runs end well. -/
theorem mayNest_of_depth (orderly : lexer.table.Orderly c leaves)
    (serves : engine.Serves allowed sinks) (shallow : lexer.depth < engine.options.maxDepth)
    (here : List Char) :
    MayNest allowed sinks lexer c (lexer.depth + 1) here
      (nestedRun engine (lexer.levelsLeft engine)) := by
  intro _
  refine ⟨Nat.lt_succ_self _, ?_⟩
  have some_level : lexer.levelsLeft engine ≠ 0 := Nat.sub_ne_zero_of_lt shallow
  obtain ⟨levels, same⟩ := Nat.exists_eq_succ_of_ne_zero some_level
  rw [same]
  exact ⟨_, rfl, nestedEnds_nestedRun orderly serves _ levels.succ _ rfl⟩

/-- A run of an orderly table ends well. -/
theorem ends_run (orderly : lexer.table.Orderly c leaves) (serves : engine.Serves allowed sinks)
    (shallow : lexer.depth < engine.options.maxDepth) (text : List Char) {world : World σ}
    (sink : sinks world.sink) :
    Ends allowed (Settled sinks lexer.table leaves (lexer.depth + 1) text)
      (lexer.drive engine ⟨.start lexer.table text, world⟩) := by
  have may (here : List Char) (_ : here <:+ text) := mayNest_of_depth orderly serves shallow here
  exact ends_repeatStep (fun _ settled => ends_step orderly serves may settled) _
    (settled_start lexer.table leaves _ text sink)

/-! ### What runs come through -/

/-- An engine may fail in any way that is not excluded. -/
theorem Engine.serves_any (engine : Engine σ) : engine.Serves (fun _ => True) fun _ => True where
  emit token sink _ := by
    cases engine.emitter.emit token sink with
    | ok _ after => exact .inl ⟨after, rfl, trivial⟩
    | error message after => exact .inr ⟨message, after, rfl, trivial, trivial⟩
  stall _ _ _ := trivial

/-- The lexer is that of the outermost run, or that of a run nested in it on a text without the
character. -/
def Nests (outermost : Lexer) (c : Char) (piece : List Char) (lexer : Lexer) : Prop :=
  lexer = outermost ∨ lexer.depth = outermost.depth + 1 ∧ c ∉ piece

/-- The state is settled, and so is the one to which the next step comes, even if it fails. -/
structure GoesOn (engine : Engine σ) (lexer : Lexer) (leaves : List StateId) (bound : Nat)
    (piece : List Char) (run : Run σ) : Prop where
  now : Settled (fun _ => True) lexer.table leaves bound piece run
  next : run.scan.isDone = false →
    Settled (fun _ => True) lexer.table leaves bound piece (endOf (lexer.step engine run))

theorem Nests.goesOn {outermost : Lexer} (orderly : outermost.table.Orderly c leaves)
    (shallow : outermost.depth < engine.options.maxDepth) {piece : List Char}
    (nests : Nests outermost c piece lexer) (same : lexer.table = outermost.table) {run : Run σ}
    (settled : Settled (fun _ => True) lexer.table leaves (outermost.depth + 1) piece run) :
    GoesOn engine lexer leaves (outermost.depth + 1) piece run := by
  refine ⟨settled, fun unfinished => ?_⟩
  have may (here : List Char) (suffix : here <:+ piece) :
      MayNest (fun _ => True) (fun _ => True) lexer c (outermost.depth + 1) here
        (nestedRun engine (lexer.levelsLeft engine)) := by
    rcases nests with rfl | ⟨_, missing⟩
    · exact mayNest_of_depth orderly engine.serves_any shallow here
    · exact mayNest_of_not_mem missing _ here suffix
  rw [← same] at orderly
  have ends := ends_step orderly engine.serves_any may settled unfinished
  unfold Lexer.step
  generalize step engine _ lexer run = result at ends
  cases ends with
  | ok fine => exact fine
  | error _ fine => exact fine

/-- All that a run of an orderly table comes through is settled: states of its own, and states of runs of
the same table, nested in it, on texts without the character. -/
theorem goesOn_of_reaches (orderly : lexer.table.Orderly c leaves)
    (shallow : lexer.depth < engine.options.maxDepth) {text : List Char} {world : World σ}
    {child : Lexer} {run : Run σ}
    (reached : Reaches engine lexer ⟨.start lexer.table text, world⟩ child run) :
    child.table = lexer.table ∧ ∃ piece, Nests lexer c piece child ∧
      GoesOn engine child leaves (lexer.depth + 1) piece run := by
  induction reached with
  | start =>
    have nests : Nests lexer c text lexer := .inl rfl
    exact ⟨rfl, text, nests, nests.goesOn orderly shallow rfl (settled_start _ _ _ _ trivial)⟩
  | @step child run next _ unfinished stepped ih =>
    obtain ⟨same, piece, nests, goesOn⟩ := ih
    have settled := goesOn.next unfinished
    rw [stepped] at settled
    exact ⟨same, piece, nests, nests.goesOn orderly shallow same settled⟩
  | @nest child inner run piece world _ _ starts ih =>
    obtain ⟨same, whole, nests, goesOn⟩ := ih
    obtain ⟨here, ahead, suffix⟩ := goesOn.now.ahead
    have ordered : child.table.Orderly c leaves := same ▸ orderly
    obtain ⟨table, depth, missing, member⟩ :=
      starts.of_agree fun _ _ agree => step_agree ordered ahead agree
    have family : inner.table = lexer.table := table.trans same
    have nested : Nests lexer c piece inner := by
      rcases nests with rfl | ⟨_, absent⟩
      · exact .inr ⟨depth, missing⟩
      · exact absurd (suffix.subset member) absent
    exact ⟨family, piece, nested,
      nested.goesOn orderly shallow family (settled_start _ _ _ _ trivial)⟩

end TableLexer
