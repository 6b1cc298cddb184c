/-
**Nested runs are runs like any other.**

A run at some depth, on a text that stands somewhere in the outermost text, does what an independent run of
the same table on the same text does, where that may nest as deep as levels are left. What differs is
counted from elsewhere: the positions in errors, the limit of depth in the error about it, and the greatest
depth that was reached.

* `Lockstep.elsewhere`: the two runs go in lockstep.
* `nested_run_eq_independent_run`: both runs end in the same way, up to the place; and a text that a rule
  hands on leaves in the sink what an independent run on it leaves there.
-/

import TableLexer.Proofs.Scan.Lockstep
import TableLexer.Proofs.Scan.Raised

namespace TableLexer

open Step

variable {σ : Type}

/-- The engine with another limit of depth. -/
def Engine.limited (engine : Engine σ) (maxDepth : Nat) : Engine σ :=
  { engine with options := { engine.options with maxDepth } }

/-- The part of a step left the sink and the tables as the other did, and ended in the same way, but so
much deeper and further on. -/
structure Step.Elsewhere {α : Type} (deeper further : Nat)
    (there here : EStateM.Result ScanError (Run σ) α) : Prop where
  error : (ending there).1 = (ending here).1.map (·.moved deeper further)
  scan : (ending there).2 = (ending here).2.deepened deeper
  sink : (endOf there).world.sink = (endOf here).world.sink
  cache : (endOf there).world.cache = (endOf here).world.cache

/-- A text that stands at the offset was handed on, from `found` on, and left in the sink what an
independent run on it leaves there. The error is that of the independent run, and its counters are added,
both from elsewhere. -/
structure Step.Splices (lexer : Lexer) (offset : Nat) (found : Run σ)
    (handed alone : EStateM.Result ScanError (Run σ) Unit) : Prop where
  error : (ending handed).1 = (ending alone).1.map (·.moved (lexer.depth + 1) offset)
  scan : (ending handed).2 = found.scan.count
    (·.absorb ((ending alone).2.metrics.deepened (lexer.depth + 1)) (lexer.depth + 1))
  sink : (endOf handed).world.sink = (endOf alone).world.sink
  cache : (endOf handed).world.cache = (endOf alone).world.cache

/-- Two worlds differ in their logs only. -/
def World.AlikeButLogs (world twin : World σ) : Prop :=
  world.sink = twin.sink ∧ world.cache = twin.cache

/-- Runs that are deeper and further on go in lockstep with those of an engine whose limit is the smaller
by as much. -/
def Lockstep.elsewhere (engine : Engine σ) {deeper : Nat} (deep : deeper ≤ engine.options.maxDepth)
    (further : Nat) : Lockstep engine (engine.limited (engine.options.maxDepth - deeper)) where
  deeper
  further
  member _ := True
  placed _ _ := True
  worlds := World.AlikeButLogs
  parted _ _ _ := False
  drift _ _ := True
  placement := placement_trivial
  drifts := World.drift_trivial _
  keeps parted _ := parted
  limit := Nat.le_of_eq (Nat.sub_add_cancel deep).symm
  exceeds _ fewer := absurd (Nat.sub_add_cancel deep).symm (Nat.ne_of_lt fewer)
  notes _ alike := alike
  looksUp := by
    rintro world twin name ⟨sink, cache⟩
    unfold World.table
    rw [cache]
    exact ⟨rfl, ⟨sink, rfl⟩, fun _ _ => trivial⟩
  offers := by
    rintro world twin token ⟨sink, cache⟩
    have same : (engine.limited (engine.options.maxDepth - deeper)).emitter = engine.emitter := rfl
    rw [sink, same]
    cases engine.emitter.emit token twin.sink with
    | ok _ after => exact ⟨rfl, cache⟩
    | error message after => exact ⟨rfl, rfl, cache⟩
  intends _ _ _ _ _ := .inl (Lexer.intent_moved rfl rfl)

/-- Runs that never part end in the same way, up to the place. -/
theorem Lockstep.Abreast.elsewhere {α : Type} {engine : Engine σ} {deeper further : Nat}
    {deep : deeper ≤ engine.options.maxDepth} {there here : EStateM.Result ScanError (Run σ) α}
    (abreast : (Lockstep.elsewhere engine deep further).Abreast there here) :
    Elsewhere deeper further there here := by
  cases abreast with
  | ok runs => exact ⟨rfl, runs.scan, runs.worlds.1, runs.worlds.2⟩
  | error error runs => exact ⟨rfl, runs.scan, runs.worlds.1, runs.worlds.2⟩
  | parted parts => exact parts.elim

/-- A run at some depth is the independent run, elsewhere, also if the two start with different logs. -/
theorem elsewhere_drive (engine : Engine σ) (lexer : Lexer)
    (deep : lexer.depth ≤ engine.options.maxDepth) (text : List Char) {world twin : World σ}
    (alike : world.AlikeButLogs twin) :
    Elsewhere lexer.depth lexer.base (lexer.drive engine ⟨.start lexer.table text, world⟩)
      (({ table := lexer.table } : Lexer).drive
        (engine.limited (engine.options.maxDepth - lexer.depth)) ⟨.start lexer.table text, twin⟩) := by
  let outermost : Lexer := { table := lexer.table }
  have moved : outermost.moved lexer.depth lexer.base = lexer := by
    unfold Lexer.moved
    rw [Nat.zero_add, Nat.zero_add]
  let steps := Lockstep.elsewhere engine deep lexer.base
  have abreast : steps.Abreast
      ((outermost.moved lexer.depth lexer.base).drive engine ⟨.start outermost.table text, world⟩)
      (outermost.drive (engine.limited (engine.options.maxDepth - lexer.depth))
        ⟨.start outermost.table text, twin⟩) :=
    Lockstep.abreast_drive trivial trivial alike
  rw [moved] at abreast
  exact abreast.elsewhere

/-- How handing a text on ends: as the run to which it is handed on, the counters of which are added. -/
theorem delegate_eq_drive {engine : Engine σ} {lexer : Lexer}
    (levels : lexer.depth < engine.options.maxDepth) {target : Target} {text : List Char}
    (some_text : text ≠ []) (offset : Nat) {run found : Run σ} {table : Table}
    (resolved : resolve engine lexer target run = .ok table found) :
    let child : Lexer := ⟨table, lexer.depth + 1, offset⟩
    let ended := child.drive engine
      ⟨.start table text, delegated lexer text offset table found.world⟩
    let handed := delegate engine (nestedRun engine (lexer.levelsLeft engine)) lexer target text offset
      run
    (ending handed).1 = (ending ended).1 ∧ (endOf handed).world = (endOf ended).world ∧
      (ending handed).2 = found.scan.count (·.absorb (ending ended).2.metrics (lexer.depth + 1)) := by
  intro child ended handed
  obtain ⟨nested, allowed⟩ : ∃ nested,
      nestedRun engine (lexer.levelsLeft engine) = some nested := by
    refine Option.ne_none_iff_exists'.mp fun none_left => ?_
    exact Nat.not_le.mpr levels (nestedRun_eq_none_iff.mp none_left)
  have same : nested child text (delegated lexer text offset table found.world) = ended :=
    nestedRun_eq_drive allowed rfl text _
  have handed_eq : handed = runNested nested child text
      ⟨found.scan, delegated lexer text offset table found.world⟩ := by
    show delegate _ _ _ _ _ _ _ = _
    rw [allowed, delegate_of_ne_nil some_text, bind_of_ok resolved]
    rfl
  rw [handed_eq]
  unfold runNested
  dsimp only
  rw [same]
  cases ended <;> exact ⟨rfl, rfl, rfl⟩

/-- The error about the limit of depth names the limit. -/
theorem limit_of_drive {engine : Engine σ} {lexer : Lexer} {text : List Char} {world : World σ}
    {limit offset : Nat}
    (failed : (ending (lexer.drive engine ⟨.start lexer.table text, world⟩)).1 =
      some (.depthExceeded limit offset)) : limit = engine.options.maxDepth := by
  obtain ⟨last, ended⟩ := exists_of_ending failed
  obtain ⟨child, piece, run, failsIn⟩ := exists_failsIn ended
  cases failsIn.raises with
  | intent ahead fails =>
    rcases (Lexer.exists_of_intent_fail fails).2 with ⟨_, other⟩ | ⟨_, other⟩ <;> cases other
  | deed comes fails =>
    cases fails
    rfl

/-- A run at some depth, on a text somewhere in the outermost text, does what an independent run does on
that text when it may nest as many levels as are left: the sink takes the same tokens, the error is the
same, at the position from the outermost text on and with the outer limit, and so are the counters, with
the greatest depth counted from the outermost run. So what a rule hands on leaves in the sink what an
independent run on it leaves there. -/
theorem nested_run_eq_independent_run (engine : Engine σ) (lexer : Lexer) :
    (lexer.depth ≤ engine.options.maxDepth → ∀ (text : List Char) (world : World σ),
      let nested := lexer.drive engine ⟨.start lexer.table text, world⟩
      let alone := ({ table := lexer.table } : Lexer).drive
        (engine.limited (engine.options.maxDepth - lexer.depth)) ⟨.start lexer.table text, world⟩
      Elsewhere lexer.depth lexer.base nested alone ∧
        (∀ limit offset, (ending nested).1 = some (.depthExceeded limit offset) →
          limit = engine.options.maxDepth) ∧
        ∀ limit offset, (ending alone).1 = some (.depthExceeded limit offset) →
          limit = engine.options.maxDepth - lexer.depth) ∧
    (lexer.depth < engine.options.maxDepth → ∀ (target : Target) (text : List Char) (offset : Nat)
        (run found : Run σ) (table : Table), text ≠ [] →
      resolve engine lexer target run = .ok table found →
      Splices lexer offset found
        (delegate engine (nestedRun engine (lexer.levelsLeft engine)) lexer target text offset run)
        (({ table } : Lexer).drive
          (engine.limited (engine.options.maxDepth - (lexer.depth + 1)))
          ⟨.start table text, found.world⟩)) := by
  constructor
  · intro deep text world nested alone
    have elsewhere : Elsewhere lexer.depth lexer.base nested alone :=
      elsewhere_drive engine lexer deep text ⟨rfl, rfl⟩
    exact ⟨elsewhere, fun _ _ => limit_of_drive, fun _ _ => limit_of_drive⟩
  · intro levels target text offset run found table some_text resolved
    let child : Lexer := ⟨table, lexer.depth + 1, offset⟩
    obtain ⟨error, world, scan⟩ := delegate_eq_drive levels some_text offset resolved
    -- The nested run starts in a world that was told of it; the independent one does not.
    have alike : (delegated lexer text offset table found.world).AlikeButLogs found.world :=
      ⟨rfl, rfl⟩
    have elsewhere := elsewhere_drive engine child levels text alike
    exact
      { error := error.trans elsewhere.error
        scan := by rw [scan, elsewhere.scan]; rfl
        sink := by rw [world]; exact elsewhere.sink
        cache := by rw [world]; exact elsewhere.cache }

theorem nested_run_eq_independent_run_of_sample :
    ∃ table letters found, Sample.numbered.build = .ok table ∧
      let engine : Engine Collector := .collecting Sample.registry { maxDepth := 3 }
      let lexer : Lexer := { table, depth := 1, base := 4 }
      let run : Run Collector := ⟨.start table "12abc".toList, { sink := {} }⟩
      lexer.depth < engine.options.maxDepth ∧
        resolve engine lexer (.named "letters") run = .ok letters found ∧
        (ending (lexer.drive engine run)).1 = some (.stall 8 rootName) ∧
        Elsewhere 1 4 (lexer.drive engine run) (({ table } : Lexer).drive (engine.limited 2) run) ∧
        Splices lexer 6 found
          (delegate engine (nestedRun engine (lexer.levelsLeft engine)) lexer (.named "letters")
            "abc".toList 6 run)
          (({ table := letters } : Lexer).drive (engine.limited 1)
            ⟨.start letters "abc".toList, found.world⟩) := by
  have checked : (Sample.numbered.build.toOption.any fun table =>
      let engine : Engine Collector := .collecting Sample.registry { maxDepth := 3 }
      let lexer : Lexer := { table, depth := 1, base := 4 }
      let run : Run Collector := ⟨.start table "12abc".toList, { sink := {} }⟩
      (ending (lexer.drive engine run)).1 == some (.stall 8 rootName) &&
        (ending (resolve engine lexer (.named "letters") run)).1.isNone) = true := by decide +kernel
  cases build : Sample.numbered.build with
  | error => rw [build] at checked; cases checked
  | ok table =>
    rw [build] at checked
    obtain ⟨stalls, resolves⟩ := (Bool.and_eq_true _ _).mp checked
    let engine : Engine Collector := .collecting Sample.registry { maxDepth := 3 }
    let lexer : Lexer := { table, depth := 1, base := 4 }
    let run : Run Collector := ⟨.start table "12abc".toList, { sink := {} }⟩
    have resolves : (ending (resolve engine lexer (.named "letters") run)).1.isNone = true := resolves
    obtain ⟨nested, handed⟩ := nested_run_eq_independent_run engine lexer
    cases resolved : resolve engine lexer (.named "letters") run with
    | error => rw [resolved] at resolves; cases resolves
    | ok letters found =>
      have levels : lexer.depth < engine.options.maxDepth := Nat.lt_of_sub_pos Nat.two_pos
      exact ⟨table, letters, found, rfl, levels, resolved, eq_of_beq stalls,
        (nested (Nat.le_of_lt levels) _ _).1,
        handed levels _ _ 6 run found letters (by simp) resolved⟩

end TableLexer
