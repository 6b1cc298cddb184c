/-
**Two runs side by side.**

Two engines run the same table on the same text, the one perhaps deeper and further on than the other. They
go in lockstep: after each part of a step they are in the same state, up to the place, or both have failed
with the same error, up to the place; or the one has failed where the other goes on, and what is said of
that parting holds from then on. How much the engines differ, and when they may part, is up to the
`Lockstep`: it names what each single thing that a step does must keep. The runs of the one may nest less
deep than those of the other; then they part where it comes to its limit.

* `Lockstep.Abreast.bind`: one part of a step after another.
* `Lockstep.abreast_step`: one step.
* `Lockstep.abreast_repeatStep`, `Lockstep.nestings_nestedRun`, `Lockstep.abreast_drive`: runs, at every
  depth.
* `Lockstep.Abreast.ending_eq`: runs that never part end in the same way.
* `Lockstep.Abreast.eq_or_parted`: runs in the same world end in the same way, or have parted.
-/

import TableLexer.Proofs.Scan.Moved
import TableLexer.Proofs.Scan.Places
import TableLexer.Proofs.Scan.Worlds

namespace TableLexer

open Step

variable {σ τ : Type}

/-- What keeps the runs of two engines in lockstep. -/
structure Lockstep (one : Engine σ) (other : Engine τ) where
  /-- How many levels deeper the one run is. -/
  deeper : Nat
  /-- How many bytes further on the text of the one run is. -/
  further : Nat
  /-- The tables that the runs use. -/
  member : Table → Prop
  /-- What is known of the texts at their positions. -/
  placed : Nat → List Char → Prop
  /-- The worlds of runs in lockstep. -/
  worlds : World σ → World τ → Prop
  /-- The one run has failed with the error in its world, and the other goes on in its own. -/
  parted : ScanError → World σ → World τ → Prop
  /-- What holds between the worlds that the other run goes through. -/
  drift : World τ → World τ → Prop
  placement : Placement member placed
  drifts : World.Drift other drift
  keeps : ∀ {error world before after}, parted error world before → drift before after →
    parted error world after
  limit : one.options.maxDepth ≤ other.options.maxDepth + deeper
  exceeds : ∀ {world twin} (offset : Nat), one.options.maxDepth < other.options.maxDepth + deeper →
    worlds world twin → parted (.depthExceeded one.options.maxDepth offset) world twin
  notes : ∀ {world twin} (record : Record), worlds world twin →
    worlds (world.addRecords [record.moved deeper further]) (twin.addRecords [record])
  looksUp : ∀ {world twin} (name : String), worlds world twin →
    (world.table one.registry name).1.map SharedTable.table =
        (twin.table other.registry name).1.map SharedTable.table ∧
      worlds (world.table one.registry name).2 (twin.table other.registry name).2 ∧
      ∀ shared, (twin.table other.registry name).1 = .ok shared → member shared.table
  offers : ∀ {world twin} (token : Token), worlds world twin →
    match one.emitter.emit token world.sink, other.emitter.emit token twin.sink with
    | .ok _ sink, .ok _ twinSink => worlds { world with sink } { twin with sink := twinSink }
    | .error message sink, .error twinMessage twinSink =>
      message = twinMessage ∧ worlds { world with sink } { twin with sink := twinSink }
    | .error message sink, .ok _ twinSink =>
      parted (.emit message) { world with sink } { twin with sink := twinSink }
    | .ok _ _, .error _ _ => False
  intends : ∀ (lexer : Lexer) (scan : Scan) (text : List Char), text ≠ [] →
    placed (lexer.base + scan.cursor) text →
    (lexer.moved deeper further).intent one.options (scan.deepened deeper) text =
        (lexer.intent other.options scan text).moved deeper further ∨
      ∃ error, (lexer.moved deeper further).intent one.options (scan.deepened deeper) text =
          .fail error ∧
        ∀ nested world (twin : Run τ), worlds world twin.world →
          parted error world
            (endOf ((lexer.intent other.options scan text).carryOut other nested lexer twin)).world

/-- Two runs with the same limit may nest equally deep. -/
theorem Engine.maxDepth_le (engine : Engine σ) : engine.options.maxDepth ≤ engine.options.maxDepth + 0 :=
  Nat.le_refl _

namespace Lockstep

variable {one : Engine σ} {other : Engine τ} {α β : Type} (steps : Lockstep one other)

/-- The runs are in the same state. -/
structure Runs (run : Run σ) (twin : Run τ) : Prop where
  scan : run.scan = twin.scan.deepened steps.deeper
  worlds : steps.worlds run.world twin.world

/-- The runs are still in lockstep, or have parted. -/
inductive Abreast : EStateM.Result ScanError (Run σ) α → EStateM.Result ScanError (Run τ) α → Prop
  | ok {a : α} {run : Run σ} {twin : Run τ} (runs : steps.Runs run twin) :
      Abreast (.ok a run) (.ok a twin)
  | error (error : ScanError) {run : Run σ} {twin : Run τ} (runs : steps.Runs run twin) :
      Abreast (.error (error.moved steps.deeper steps.further) run) (.error error twin)
  | parted {error : ScanError} {run : Run σ} {result : EStateM.Result ScanError (Run τ) α}
      (parts : steps.parted error run.world (endOf result).world) : Abreast (.error error run) result

/-- The parts of a step keep runs in lockstep. -/
def Along (part : StepM σ α) (twinPart : StepM τ α) : Prop :=
  ∀ run twin, steps.Runs run twin → steps.Abreast (part run) (twinPart twin)

variable {steps}

/-- One part of a step after another, where the first is known to succeed with certain values only. -/
theorem Abreast.bind {part : StepM σ α} {rest : α → StepM σ β} {twinPart : StepM τ α}
    {twinRest : α → StepM τ β} {run : Run σ} {twin : Run τ}
    (abreast : steps.Abreast (part run) (twinPart twin))
    (along : ∀ a after, twinPart twin = .ok a after → steps.Along (rest a) (twinRest a))
    (carries : ∀ a, Carries steps.drift (twinRest a)) :
    steps.Abreast ((part >>= rest) run) ((twinPart >>= twinRest) twin) := by
  show steps.Abreast (EStateM.bind part rest run) (EStateM.bind twinPart twinRest twin)
  unfold EStateM.bind
  generalize part run = result, twinPart twin = twinResult at abreast along
  cases abreast with
  | ok runs => exact along _ _ rfl _ _ runs
  | error error runs => exact .error error runs
  | parted parts =>
    refine .parted ?_
    cases twinResult with
    | ok a middle => exact steps.keeps parts (carries a middle)
    | error => exact parts

theorem Along.bind {part : StepM σ α} {rest : α → StepM σ β} {twinPart : StepM τ α}
    {twinRest : α → StepM τ β} (first : steps.Along part twinPart)
    (along : ∀ a, steps.Along (rest a) (twinRest a))
    (carries : ∀ a, Carries steps.drift (twinRest a)) :
    steps.Along (part >>= rest) (twinPart >>= twinRest) :=
  fun run twin runs => (first run twin runs).bind (fun a _ _ => along a) carries

theorem along_pure (a : α) : steps.Along (pure a) (pure a) := fun _ _ runs => .ok runs

/-- The scans may be changed in a way that does not depend on the depth. -/
theorem along_changeScan (change : Scan → Scan)
    (same : ∀ scan : Scan, change (scan.deepened steps.deeper) =
      (change scan).deepened steps.deeper) :
    steps.Along (changeScan change) (changeScan change) := by
  intro run twin runs
  refine .ok ⟨?_, runs.worlds⟩
  show change run.scan = _
  rw [runs.scan, same]

theorem along_count (change : Metrics → Metrics)
    (same : ∀ metrics : Metrics, change (metrics.deepened steps.deeper) =
      (change metrics).deepened steps.deeper) :
    steps.Along (count change) (count change) :=
  along_changeScan _ fun scan =>
    congrArg (fun metrics => { scan with metrics }) (same scan.metrics)

theorem along_note (record : Record) :
    steps.Along (note (record.moved steps.deeper steps.further)) (note record) :=
  fun _ _ runs => .ok ⟨runs.scan, steps.notes record runs.worlds⟩

theorem along_emit (kind : Kind) (text : List Char) :
    steps.Along (emit one kind text) (emit other kind text) := by
  unfold emit
  split
  · exact along_pure ()
  · refine .bind (fun run twin runs => ?_) (fun _ => along_count _ fun _ => rfl)
      fun _ => carries_changeScan steps.drifts _
    have offered := steps.offers ⟨kind, String.ofList text⟩ runs.worlds
    dsimp only
    generalize one.emitter.emit _ run.world.sink = answer,
      other.emitter.emit _ twin.world.sink = twinAnswer at offered
    cases answer <;> cases twinAnswer
    · exact .ok ⟨runs.scan, offered⟩
    · exact offered.elim
    · exact .parted offered
    · obtain ⟨rfl, worlds⟩ := offered
      exact .error (.emit _) ⟨runs.scan, worlds⟩

theorem along_pop (origin : Nat) :
    steps.Along (pop (origin + steps.further) : StepM σ Unit) (pop origin) := by
  intro run twin runs
  have same : run.scan.stack = twin.scan.stack := by rw [runs.scan]; rfl
  unfold pop
  rw [same]
  split
  · exact .error (.popRoot origin) runs
  · refine .ok ⟨?_, runs.worlds⟩
    rw [runs.scan]
    rfl

/-! ### Delegation -/

variable (steps) in
/-- Nested runs stay in lockstep. -/
def NestsAlong (nested : NestedRun σ) (twinNested : NestedRun τ) : Prop :=
  ∀ (child : Lexer) (text : List Char) (world : World σ) (twin : World τ),
    steps.member child.table → steps.placed child.base text → 0 < child.depth →
    steps.worlds world twin →
    steps.Abreast (nested (child.moved steps.deeper steps.further) text world)
      (twinNested child text twin)

variable (steps) in
/-- The limits of depth are those of runs that do not part over them. -/
def SameLimit : Prop := one.options.maxDepth = other.options.maxDepth + steps.deeper

variable (steps) in
/-- The runs may nest as deep, or the one run less deep than the other, and nested runs stay in
lockstep. -/
def Nestings : Option (NestedRun σ) → Option (NestedRun τ) → Prop
  | some nested, some twinNested =>
    steps.NestsAlong nested twinNested ∧ NestedCarries steps.drift twinNested
  | some _, none => False
  | none, twinNested =>
    (steps.SameLimit → twinNested = none) ∧ ∀ run ∈ twinNested, NestedCarries steps.drift run

variable {nested : Option (NestedRun σ)} {twinNested : Option (NestedRun τ)} {lexer : Lexer}

theorem Nestings.carries (nestings : steps.Nestings nested twinNested) :
    ∀ run ∈ twinNested, NestedCarries steps.drift run := by
  rintro run rfl
  cases nested with
  | none => exact nestings.2 run rfl
  | some nested => exact nestings.2

/-- Where the one run may not nest deeper, both fail, or the other goes on. -/
theorem along_delegateTo_of_none (nothing : steps.SameLimit → twinNested = none)
    (carries : ∀ run ∈ twinNested, NestedCarries steps.drift run) {table : Table} {text : List Char}
    {offset : Nat} :
    steps.Along
      (delegateTo one none (lexer.moved steps.deeper steps.further) text (offset + steps.further)
        table)
      (delegateTo other twinNested lexer text offset table) := by
  intro run twin runs
  by_cases same : steps.SameLimit
  · rw [nothing same]
    unfold delegateTo
    rw [show one.options.maxDepth = _ from same]
    exact .error (.depthExceeded _ offset) runs
  · have fewer : one.options.maxDepth < other.options.maxDepth + steps.deeper :=
      Nat.lt_of_le_of_ne steps.limit same
    have later := carries_delegateTo steps.drifts carries lexer text offset table twin
    exact .parted (steps.keeps (steps.exceeds (offset + steps.further) fewer runs.worlds) later)

/-- Both look up the same table, and one that they may use. -/
theorem abreast_resolve (target : Target) (belongs : steps.member lexer.table) {run : Run σ}
    {twin : Run τ} (runs : steps.Runs run twin) :
    steps.Abreast (resolve one (lexer.moved steps.deeper steps.further) target run)
        (resolve other lexer target twin) ∧
      ∀ table after, resolve other lexer target twin = .ok table after → steps.member table := by
  cases target with
  | current =>
    refine ⟨.ok runs, fun table after found => ?_⟩
    cases found
    exact belongs
  | named language =>
    obtain ⟨same, worlds, member⟩ := steps.looksUp language runs.worlds
    unfold resolve
    dsimp only
    generalize run.world.table one.registry language = answer,
      twin.world.table other.registry language = twinAnswer at same worlds member
    obtain ⟨outcome, world⟩ := answer
    obtain ⟨twinOutcome, twinWorld⟩ := twinAnswer
    cases outcome with
    | error error =>
      cases twinOutcome with
      | ok => cases same
      | error => cases same; exact ⟨.error (.build error) ⟨runs.scan, worlds⟩, nofun⟩
    | ok shared =>
      cases twinOutcome with
      | error => cases same
      | ok twinShared =>
        have same : shared.table = twinShared.table := Except.ok.inj same
        refine ⟨?_, fun table after found => ?_⟩
        · dsimp only
          rw [same]
          exact .ok ⟨runs.scan, worlds⟩
        · cases found
          exact member twinShared rfl

theorem along_runNested {nested : NestedRun σ} {twinNested : NestedRun τ}
    (along : steps.NestsAlong nested twinNested) (child : Lexer) (belongs : steps.member child.table)
    (deep : 0 < child.depth) {text : List Char} (placed : steps.placed child.base text) :
    steps.Along (runNested nested (child.moved steps.deeper steps.further) text)
      (runNested twinNested child text) := by
  intro run twin runs
  have inner := along child text run.world twin.world belongs placed deep runs.worlds
  have absorbed {ended : Run σ} {twinEnded : Run τ} (ends : steps.Runs ended twinEnded) :
      run.scan.count (·.absorb ended.scan.metrics (child.depth + steps.deeper)) =
        (twin.scan.count (·.absorb twinEnded.scan.metrics child.depth)).deepened steps.deeper := by
    rw [runs.scan, ends.scan]
    exact congrArg (fun metrics => { twin.scan with metrics })
      (twin.scan.metrics.absorb_deepened twinEnded.scan.metrics deep steps.deeper)
  unfold runNested
  dsimp only
  generalize nested _ text run.world = result, twinNested child text twin.world = twinResult at inner
  cases inner with
  | ok ends => exact .ok ⟨absorbed ends, ends.worlds⟩
  | error error ends => exact .error error ⟨absorbed ends, ends.worlds⟩
  | parted parts =>
    refine .parted ?_
    cases twinResult <;> exact parts

theorem along_delegateTo (nestings : steps.Nestings nested twinNested) {table : Table}
    (belongs : steps.member table) {text : List Char} {offset : Nat}
    (placed : steps.placed offset text) :
    steps.Along
      (delegateTo one nested (lexer.moved steps.deeper steps.further) text (offset + steps.further)
        table)
      (delegateTo other twinNested lexer text offset table) := by
  match nested, twinNested, nestings with
  | none, twinNested, ⟨nothing, carries⟩ => exact along_delegateTo_of_none nothing carries
  | some nested, some twinNested, ⟨along, carries⟩ =>
    let child : Lexer := ⟨table, lexer.depth + 1, offset⟩
    have depth : (lexer.moved steps.deeper steps.further).depth + 1 =
        lexer.depth + 1 + steps.deeper := Nat.add_right_comm _ _ _
    unfold delegateTo
    dsimp only
    rw [depth]
    exact .bind (along_note (.delegating _ _ offset _ (lexer.depth + 1)))
      (fun _ => along_runNested along child belongs (Nat.succ_pos _) placed)
      fun _ => carries_runNested carries child text

theorem along_delegate (nestings : steps.Nestings nested twinNested)
    (belongs : steps.member lexer.table) (target : Target) {text : List Char} {offset : Nat}
    (placed : steps.placed offset text) :
    steps.Along
      (delegate one nested (lexer.moved steps.deeper steps.further) target text
        (offset + steps.further))
      (delegate other twinNested lexer target text offset) := by
  cases text with
  | nil => exact along_pure ()
  | cons c rest =>
    intro run twin runs
    rw [delegate_of_ne_nil (List.cons_ne_nil c rest), delegate_of_ne_nil (List.cons_ne_nil c rest)]
    obtain ⟨found, member⟩ := abreast_resolve target belongs runs
    exact found.bind
      (fun table after same => along_delegateTo nestings (member table after same) placed)
      (carries_delegateTo steps.drifts nestings.carries lexer _ offset)

/-! ### Steps -/

theorem along_enact (nestings : steps.Nestings nested twinNested)
    (belongs : steps.member lexer.table) (deed : Deed)
    (placed : ∀ target text offset, deed = .delegate target text offset →
      steps.placed offset text) :
    steps.Along
      (enact one nested (lexer.moved steps.deeper steps.further)
        (deed.moved steps.deeper steps.further))
      (enact other twinNested lexer deed) := by
  cases deed with
  | note record => exact along_note record
  | emit kind text => exact along_emit kind text
  | fallBack => exact along_count _ fun _ => rfl
  | push state =>
    exact along_changeScan (fun scan => { scan with stack := scan.stack.push state }) fun _ => rfl
  | pop origin => exact along_pop origin
  | delegate target text offset =>
    exact along_delegate nestings belongs target (placed target text offset rfl)

theorem along_enactAll (nestings : steps.Nestings nested twinNested)
    (belongs : steps.member lexer.table) {deeds : List Deed}
    (placed : ∀ target text offset, .delegate target text offset ∈ deeds →
      steps.placed offset text) :
    steps.Along
      (enactAll one nested (lexer.moved steps.deeper steps.further)
        (deeds.map (Deed.moved steps.deeper steps.further)))
      (enactAll other twinNested lexer deeds) := by
  induction deeds with
  | nil => exact along_pure ()
  | cons deed rest ih =>
    have first := along_enact nestings belongs deed fun target text offset same =>
      placed target text offset (same ▸ List.mem_cons_self)
    have later := ih fun target text offset member =>
      placed target text offset (List.mem_cons_of_mem deed member)
    exact first.bind (fun _ => later)
      fun _ => carries_enactAll steps.drifts nestings.carries lexer rest

/-- A step keeps runs in lockstep, or they part. -/
theorem abreast_step (nestings : steps.Nestings nested twinNested)
    (belongs : steps.member lexer.table) {run : Run σ} {twin : Run τ} (runs : steps.Runs run twin)
    (here : ∀ text, twin.scan.ahead = some text →
      steps.placed (lexer.base + twin.scan.cursor) text)
    (unfinished : twin.scan.isDone = false) :
    steps.Abreast (step one nested (lexer.moved steps.deeper steps.further) run)
      (step other twinNested lexer twin) := by
  have same : run.scan.ahead = twin.scan.ahead := by rw [runs.scan]; rfl
  have counted : steps.Runs run.counted twin.counted := by
    refine ⟨?_, runs.worlds⟩
    unfold Run.counted
    rw [runs.scan]
    rfl
  cases ahead : twin.scan.ahead with
  | none =>
    have position : (lexer.moved steps.deeper steps.further).base + run.scan.cursor =
        lexer.base + twin.scan.cursor + steps.further := by
      rw [runs.scan]
      exact Nat.add_right_comm _ _ _
    rw [step_of_ahead_none ahead, step_of_ahead_none (same.trans ahead), position]
    exact .error (.insideCharacter _) runs
  | some text =>
    have some_text : text ≠ [] := Scan.ne_nil_of_ahead ahead unfinished
    have placed := here text ahead
    rw [step_eq_carryOut ahead, step_eq_carryOut (same.trans ahead), runs.scan]
    rcases steps.intends lexer twin.scan text some_text placed with moved | ⟨error, fails, parts⟩
    · rw [moved]
      cases intent : lexer.intent other.options twin.scan text with
      | fail error => exact .error error counted
      | go deeds bytes =>
        have handed (target : Target) (piece : List Char) (offset : Nat)
            (hands : .delegate target piece offset ∈ deeds) : steps.placed offset piece :=
          steps.placement.of_delegate_mem belongs placed intent hands
        exact (along_enactAll nestings belongs handed).bind
          (fun _ => along_changeScan (·.advance bytes) fun _ => rfl)
          (fun _ => carries_changeScan steps.drifts (·.advance bytes)) _ _ counted
    · rw [fails]
      exact .parted (parts twinNested run.world twin.counted runs.worlds)

/-! ### Runs -/

/-- Steps keep runs in lockstep, or they part. -/
theorem abreast_repeatStep (nestings : steps.Nestings nested twinNested)
    (belongs : steps.member lexer.table) (bound : Nat) {run : Run σ} {twin : Run τ}
    (runs : steps.Runs run twin)
    (here : ∀ text, twin.scan.ahead = some text →
      steps.placed (lexer.base + twin.scan.cursor) text) :
    steps.Abreast
      (repeatStep (step one nested (lexer.moved steps.deeper steps.further)) bound run)
      (repeatStep (step other twinNested lexer) bound twin) := by
  have same (run : Run σ) (twin : Run τ) (runs : steps.Runs run twin) :
      run.scan.isDone = twin.scan.isDone := by rw [runs.scan]; rfl
  have carries := carries_step steps.drifts nestings.carries lexer
  induction bound generalizing run twin with
  | zero => exact .ok runs
  | succ bound ih =>
    rw [repeatStep, repeatStep, same run twin runs]
    by_cases done : twin.scan.isDone
    · rw [if_pos done, if_pos done]
      exact .ok runs
    · rw [if_neg done, if_neg done]
      have stepped := abreast_step nestings belongs runs here (Bool.eq_false_iff.mpr done)
      have later (next : Run τ) (ok : step other twinNested lexer twin = .ok () next) :=
        steps.placement.of_step here ok
      generalize step one nested _ run = result, step other twinNested lexer twin = twinResult
        at stepped later
      cases stepped with
      | ok runs => exact ih runs (later _ rfl)
      | error error runs => exact .error error runs
      | parted parts =>
        refine .parted ?_
        cases twinResult with
        | error => exact parts
        | ok _ next => exact steps.keeps parts (carries_repeatStep steps.drifts carries bound next)

/-- A run from the start of a text stays in lockstep, or parts. -/
theorem abreast_driveWith (nestings : steps.Nestings nested twinNested)
    (belongs : steps.member lexer.table) {text : List Char} (placed : steps.placed lexer.base text)
    {world : World σ} {twin : World τ} (worlds : steps.worlds world twin) :
    steps.Abreast
      (driveWith (step one nested (lexer.moved steps.deeper steps.further))
        ⟨.start lexer.table text, world⟩)
      (driveWith (step other twinNested lexer) ⟨.start lexer.table text, twin⟩) := by
  refine abreast_repeatStep nestings belongs _ ⟨rfl, worlds⟩ fun rest ahead => ?_
  cases ahead
  exact placed

variable (steps) in
/-- Nested runs stay in lockstep, at every depth. -/
theorem nestings_nestedRun {levels twinLevels : Nat} (fewer : levels ≤ twinLevels)
    (same : steps.SameLimit → twinLevels = levels) :
    steps.Nestings (nestedRun one levels) (nestedRun other twinLevels) := by
  induction levels generalizing twinLevels with
  | zero =>
    exact ⟨fun limit => same limit ▸ rfl, nestedCarries_nestedRun steps.drifts twinLevels⟩
  | succ levels ih =>
    obtain ⟨twinLevels, rfl⟩ := Nat.exists_eq_add_of_le' (Nat.le_trans (Nat.succ_pos levels) fewer)
    have nestings := ih (Nat.le_of_succ_le_succ fewer) fun limit => Nat.succ_inj.mp (same limit)
    exact ⟨fun child text world twin belongs placed _ worlds =>
      abreast_driveWith nestings belongs placed worlds,
      nestedCarries_nestedRun steps.drifts (twinLevels + 1) _ rfl⟩

/-- Runs from the start of a text stay in lockstep, or part. -/
theorem abreast_drive (belongs : steps.member lexer.table) {text : List Char}
    (placed : steps.placed lexer.base text) {world : World σ} {twin : World τ}
    (worlds : steps.worlds world twin) :
    steps.Abreast
      ((lexer.moved steps.deeper steps.further).drive one ⟨.start lexer.table text, world⟩)
      (lexer.drive other ⟨.start lexer.table text, twin⟩) := by
  have limit := steps.limit
  have fewer : (lexer.moved steps.deeper steps.further).levelsLeft one ≤ lexer.levelsLeft other := by
    show one.options.maxDepth - (lexer.depth + steps.deeper) ≤ other.options.maxDepth - lexer.depth
    omega
  have same (equal : steps.SameLimit) :
      lexer.levelsLeft other = (lexer.moved steps.deeper steps.further).levelsLeft one := by
    unfold Lexer.levelsLeft Lexer.moved
    rw [show one.options.maxDepth = _ from equal, Nat.add_sub_add_right]
  exact abreast_driveWith (steps.nestings_nestedRun fewer same) belongs placed worlds

/-- Runs that never part, neither deeper nor further on than the other, end in the same way. -/
theorem Abreast.ending_eq (level : steps.deeper = 0) (place : steps.further = 0)
    (never : ∀ {error world twin}, ¬ steps.parted error world twin)
    {result : EStateM.Result ScanError (Run σ) α} {twinResult : EStateM.Result ScanError (Run τ) α}
    (abreast : steps.Abreast result twinResult) :
    ending result = ending twinResult ∧ steps.worlds (endOf result).world (endOf twinResult).world := by
  have same {run : Run σ} {twin : Run τ} (runs : steps.Runs run twin) : run.scan = twin.scan :=
    runs.scan.trans (level ▸ twin.scan.deepened_zero)
  cases abreast with
  | ok runs => exact ⟨congrArg (none, ·) (same runs), runs.worlds⟩
  | error error runs =>
    rw [level, place, error.moved_zero]
    exact ⟨congrArg (some error, ·) (same runs), runs.worlds⟩
  | parted parts => exact absurd parts never

/-- Runs in the same world, neither deeper nor further on than the other, end in the same way or have
parted. -/
theorem Abreast.eq_or_parted {engine : Engine σ} {steps : Lockstep engine one}
    (level : steps.deeper = 0) (place : steps.further = 0)
    (same : ∀ {world twin}, steps.worlds world twin → world = twin)
    {result twinResult : EStateM.Result ScanError (Run σ) α} (abreast : steps.Abreast result twinResult) :
    result = twinResult ∨ ∃ error run, result = .error error run ∧
      steps.parted error run.world (endOf twinResult).world := by
  have equal {run twin : Run σ} (runs : steps.Runs run twin) : run = twin := by
    obtain ⟨scan, world⟩ := run
    obtain ⟨twinScan, twinWorld⟩ := twin
    obtain rfl : world = twinWorld := same runs.worlds
    obtain rfl : scan = twinScan := runs.scan.trans (level ▸ twinScan.deepened_zero)
    rfl
  cases abreast with
  | ok runs => exact .inl (congrArg _ (equal runs))
  | error error runs =>
    rw [equal runs, level, place, error.moved_zero]
    exact .inl rfl
  | parted parts => exact .inr ⟨_, _, rfl, parts⟩

end Lockstep

end TableLexer
