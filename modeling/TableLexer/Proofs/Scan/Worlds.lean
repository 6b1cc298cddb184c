/-
**How a run changes the world.**

The parts of a step change the world in three ways: they write records, offer tokens to the sink and look
tables up. A relation between worlds that is kept by these three holds between the world before a step
and the one after it, and between those before and after a run, whether it succeeds or fails.

* `carries_step`: from one deed to a step.
* `nestedCarries_nestedRun`, `carries_drive`: from steps to runs, at every depth.
* `World.drift_of_table`: what look-ups keep of a cache is kept.
* `drift_builtFrom`: the tables built stay those of the registry.
-/

import TableLexer.Proofs.Scan.Deeds
import TableLexer.Proofs.Scan.Registered

namespace TableLexer

open Step

variable {σ : Type}

/-- The sink once a token was offered to it, whether it took the token or refused it. -/
def Emitter.after (emitter : Emitter σ) (token : Token) (sink : σ) : σ :=
  match emitter.emit token sink with
  | .ok _ sink | .error _ sink => sink

/-- The relation holds between a world and all that it is changed to. -/
structure World.Drift (engine : Engine σ) (drift : World σ → World σ → Prop) : Prop where
  refl : ∀ world, drift world world
  trans : ∀ {first second third}, drift first second → drift second third → drift first third
  note : ∀ world records, drift world (world.addRecords records)
  offer : ∀ world token, drift world { world with sink := engine.emitter.after token world.sink }
  lookUp : ∀ world name, drift world (world.table engine.registry name).2

/-- Nothing at all may be said of the worlds. -/
theorem World.drift_trivial (engine : Engine σ) : World.Drift engine fun _ _ => True :=
  ⟨fun _ => trivial, fun _ _ => trivial, fun _ _ => trivial, fun _ _ => trivial, fun _ _ => trivial⟩

namespace Step

variable {α β : Type} {engine : Engine σ} {drift : World σ → World σ → Prop}

/-- The relation holds between the worlds before and after the part of a step. -/
def Carries (drift : World σ → World σ → Prop) (part : StepM σ α) : Prop :=
  ∀ run, drift run.world (endOf (part run)).world

/-- The relation holds between the worlds before and after a nested run. -/
def NestedCarries (drift : World σ → World σ → Prop) (nested : NestedRun σ) : Prop :=
  ∀ child text world, drift world (endOf (nested child text world)).world

/-- What leaves the world alone carries the relation. -/
theorem carries_of_same (drifts : World.Drift engine drift) {part : StepM σ α}
    (same : ∀ run, (endOf (part run)).world = run.world) : Carries drift part := by
  intro run
  rw [same run]
  exact drifts.refl run.world

theorem carries_pure (drifts : World.Drift engine drift) (a : α) :
    Carries drift (pure a : StepM σ α) :=
  carries_of_same drifts fun _ => rfl

theorem carries_throw (drifts : World.Drift engine drift) (error : ScanError) :
    Carries drift (throw error : StepM σ α) :=
  carries_of_same drifts fun _ => rfl

theorem carries_changeScan (drifts : World.Drift engine drift) (change : Scan → Scan) :
    Carries drift (changeScan change : StepM σ Unit) :=
  carries_of_same drifts fun _ => rfl

theorem Carries.bind (drifts : World.Drift engine drift) {part : StepM σ α} {rest : α → StepM σ β}
    (one : Carries drift part) (other : ∀ a, Carries drift (rest a)) :
    Carries drift (part >>= rest) := by
  intro run
  have first := one run
  show drift run.world (endOf (EStateM.bind part rest run)).world
  unfold EStateM.bind
  generalize part run = result at first
  cases result with
  | ok a middle => exact drifts.trans first (other a middle)
  | error => exact first

/-- What leaves the world alone may follow. -/
theorem world_of_bind {part : StepM σ α} {rest : α → StepM σ β}
    (quiet : ∀ a run, (endOf (rest a run)).world = run.world) (run : Run σ) :
    (endOf ((part >>= rest) run)).world = (endOf (part run)).world := by
  show (endOf (EStateM.bind part rest run)).world = _
  unfold EStateM.bind
  cases part run with
  | ok a middle => exact quiet a middle
  | error => rfl

/-- To send a token changes nothing of the world but the sink. -/
theorem world_of_emit (engine : Engine σ) (kind : Kind) {text : List Char} (some_text : text ≠ [])
    (run : Run σ) :
    (endOf (emit engine kind text run)).world =
      { run.world with
        sink := engine.emitter.after ⟨kind, String.ofList text⟩ run.world.sink } := by
  unfold emit
  rw [if_neg (by simpa using some_text)]
  refine (world_of_bind (fun _ _ => rfl) run).trans ?_
  unfold Emitter.after
  cases engine.emitter.emit ⟨kind, String.ofList text⟩ run.world.sink <;> rfl

theorem carries_emit (drifts : World.Drift engine drift) (kind : Kind) (text : List Char) :
    Carries drift (emit engine kind text) := by
  intro run
  by_cases nothing : text = []
  · subst nothing
    exact drifts.refl run.world
  · rw [world_of_emit engine kind nothing]
    exact drifts.offer run.world ⟨kind, String.ofList text⟩

theorem carries_pop (drifts : World.Drift engine drift) (origin : Nat) :
    Carries drift (pop origin : StepM σ Unit) :=
  carries_of_same drifts fun run => by
    unfold pop
    split <;> rfl

theorem carries_resolve (drifts : World.Drift engine drift) (lexer : Lexer) (target : Target) :
    Carries drift (resolve engine lexer target) := by
  cases target with
  | current => exact carries_pure drifts _
  | named language =>
    intro run
    have found := drifts.lookUp run.world language
    unfold resolve
    dsimp only
    split <;> rename_i answer <;> rw [answer] at found <;> exact found

theorem carries_runNested {nested : NestedRun σ} (carries : NestedCarries drift nested) (child : Lexer)
    (text : List Char) : Carries drift (runNested nested child text) := by
  intro run
  have inner := carries child text run.world
  unfold runNested
  dsimp only
  generalize nested child text run.world = result at inner
  cases result <;> exact inner

variable {nested : Option (NestedRun σ)}

theorem carries_delegateTo (drifts : World.Drift engine drift)
    (carries : ∀ run ∈ nested, NestedCarries drift run) (lexer : Lexer) (text : List Char)
    (offset : Nat) (table : Table) :
    Carries drift (delegateTo engine nested lexer text offset table) := by
  cases nested with
  | none => exact carries_throw drifts _
  | some nested =>
    exact .bind drifts (fun run => drifts.note run.world _) fun _ =>
      carries_runNested (carries nested rfl) _ text

theorem carries_delegate (drifts : World.Drift engine drift)
    (carries : ∀ run ∈ nested, NestedCarries drift run) (lexer : Lexer) (target : Target)
    (text : List Char) (offset : Nat) :
    Carries drift (delegate engine nested lexer target text offset) := by
  cases text with
  | nil => exact carries_pure drifts ()
  | cons c rest =>
    rw [delegate_of_ne_nil (List.cons_ne_nil c rest)]
    exact .bind drifts (carries_resolve drifts lexer target)
      (carries_delegateTo drifts carries lexer _ offset)

theorem carries_enact (drifts : World.Drift engine drift)
    (carries : ∀ run ∈ nested, NestedCarries drift run) (lexer : Lexer) (deed : Deed) :
    Carries drift (enact engine nested lexer deed) := by
  cases deed with
  | note record => exact fun run => drifts.note run.world [record]
  | emit kind text => exact carries_emit drifts kind text
  | fallBack => exact carries_of_same drifts fun _ => rfl
  | push state => exact carries_of_same drifts fun _ => rfl
  | pop origin => exact carries_pop drifts origin
  | delegate target text offset => exact carries_delegate drifts carries lexer target text offset

theorem carries_enactAll (drifts : World.Drift engine drift)
    (carries : ∀ run ∈ nested, NestedCarries drift run) (lexer : Lexer) (deeds : List Deed) :
    Carries drift (enactAll engine nested lexer deeds) := by
  induction deeds with
  | nil => exact carries_pure drifts ()
  | cons deed rest ih => exact .bind drifts (carries_enact drifts carries lexer deed) fun _ => ih

theorem carries_carryOut (drifts : World.Drift engine drift)
    (carries : ∀ run ∈ nested, NestedCarries drift run) (lexer : Lexer) (intent : Intent) :
    Carries drift (intent.carryOut engine nested lexer) := by
  cases intent with
  | fail error => exact carries_throw drifts error
  | go deeds bytes =>
    exact .bind drifts (carries_enactAll drifts carries lexer deeds) fun _ =>
      carries_changeScan drifts _

theorem carries_step (drifts : World.Drift engine drift)
    (carries : ∀ run ∈ nested, NestedCarries drift run) (lexer : Lexer) :
    Carries drift (step engine nested lexer) := by
  intro run
  cases ahead : run.scan.ahead with
  | none =>
    rw [step_of_ahead_none ahead]
    exact drifts.refl run.world
  | some text =>
    rw [step_eq_carryOut ahead]
    exact carries_carryOut drifts carries lexer _ run.counted

/-! ### Runs -/

theorem carries_repeatStep (drifts : World.Drift engine drift) {step : StepM σ Unit}
    (carries : Carries drift step) (bound : Nat) : Carries drift (repeatStep step bound) := by
  induction bound with
  | zero => exact fun run => drifts.refl run.world
  | succ bound ih =>
    intro run
    rw [repeatStep]
    split
    · exact drifts.refl run.world
    · have first := carries run
      generalize step run = result at first
      cases result with
      | ok _ next => exact drifts.trans first (ih next)
      | error => exact first

/-- Nested runs carry the relation, at every depth. -/
theorem nestedCarries_nestedRun (drifts : World.Drift engine drift) (levels : Nat) :
    ∀ run ∈ nestedRun engine levels, NestedCarries drift run := by
  induction levels with
  | zero => simp [nestedRun]
  | succ levels ih =>
    intro run nested
    cases nested
    exact fun child text world =>
      carries_repeatStep drifts (carries_step drifts ih child) _ ⟨.start child.table text, world⟩

end Step

variable {engine : Engine σ} {drift : World σ → World σ → Prop}

theorem carries_lexerStep (drifts : World.Drift engine drift) (lexer : Lexer) :
    Carries drift (lexer.step engine) :=
  carries_step drifts (nestedCarries_nestedRun drifts _) lexer

theorem carries_drive (drifts : World.Drift engine drift) (lexer : Lexer) :
    Carries drift (lexer.drive engine) :=
  fun run => carries_repeatStep drifts (carries_lexerStep drifts lexer) _ run

/-- What look-ups keep of a cache, runs keep of it too. -/
theorem World.drift_of_table (engine : Engine σ) {kept : TableCache → Prop}
    (keeps : ∀ {cache} name, kept cache → kept (engine.registry.table cache name).cache) :
    World.Drift engine fun before after => kept before.cache → kept after.cache where
  refl _ := id
  trans one other here := other (one here)
  note _ _ := id
  offer _ _ := id
  lookUp _ name := keeps name

/-- The tables that were built stay those that the registry describes. -/
theorem drift_builtFrom (engine : Engine σ) :
    World.Drift engine fun before after =>
      before.cache.BuiltFrom engine.registry → after.cache.BuiltFrom engine.registry :=
  World.drift_of_table engine fun name built => (built.table name).1

end TableLexer
