/-
**The counters of a run.**

What a run counts is what it tells: the tokens that its sink took, the records of nested runs, and the
steps of which it wrote a record. This also holds of runs that fail, and of those that go on afterwards,
since each counter is moved just when the event is done, and the counters of a nested run are added
however that ends.

* `recounts_step`: a step accounts for what it does.
* `recounts_act`, `accounts_operate`: so do operations on a scan, one or several.
* `maxDepth_le_of_drive`: no run counts one that is deeper than the limit.
* `counters_tell_what_happened`: the counters of an outermost scan at every point of a program.
-/

import TableLexer.Proofs.Scan.Accounts
import TableLexer.Proofs.Scan.Registered

namespace TableLexer

open Step

variable {σ : Type}

/-! ### Parts of a step -/

/-- The deed is one of a behaviour. -/
def Deed.ofBehavior : Deed → Bool
  | .note _ | .fallBack => false
  | _ => true

theorem Step.Site.ofBehavior_of_mem {site : Step.Site} {behavior : Behavior StateId} {deed : Deed}
    (member : deed ∈ site.deeds behavior) : deed.ofBehavior = true := by
  cases behavior with
  | emit | emitAndPush | emitAndPop | delegate =>
    simp only [deeds, List.mem_cons, List.not_mem_nil, or_false] at member
    rcases member with rfl | rfl <;> rfl
  | composite actions =>
    obtain ⟨action, _, same⟩ := List.mem_filterMap.mp member
    cases action with
    | pop | push => cases same; rfl
    | emit | delegate =>
      obtain ⟨_, _, rfl⟩ := Option.map_eq_some_iff.mp same
      rfl

namespace Step

variable {α β : Type} {engine : Engine σ} {depth : Nat}

/-- The part of a step accounts for what it does. -/
def Recounts (engine : Engine σ) (depth : Nat) (part : StepM σ α) (tale : Tale σ) : Prop :=
  ∀ run, Accounts engine depth run (tale run) (ending (part run)).1.toList (endOf (part run))

theorem Recounts.bind {part : StepM σ α} {tale : Tale σ} {rest : α → StepM σ β}
    {restTale : α → Tale σ} (one : Recounts engine depth part tale)
    (other : ∀ a, Recounts engine depth (rest a) (restTale a)) :
    Recounts engine depth (part >>= rest) (taleOfBind part tale restTale) := by
  intro run
  have first := one run
  show Accounts engine depth run (taleOfBind part tale restTale run)
    (ending (EStateM.bind part rest run)).1.toList (endOf (EStateM.bind part rest run))
  unfold taleOfBind EStateM.bind
  generalize part run = result at first
  cases result with
  | ok a middle => exact first.trans (other a middle)
  | error error failed =>
    dsimp only
    rw [List.append_nil]
    exact first

/-- What changes neither the world nor the counters needs no account. -/
theorem recounts_of_same {part : StepM σ α} (world : ∀ run, (endOf (part run)).world = run.world)
    (metrics : ∀ run, (endOf (part run)).scan.metrics = run.scan.metrics)
    (goes_on : ∀ run, (ending (part run)).1.toList.countP ScanError.isStall = 0) :
    Recounts engine depth part fun _ => [] :=
  fun run => .of_same (world run) (metrics run) (goes_on run)

theorem recounts_pop (origin : Nat) :
    Recounts engine depth (pop origin : StepM σ Unit) fun _ => [] := by
  refine recounts_of_same ?_ ?_ ?_ <;>
    · intro run
      unfold pop
      split <;> rfl

/-! ### Tokens -/

section Emit

variable {kind : Kind} {text : List Char} {run : Run σ} {sink : σ} {message : String}

theorem emit_of_ok (some_text : text ≠ [])
    (takes : engine.emitter.emit ⟨kind, String.ofList text⟩ run.world.sink = .ok () sink) :
    emit engine kind text run =
      .ok () ⟨run.scan.count fun metrics => { metrics with tokens := metrics.tokens + 1 },
        { run.world with sink }⟩ := by
  unfold emit
  rw [if_neg (by simpa using some_text)]
  refine (bind_of_ok (?_ : _ = EStateM.Result.ok () (Run.mk run.scan { run.world with sink }))).trans rfl
  rw [takes]

theorem emit_of_error (some_text : text ≠ [])
    (refuses : engine.emitter.emit ⟨kind, String.ofList text⟩ run.world.sink = .error message sink) :
    emit engine kind text run =
      .error (.emit message) ⟨run.scan, { run.world with sink }⟩ := by
  unfold emit
  rw [if_neg (by simpa using some_text)]
  refine bind_eq_error_iff.mpr (.inl ?_)
  rw [refuses]

theorem taleOfEmit_of_ok (skipping : Bool) (some_text : text ≠ [])
    (takes : engine.emitter.emit ⟨kind, String.ofList text⟩ run.world.sink = .ok () sink) :
    taleOfEmit engine skipping kind text run =
      [.offered skipping ⟨kind, String.ofList text⟩ none] := by
  unfold taleOfEmit Emitter.refusal?
  rw [if_neg (by simpa using some_text)]
  dsimp only
  rw [takes]

theorem taleOfEmit_of_error (skipping : Bool) (some_text : text ≠ [])
    (refuses : engine.emitter.emit ⟨kind, String.ofList text⟩ run.world.sink = .error message sink) :
    taleOfEmit engine skipping kind text run =
      [.offered skipping ⟨kind, String.ofList text⟩ (some message)] := by
  unfold taleOfEmit Emitter.refusal?
  rw [if_neg (by simpa using some_text)]
  dsimp only
  rw [refuses]

end Emit

theorem recounts_emit (kind : Kind) (text : List Char) :
    Recounts engine depth (emit engine kind text) (taleOfEmit engine false kind text) := by
  intro run
  by_cases nothing : text = []
  · subst nothing
    exact .refl run
  · cases answer : engine.emitter.emit ⟨kind, String.ofList text⟩ run.world.sink with
    | ok _ sink =>
      rw [emit_of_ok nothing answer, taleOfEmit_of_ok false nothing answer]
      exact .of_recordless rfl rfl rfl rfl rfl (.takes answer .nothing) rfl rfl
    | error message sink =>
      rw [emit_of_error nothing answer, taleOfEmit_of_error false nothing answer]
      exact .of_recordless rfl rfl rfl rfl rfl (.refuses answer .nothing) rfl rfl

/-! ### Delegation -/

theorem recounts_resolve (lexer : Lexer) (target : Target) :
    Recounts engine depth (resolve engine lexer target) (taleOfResolve engine target) := by
  intro run
  cases target with
  | current => exact .refl run
  | named language =>
    have quiet : run.scan.metrics = { run.scan.metrics with
        steps := run.scan.metrics.steps +
          (engine.registry.table run.world.cache language).records.countP Record.tellsStep } := by
      rw [List.countP_eq_zero.mpr fun record member =>
        Bool.eq_false_iff.mp (quiet_of_table member).2.2]
      rfl
    have built {errors : List ScanError} (goes_on : errors.countP ScanError.isStall = 0) :
        Accounts engine depth run (taleOfResolve engine (.named language) run) errors
          { run with world := (run.world.table engine.registry language).2 } :=
      .of_records _ (fun _ member => (quiet_of_table member).1)
        (fun _ member => (quiet_of_table member).2.1) rfl rfl (built_of_table _ _ _) quiet goes_on
    unfold resolve
    dsimp only
    split <;> rename_i answer <;> rw [answer] at built <;> exact built rfl

/-- Nested runs at the depth account for what they do. -/
def NestedRecounts (engine : Engine σ) (depth : Nat) (nested : NestedRun σ) (tales : NestedTale σ) :
    Prop :=
  ∀ (child : Lexer) (text : List Char) (world : World σ), child.depth = depth →
    Accounts engine depth ⟨.start child.table text, world⟩ (tales child text world)
      (ending (nested child text world)).1.toList (endOf (nested child text world))

/-- The account of a nested run is one of the run in which it is nested, once that run is told of. -/
theorem accounts_of_nested {lexer : Lexer} (levels : lexer.depth < engine.options.maxDepth)
    {run ended : Run σ} {text : List Char} {offset : Nat} {table : Table} {tale : List Event}
    {errors : List ScanError}
    (inner : Accounts engine (lexer.depth + 1)
      ⟨.start table text, delegated lexer text offset table run.world⟩ tale errors ended) :
    Accounts engine lexer.depth run
      (.noted (.delegating lexer.table.language (Text.byteLength text) offset table.language
        (lexer.depth + 1)) :: tale) errors
      ⟨run.scan.count (·.absorb ended.scan.metrics (lexer.depth + 1)), ended.world⟩ := by
  let record : Record := .delegating lexer.table.language (Text.byteLength text) offset table.language
    (lexer.depth + 1)
  have depths : depthsOf (.noted record :: tale) = (lexer.depth + 1) :: depthsOf tale := rfl
  have deeper : deepest ((lexer.depth + 1) :: depthsOf tale) =
      max (lexer.depth + 1) (deepest (depthsOf tale)) := rfl
  -- The counters of a scan that starts are 0.
  have tokens : ended.scan.metrics.tokens = tale.countP Event.isTaken :=
    inner.tokens.trans (Nat.zero_add _)
  have fallbacks : ended.scan.metrics.fallbacks = tale.countP Event.isFallback :=
    inner.fallbacks.trans (Nat.zero_add _)
  have delegations : ended.scan.metrics.delegations = (depthsOf tale).length :=
    inner.delegations.trans (Nat.zero_add _)
  have maxDepth : ended.scan.metrics.maxDepth = deepest (depthsOf tale) :=
    inner.maxDepth.trans (Nat.zero_max _)
  have allowed := inner.allowed
  have gradual := inner.gradual
  exact
    { log := by
        rw [inner.log, recordsOf_noted, show (delegated lexer text offset table run.world).log.toList =
          run.world.log.toList ++ [record] from Array.toList_appendList, List.append_assoc]
        rfl
      sink := .noted inner.sink
      built := inner.built
      skipped := inner.skipped
      tokens := congrArg (run.scan.metrics.tokens + ·) tokens
      fallbacks := congrArg (run.scan.metrics.fallbacks + ·) fallbacks
      delegations := by
        rw [depths, List.length_cons, ← delegations]
        rfl
      maxDepth := by
        rw [depths, deeper, ← maxDepth, ← Nat.max_assoc]
        rfl
      allowed := by
        rw [depths, deeper]
        exact Nat.max_le.mpr ⟨levels, allowed⟩
      gradual := by
        rw [depths, deeper, List.length_cons]
        omega
      steps := fun traced proper => by
        have steps := inner.steps traced proper
        show run.scan.metrics.steps + ended.scan.metrics.steps = _
        rw [steps, recordsOf_noted, List.countP_cons_of_neg (by simp [Record.tellsStep, Record.level])]
        show run.scan.metrics.steps + (0 + _) = _
        rw [Nat.zero_add] }

section Steps

variable {nested : Option (NestedRun σ)} {tales : NestedTale σ} {lexer : Lexer}

variable (engine nested tales lexer) in
/-- Where a run may nest deeper, the runs nested in it account for what they do. -/
def NestingsRecount : Prop :=
  ∀ run ∈ nested, lexer.depth < engine.options.maxDepth ∧
    NestedRecounts engine (lexer.depth + 1) run tales

theorem recounts_delegateTo (nestings : NestingsRecount engine nested tales lexer) (text : List Char)
    (offset : Nat) (table : Table) :
    Recounts engine lexer.depth (delegateTo engine nested lexer text offset table)
      (taleOfDelegateTo nested tales lexer text offset table) := by
  intro run
  cases nested with
  | none => exact .of_same rfl rfl rfl
  | some nested =>
    obtain ⟨levels, recounts⟩ := nestings nested rfl
    have inner := recounts ⟨table, lexer.depth + 1, offset⟩ text
      (delegated lexer text offset table run.world) rfl
    show Accounts engine lexer.depth run _
      (ending (runNested nested ⟨table, lexer.depth + 1, offset⟩ text
        ⟨run.scan, delegated lexer text offset table run.world⟩)).1.toList
      (endOf (runNested nested ⟨table, lexer.depth + 1, offset⟩ text
        ⟨run.scan, delegated lexer text offset table run.world⟩))
    unfold runNested
    dsimp only
    generalize nested _ text (delegated lexer text offset table run.world) = result at inner
    cases result <;> exact accounts_of_nested levels inner

/-! ### Steps -/

theorem recounts_deed (nestings : NestingsRecount engine nested tales lexer) {deed : Deed}
    (proper : deed.ofBehavior = true) :
    Recounts engine lexer.depth (enact engine nested lexer deed)
      (taleOfDeed engine nested tales lexer deed) := by
  cases deed with
  | note | fallBack => cases proper
  | emit kind text => exact recounts_emit kind text
  | push state => exact recounts_of_same (fun _ => rfl) (fun _ => rfl) fun _ => rfl
  | pop origin => exact recounts_pop origin
  | delegate target text offset =>
    cases text with
    | nil => exact fun run => .refl run
    | cons c rest =>
      rw [enact_delegate (List.cons_ne_nil c rest)]
      exact .bind (recounts_resolve lexer target)
        (recounts_delegateTo nestings (c :: rest) offset)

theorem recounts_deeds (nestings : NestingsRecount engine nested tales lexer) {deeds : List Deed}
    (proper : ∀ deed ∈ deeds, deed.ofBehavior = true) :
    Recounts engine lexer.depth (enactAll engine nested lexer deeds)
      (taleOfDeeds engine nested tales lexer deeds) := by
  induction deeds with
  | nil => exact fun run => .refl run
  | cons deed rest ih =>
    exact .bind (recounts_deed nestings (proper deed List.mem_cons_self)) fun _ =>
      ih fun other member => proper other (List.mem_cons_of_mem deed member)

variable (engine nested tales lexer) in
/-- The account of a step starts with the step itself, and with the record of the choice of a rule if
choices are traced. -/
theorem accounts_of_selected (run : Run σ) (text : List Char) (selection : Selection) :
    ∃ here, Accounts engine lexer.depth run
        (taleOfDeeds engine nested tales lexer (lexer.told engine.options run.scan text selection)
          run.counted) [] here ∧
      enactAll engine nested lexer (lexer.told engine.options run.scan text selection) run.counted =
        .ok () here := by
  unfold Lexer.told
  by_cases traced : engine.options.trace
  · rw [if_pos traced]
    let record : Record := .selected lexer.table.language lexer.depth
      (lexer.table.state run.scan.stack.top).name (lexer.base + run.scan.cursor) selection.index
      selection.rule.source (lexer.site run.scan text selection).whole
    refine ⟨{ run.counted with world := run.world.addRecords [record] }, ?_, rfl⟩
    exact .of_records [record] (List.forall_mem_singleton.mpr rfl)
      (List.forall_mem_singleton.mpr rfl) rfl rfl (List.append_nil _).symm rfl rfl
  · rw [if_neg traced]
    refine ⟨run.counted, ?_, rfl⟩
    exact { Accounts.refl run with steps := fun on => absurd on traced }

theorem taleOfDeeds_append (deeds more : List Deed) {run here : Run σ}
    (done : enactAll engine nested lexer deeds run = .ok () here) :
    taleOfDeeds engine nested tales lexer (deeds ++ more) run =
      taleOfDeeds engine nested tales lexer deeds run ++
        taleOfDeeds engine nested tales lexer more here := by
  induction deeds generalizing run with
  | nil => cases done; rfl
  | cons deed rest ih =>
    obtain ⟨_, middle, first, later⟩ := bind_eq_ok_iff.mp done
    rw [List.cons_append, taleOfDeeds, taleOfDeeds]
    unfold taleOfBind
    rw [first]
    dsimp only
    rw [ih later, List.append_assoc]

/-- A step that chooses a rule accounts for what it does. -/
theorem accounts_of_rule (nestings : NestingsRecount engine nested tales lexer) {run : Run σ}
    {text : List Char} (selection : Selection) :
    let deeds := lexer.told engine.options run.scan text selection ++
      (lexer.site run.scan text selection).deeds selection.rule.behavior
    let result := (Intent.go deeds selection.found.length).carryOut engine nested lexer run.counted
    Accounts engine lexer.depth run (taleOfDeeds engine nested tales lexer deeds run.counted)
      (ending result).1.toList (endOf result) := by
  intro deeds result
  obtain ⟨here, first, told⟩ :=
    accounts_of_selected engine nested tales lexer run text selection
  have proper : ∀ deed ∈ (lexer.site run.scan text selection).deeds selection.rule.behavior,
      deed.ofBehavior = true := fun _ member => Site.ofBehavior_of_mem member
  have later := recounts_deeds nestings proper here
  have all : enactAll engine nested lexer deeds run.counted =
      enactAll engine nested lexer
        ((lexer.site run.scan text selection).deeds selection.rule.behavior) here := by
    rw [show deeds = _ ++ _ from rfl, enactAll_append, bind_of_ok told]
  have accounts := first.trans later
  rw [← taleOfDeeds_append _ _ told, ← all] at accounts
  show Accounts _ _ _ _ (ending (EStateM.bind _ _ run.counted)).1.toList
    (endOf (EStateM.bind _ _ run.counted))
  unfold EStateM.bind
  generalize enactAll engine nested lexer deeds run.counted = ended at accounts
  cases ended with
  | ok _ after => exact accounts.changed rfl rfl
  | error error after => exact accounts

/-- A step that skips a character accounts for what it does. -/
theorem accounts_of_skip {run : Run σ} (c : Char) :
    let result := (Intent.go [.note (.skipped lexer.table.language (lexer.base + run.scan.cursor)
        (lexer.table.state run.scan.stack.top).name [c]), .emit .error [c], .fallBack]
      c.utf8Size).carryOut engine nested lexer run.counted
    Accounts engine lexer.depth run (taleOfSkip engine lexer run.scan c run) (ending result).1.toList
      (endOf result) := by
  intro result
  let record : Record := .skipped lexer.table.language (lexer.base + run.scan.cursor)
    (lexer.table.state run.scan.stack.top).name [c]
  let noted : Run σ := ⟨run.counted.scan, run.world.addRecords [record]⟩
  have result_eq : result = ((emit engine .error [c] >>= fun _ => do
      count fun metrics => { metrics with fallbacks := metrics.fallbacks + 1 }
      changeScan (·.advance c.utf8Size)) : StepM σ Unit) noted := by
    show (Intent.carryOut _ _ _ _ : StepM σ Unit) _ = _
    simp only [Intent.carryOut, enactAll, enact, bind_assoc, pure_bind]
    rfl
  unfold taleOfSkip
  cases answer : engine.emitter.emit ⟨.error, String.ofList [c]⟩ run.world.sink with
  | ok _ sink =>
    have sent : emit engine .error [c] noted =
        .ok () ⟨noted.scan.count fun metrics => { metrics with tokens := metrics.tokens + 1 },
          { noted.world with sink }⟩ := emit_of_ok (List.cons_ne_nil c []) answer
    rw [taleOfEmit_of_ok true (List.cons_ne_nil c []) answer, result_eq, bind_of_ok sent]
    exact .of_skipped rfl rfl (.takes answer .nothing) rfl rfl
  | error message sink =>
    have refused : emit engine .error [c] noted =
        .error (.emit message) ⟨noted.scan, { noted.world with sink }⟩ :=
      emit_of_error (List.cons_ne_nil c []) answer
    rw [taleOfEmit_of_error true (List.cons_ne_nil c []) answer, result_eq,
      bind_eq_error_iff.mpr (.inl refused)]
    exact .of_skipped rfl rfl (.refuses answer .nothing) rfl rfl

/-- A step accounts for what it does. -/
theorem recounts_step (nestings : NestingsRecount engine nested tales lexer) :
    Recounts engine lexer.depth (step engine nested lexer) (taleOfStep engine nested tales lexer) := by
  intro run
  unfold taleOfStep
  cases ahead : run.scan.ahead with
  | none =>
    rw [step_of_ahead_none ahead]
    exact { Accounts.refl run with steps := fun _ proper => nomatch proper _ List.mem_cons_self }
  | some text =>
    rw [step_eq_carryOut ahead]
    unfold Lexer.intent
    dsimp only
    cases (lexer.table.state run.scan.stack.top).select text with
    | some selection => exact accounts_of_rule nestings selection
    | none =>
      dsimp only
      cases engine.options.stall with
      | strict => exact { Accounts.refl run with steps := fun _ _ => rfl }
      | lenient =>
        cases text with
        | nil => exact { Accounts.refl run with steps := fun _ proper => nomatch proper _ List.mem_cons_self }
        | cons c rest => exact accounts_of_skip c

/-! ### Runs -/

theorem recounts_repeat {step : StepM σ Unit} {tale : Tale σ}
    (recounts : Recounts engine depth step tale) (bound : Nat) :
    Recounts engine depth (repeatStep step bound) (taleOfRepeat step tale bound) := by
  induction bound with
  | zero => exact fun run => .refl run
  | succ bound ih =>
    intro run
    rw [repeatStep, taleOfRepeat]
    by_cases done : run.scan.isDone
    · rw [if_pos done, if_pos done]
      exact .refl run
    · rw [if_neg done, if_neg done]
      have both := recounts.bind (fun _ => ih) run
      cases stepped : step run with
      | ok _ next =>
        rw [bind_of_ok stepped] at both
        exact both
      | error error failed =>
        rw [bind_eq_error_iff.mpr (.inl stepped)] at both
        exact both

theorem recounts_drive {step : StepM σ Unit} {tale : Tale σ}
    (recounts : Recounts engine depth step tale) :
    Recounts engine depth (driveWith step) (taleOfDrive step tale) :=
  fun run => recounts_repeat recounts _ run

end Steps

/-- Nested runs account for what they do, at every depth. -/
theorem nestings_recount (engine : Engine σ) {levels : Nat} {lexer : Lexer}
    (room : 0 < levels → lexer.depth + levels ≤ engine.options.maxDepth) :
    NestingsRecount engine (nestedRun engine levels) (nestedTale engine levels) lexer := by
  induction levels generalizing lexer with
  | zero => exact nofun
  | succ levels ih =>
    rintro run nested
    cases nested
    have levels_left := room (Nat.succ_pos levels)
    refine ⟨by omega, fun child text world deeper => ?_⟩
    have recounts : Recounts engine child.depth (step engine (nestedRun engine levels) child)
        (taleOfStep engine (nestedRun engine levels) (nestedTale engine levels) child) :=
      recounts_step (ih fun _ => by omega)
    rw [← deeper]
    exact recounts_drive recounts ⟨.start child.table text, world⟩

end Step

section Programs

variable (engine : Engine σ) (lexer : Lexer)

theorem recounts_lexerStep : Recounts engine lexer.depth (lexer.step engine) (lexer.stepTale engine) := by
  have room : 0 < lexer.levelsLeft engine →
      lexer.depth + lexer.levelsLeft engine ≤ engine.options.maxDepth := by
    unfold Lexer.levelsLeft
    omega
  exact recounts_step (nestings_recount engine room)

/-- An operation on a scan accounts for what it does. -/
theorem recounts_act (operation : Operation) :
    Recounts engine lexer.depth (operation.act engine lexer) (lexer.operationTale engine operation) := by
  cases operation with
  | step => exact recounts_lexerStep engine lexer
  | drive => exact recounts_drive (recounts_lexerStep engine lexer)

/-- Operations on a scan, one after another, account for what they do. -/
theorem accounts_operate (program : List Operation) (run : Run σ) :
    Accounts engine lexer.depth run (lexer.tale engine program run)
      (lexer.operate engine program run).1 (lexer.operate engine program run).2 := by
  induction program generalizing run with
  | nil => exact .refl run
  | cons operation rest ih =>
    exact (recounts_act engine lexer operation run).trans (ih (endOf (operation.act engine lexer run)))

end Programs

theorem Step.scan_ending {α : Type} (result : EStateM.Result ScanError (Run σ) α) :
    (ending result).2 = (endOf result).scan := by
  cases result <;> rfl

/-- A run never counts a nested run that is deeper than the limit allows. -/
theorem maxDepth_le_of_drive (engine : Engine σ) (lexer : Lexer) (text : List Char) (world : World σ) :
    (ending (lexer.drive engine ⟨.start lexer.table text, world⟩)).2.metrics.maxDepth ≤
      engine.options.maxDepth := by
  have accounts := recounts_act engine lexer .drive ⟨.start lexer.table text, world⟩
  have counted := accounts.maxDepth.trans (Nat.zero_max _)
  rw [scan_ending]
  exact Nat.le_trans (Nat.le_of_eq counted) accounts.allowed

/-- The counters say what a tale and the errors of operations say. -/
structure Metrics.Tell (metrics : Metrics) (options : Options) (tale : List Event)
    (errors : List ScanError) : Prop where
  tokens : metrics.tokens = tale.countP Event.isTaken
  fallbacks : metrics.fallbacks = tale.countP Event.isFallback
  delegations : metrics.delegations = (depthsOf tale).length
  maxDepth : metrics.maxDepth = deepest (depthsOf tale)
  gradual : metrics.maxDepth ≤ metrics.delegations
  allowed : metrics.maxDepth ≤ options.maxDepth
  steps : options.trace = true → metrics.steps =
    (recordsOf tale).countP (·.level == .trace) + (recordsOf tale).countP (·.level == .warn) +
      errors.countP ScanError.isStall

theorem countP_tellsStep (records : List Record) :
    records.countP Record.tellsStep =
      records.countP (·.level == .trace) + records.countP (·.level == .warn) := by
  induction records with
  | nil => rfl
  | cons record rest ih =>
    have here : (if record.tellsStep then 1 else 0) =
        (if record.level == .trace then 1 else 0) + if record.level == .warn then 1 else 0 := by
      cases record <;> rfl
    rw [List.countP_cons, List.countP_cons, List.countP_cons, ih, here]
    omega

/-- After any operations on an outermost scan, of which some may have failed, the counters tell what
happened: how many tokens the sink took, how many of them for characters that no rule covers, how many
nested runs there were, how deep they were, and, where choices are traced, how many steps: those with a
record and those that stalled. -/
theorem counters_tell_what_happened (engine : Engine σ) (table : Table) (text : List Char)
    (world : World σ) (program : List Operation) :
    let lexer : Lexer := { table }
    let start : Run σ := ⟨.start table text, world⟩
    let tale := lexer.tale engine program start
    let errors := (lexer.operate engine program start).1
    let last := (lexer.operate engine program start).2
    (∀ error ∈ errors, error.isMisuse = false) →
      last.world.log.toList = world.log.toList ++ recordsOf tale ∧
      engine.emitter.Hears world.sink tale last.world.sink ∧
      tale.filterMap Event.skipping? = (recordsOf tale).filterMap Record.skipped? ∧
      last.scan.metrics.Tell engine.options tale errors := by
  intro lexer start tale errors last proper
  have accounts : Accounts engine 0 start tale errors last := accounts_operate engine lexer program start
  have delegations : last.scan.metrics.delegations = (depthsOf tale).length :=
    accounts.delegations.trans (Nat.zero_add _)
  have maxDepth : last.scan.metrics.maxDepth = deepest (depthsOf tale) :=
    accounts.maxDepth.trans (Nat.zero_max _)
  refine ⟨accounts.log, accounts.sink, accounts.skipped, ?_⟩
  exact
    { tokens := accounts.tokens.trans (Nat.zero_add _)
      fallbacks := accounts.fallbacks.trans (Nat.zero_add _)
      delegations := delegations
      maxDepth := maxDepth
      gradual := by
        rw [delegations, maxDepth, ← Nat.zero_add (depthsOf tale).length]
        exact accounts.gradual
      allowed := by
        rw [maxDepth]
        exact accounts.allowed
      steps := fun traced => by
        rw [accounts.steps traced proper, countP_tellsStep]
        exact Nat.zero_add _ }

theorem counters_tell_what_happened_of_sample :
    ∃ table, Sample.numbered.build = .ok table ∧
      let engine : Engine Collector := .collecting Sample.registry { trace := true }
      let lexer : Lexer := { table }
      let start : Run Collector := ⟨.start table "12abc".toList, { sink := {} }⟩
      let tale := lexer.tale engine [.drive, .step] start
      let errors := (lexer.operate engine [.drive, .step] start).1
      let last := (lexer.operate engine [.drive, .step] start).2
      errors = [.stall 4 rootName, .stall 4 rootName] ∧
        last.scan.metrics = { steps := 8, tokens := 6, delegations := 2, maxDepth := 1 } ∧
        engine.emitter.Hears {} tale last.world.sink ∧
        last.scan.metrics.Tell engine.options tale errors := by
  have checked : (Sample.numbered.build.toOption.any fun table =>
      let engine : Engine Collector := .collecting Sample.registry { trace := true }
      let lexer : Lexer := { table }
      let ended := lexer.operate engine [.drive, .step]
        ⟨.start table "12abc".toList, { sink := {} }⟩
      ended.1 == [.stall 4 rootName, .stall 4 rootName] &&
        ended.2.scan.metrics == { steps := 8, tokens := 6, delegations := 2, maxDepth := 1 }) = true := by
    decide +kernel
  cases build : Sample.numbered.build with
  | error => rw [build] at checked; cases checked
  | ok table =>
    rw [build] at checked
    obtain ⟨stalls, metrics⟩ := (Bool.and_eq_true _ _).mp checked
    have stalls := eq_of_beq stalls
    obtain ⟨_, hears, _, tell⟩ := counters_tell_what_happened
      (.collecting Sample.registry { trace := true }) table "12abc".toList { sink := {} } [.drive, .step]
      (by rw [stalls]; decide)
    exact ⟨table, rfl, stalls, eq_of_beq metrics, hears, tell⟩

end TableLexer
