/-
**What a run accounts for.**

Between two states of a run lies a tale. The log has the records of the tale, the sink has heard its
tokens, and the counters are moved by as much as happened in it.

* `Accounts`: two states, the tale between them, and the errors with which parts of it ended.
* `Accounts.of_recordless`, `Accounts.of_records`, `Accounts.of_skipped`: what single parts of a step
  account for.
* `Accounts.trans`: one part after another, also after a failure.
-/

import TableLexer.Proofs.Language.Memo
import TableLexer.Proofs.Scan.Tale

namespace TableLexer

variable {σ : Type}

/-! ### What records tell -/

namespace Record

/-- The depth of the nested run that the record tells of. -/
def depth? : Record → Option Nat
  | delegating _ _ _ _ depth => some depth
  | _ => none

/-- The token for the character that the record tells is skipped. -/
def skipped? : Record → Option Token
  | skipped _ _ _ text => some ⟨.error, String.ofList text⟩
  | _ => none

/-- The record tells of the choice of a rule, or of a character that is skipped. -/
def tellsStep (record : Record) : Bool := record.level == .trace || record.level == .warn

/-- The key under which the record tells that a table is built. -/
def built? : Record → Option String
  | building key => some key
  | _ => none

end Record

/-- The depths of the nested runs that the records of a tale tell of. -/
def depthsOf (tale : List Event) : List Nat := (recordsOf tale).filterMap Record.depth?

/-- The greatest of the depths, 0 if there are none. -/
def deepest (depths : List Nat) : Nat := depths.foldr max 0

theorem deepest_append (depths more : List Nat) :
    deepest (depths ++ more) = max (deepest depths) (deepest more) := by
  induction depths with
  | nil => exact (Nat.zero_max _).symm
  | cons depth rest ih =>
    show max depth (deepest (rest ++ more)) = max (max depth (deepest rest)) (deepest more)
    rw [ih, Nat.max_assoc]

theorem depthsOf_append (tale more : List Event) :
    depthsOf (tale ++ more) = depthsOf tale ++ depthsOf more := by
  unfold depthsOf
  rw [recordsOf_append, List.filterMap_append]

/-- A look-up tells of no nested run, of no character that is skipped and of no step. -/
theorem quiet_of_table {registry : Registry} {cache : TableCache} {name : String} {record : Record}
    (member : record ∈ (registry.table cache name).records) :
    record.depth? = none ∧ record.skipped? = none ∧ record.tellsStep = false := by
  unfold Registry.table at member
  cases found : registry.find? name with
  | none => rw [found] at member; cases member
  | some language =>
    rw [found] at member
    dsimp only at member
    cases kept : cache.slot? language.name with
    | some slot => rw [TableCache.getOrBuild_of_some language kept] at member; cases member
    | none =>
      rw [TableCache.getOrBuild_of_none language kept] at member
      unfold TableCache.buildRecords at member
      split at member <;>
        · simp only [List.mem_cons, List.not_mem_nil, or_false] at member
          rcases member with rfl | rfl <;> exact ⟨rfl, rfl, rfl⟩

/-- A look-up tells which table it builds. -/
theorem built_of_table (registry : Registry) (cache : TableCache) (name : String) :
    (registry.table cache name).cache.slots.map Slot.key =
      cache.slots.map Slot.key ++ (registry.table cache name).records.filterMap Record.built? := by
  unfold Registry.table
  cases registry.find? name with
  | none => exact (List.append_nil _).symm
  | some language =>
    dsimp only
    cases kept : cache.slot? language.name with
    | some slot =>
      rw [TableCache.getOrBuild_of_some language kept]
      exact (List.append_nil _).symm
    | none =>
      rw [TableCache.getOrBuild_of_none language kept, List.map_append]
      refine congrArg (_ ++ ·) ?_
      unfold TableCache.buildRecords
      cases language.build <;> rfl

/-! ### Accounts -/

/-- What lies between two states of a run at the given depth is the tale: the log has its records, the
sink has heard its tokens, the tables are built of which it tells, and the counters have counted its
events. The errors are those with which parts of the run ended. -/
structure Accounts (engine : Engine σ) (depth : Nat) (run : Run σ) (tale : List Event)
    (errors : List ScanError) (after : Run σ) : Prop where
  log : after.world.log.toList = run.world.log.toList ++ recordsOf tale
  sink : engine.emitter.Hears run.world.sink tale after.world.sink
  built : after.world.cache.slots.map Slot.key =
    run.world.cache.slots.map Slot.key ++ (recordsOf tale).filterMap Record.built?
  skipped : tale.filterMap Event.skipping? = (recordsOf tale).filterMap Record.skipped?
  tokens : after.scan.metrics.tokens = run.scan.metrics.tokens + tale.countP Event.isTaken
  fallbacks : after.scan.metrics.fallbacks =
    run.scan.metrics.fallbacks + tale.countP Event.isFallback
  delegations : after.scan.metrics.delegations =
    run.scan.metrics.delegations + (depthsOf tale).length
  maxDepth : after.scan.metrics.maxDepth = max run.scan.metrics.maxDepth (deepest (depthsOf tale))
  /-- No run is deeper than allowed. -/
  allowed : deepest (depthsOf tale) ≤ engine.options.maxDepth
  /-- A run is one level deeper than the run in which it is nested. -/
  gradual : deepest (depthsOf tale) ≤ depth + (depthsOf tale).length
  /-- A step that ends with a stall writes no record. -/
  steps : engine.options.trace = true → (∀ error ∈ errors, error.isMisuse = false) →
    after.scan.metrics.steps = run.scan.metrics.steps +
      ((recordsOf tale).countP Record.tellsStep + errors.countP ScanError.isStall)

namespace Accounts

variable {engine : Engine σ} {depth : Nat} {run middle after : Run σ} {tale more : List Event}
  {errors later : List ScanError}

/-- An account of tokens for rules, and of nothing else. -/
theorem of_recordless (recordless : recordsOf tale = [])
    (covered : tale.filterMap Event.skipping? = []) (none_skipped : tale.countP Event.isFallback = 0)
    (log : after.world.log = run.world.log) (cache : after.world.cache = run.world.cache)
    (sink : engine.emitter.Hears run.world.sink tale after.world.sink)
    (metrics : after.scan.metrics =
      { run.scan.metrics with tokens := run.scan.metrics.tokens + tale.countP Event.isTaken })
    (goes_on : errors.countP ScanError.isStall = 0) : Accounts engine depth run tale errors after := by
  have no_depths : depthsOf tale = [] := by
    unfold depthsOf
    rw [recordless]
    rfl
  exact
    { log := by rw [log, recordless, List.append_nil]
      sink := sink
      built := by rw [cache, recordless]; exact (List.append_nil _).symm
      skipped := by rw [recordless, covered]; rfl
      tokens := by rw [metrics]
      fallbacks := by rw [metrics, none_skipped]; rfl
      delegations := by rw [metrics, no_depths]; rfl
      maxDepth := by rw [metrics, no_depths]; exact (Nat.max_zero _).symm
      allowed := by rw [no_depths]; exact Nat.zero_le _
      gradual := by rw [no_depths]; exact Nat.zero_le _
      steps := fun _ _ => by rw [metrics, recordless, goes_on]; rfl }

/-- An account of records that tell of no nested run and of no character that is skipped. -/
theorem of_records (records : List Record) (unnested : ∀ record ∈ records, record.depth? = none)
    (covered : ∀ record ∈ records, record.skipped? = none)
    (log : after.world.log = run.world.log ++ records) (sink : after.world.sink = run.world.sink)
    (built : after.world.cache.slots.map Slot.key =
      run.world.cache.slots.map Slot.key ++ records.filterMap Record.built?)
    (metrics : after.scan.metrics = { run.scan.metrics with
      steps := run.scan.metrics.steps + records.countP Record.tellsStep })
    (goes_on : errors.countP ScanError.isStall = 0) :
    Accounts engine depth run (records.map .noted) errors after := by
  have told : recordsOf (records.map .noted) = records := recordsOf_map_noted records
  have no_depths : depthsOf (records.map .noted) = [] := by
    unfold depthsOf
    rw [told]
    exact List.filterMap_eq_nil_iff.mpr unnested
  have no_tokens (p : Event → Bool) (silent : ∀ record, p (.noted record) = false) :
      (records.map Event.noted).countP p = 0 := by
    refine List.countP_eq_zero.mpr fun event member => ?_
    obtain ⟨record, _, rfl⟩ := List.mem_map.mp member
    rw [silent]
    exact Bool.false_ne_true
  exact
    { log := by rw [log, told]; exact Array.toList_appendList
      sink := by rw [sink]; exact .notes records
      built := by rw [built, told]
      skipped := by
        rw [told, List.filterMap_eq_nil_iff.mpr covered, List.filterMap_map]
        exact List.filterMap_eq_nil_iff.mpr fun _ _ => rfl
      tokens := by rw [metrics, no_tokens Event.isTaken fun _ => rfl]; rfl
      fallbacks := by rw [metrics, no_tokens Event.isFallback fun _ => rfl]; rfl
      delegations := by rw [metrics, no_depths]; rfl
      maxDepth := by rw [metrics, no_depths]; exact (Nat.max_zero _).symm
      allowed := by rw [no_depths]; exact Nat.zero_le _
      gradual := by rw [no_depths]; exact Nat.zero_le _
      steps := fun _ _ => by rw [metrics, told, goes_on]; rfl }

/-- An account of a character that is skipped, whether the sink takes the token for it or not. -/
theorem of_skipped {language state : String} {offset : Nat} {text : List Char} {refusal : Option String}
    (log : after.world.log = run.world.log ++ [Record.skipped language offset state text])
    (cache : after.world.cache = run.world.cache)
    (sink : engine.emitter.Hears run.world.sink [.offered true ⟨.error, String.ofList text⟩ refusal]
      after.world.sink)
    (metrics : after.scan.metrics =
      let taken := [Event.offered true ⟨.error, String.ofList text⟩ refusal].countP Event.isTaken
      { run.scan.metrics with
        steps := run.scan.metrics.steps + 1
        tokens := run.scan.metrics.tokens + taken
        fallbacks := run.scan.metrics.fallbacks + taken })
    (goes_on : errors.countP ScanError.isStall = 0) :
    Accounts engine depth run
      [.noted (.skipped language offset state text),
        .offered true ⟨.error, String.ofList text⟩ refusal] errors after where
  log := log ▸ Array.toList_appendList
  sink := .noted sink
  built := by rw [cache]; exact (List.append_nil _).symm
  skipped := rfl
  tokens := by rw [metrics]; rfl
  fallbacks := by rw [metrics]; cases refusal <;> rfl
  delegations := by rw [metrics]; rfl
  maxDepth := by rw [metrics]; exact (Nat.max_zero _).symm
  allowed := Nat.zero_le _
  gradual := Nat.zero_le _
  steps _ _ := by rw [metrics, goes_on]; rfl

/-- What changes neither the world nor the counters needs no account. -/
theorem of_same (world : after.world = run.world) (metrics : after.scan.metrics = run.scan.metrics)
    (goes_on : errors.countP ScanError.isStall = 0) : Accounts engine depth run [] errors after :=
  .of_recordless rfl rfl rfl (by rw [world]) (by rw [world]) (by rw [world]; exact .nothing) metrics
    goes_on

theorem refl (run : Run σ) : Accounts engine depth run [] [] run := .of_same rfl rfl rfl

/-- One part after another. -/
theorem trans (one : Accounts engine depth run tale errors middle)
    (other : Accounts engine depth middle more later after) :
    Accounts engine depth run (tale ++ more) (errors ++ later) after where
  log := by rw [other.log, one.log, recordsOf_append, List.append_assoc]
  sink := one.sink.append other.sink
  built := by
    rw [other.built, one.built, recordsOf_append, List.filterMap_append, List.append_assoc]
  skipped := by
    rw [List.filterMap_append, one.skipped, other.skipped, recordsOf_append, List.filterMap_append]
  tokens := by rw [other.tokens, one.tokens, List.countP_append, Nat.add_assoc]
  fallbacks := by rw [other.fallbacks, one.fallbacks, List.countP_append, Nat.add_assoc]
  delegations := by
    rw [other.delegations, one.delegations, depthsOf_append, List.length_append, Nat.add_assoc]
  maxDepth := by rw [other.maxDepth, one.maxDepth, depthsOf_append, deepest_append, Nat.max_assoc]
  allowed := by
    rw [depthsOf_append, deepest_append]
    exact Nat.max_le.mpr ⟨one.allowed, other.allowed⟩
  gradual := by
    have first := one.gradual
    have second := other.gradual
    rw [depthsOf_append, deepest_append, List.length_append]
    omega
  steps traced proper := by
    have first := one.steps traced fun error member => proper error (List.mem_append_left later member)
    have second := other.steps traced fun error member =>
      proper error (List.mem_append_right errors member)
    rw [recordsOf_append, List.countP_append, List.countP_append]
    omega

/-- An account ends where the scan is changed, up to its counters. -/
theorem changed (accounts : Accounts engine depth run tale errors after) {last : Run σ}
    (world : last.world = after.world) (metrics : last.scan.metrics = after.scan.metrics) :
    Accounts engine depth run tale errors last where
  log := world ▸ accounts.log
  sink := world ▸ accounts.sink
  built := world ▸ accounts.built
  skipped := accounts.skipped
  tokens := metrics ▸ accounts.tokens
  fallbacks := metrics ▸ accounts.fallbacks
  delegations := metrics ▸ accounts.delegations
  maxDepth := metrics ▸ accounts.maxDepth
  allowed := accounts.allowed
  gradual := accounts.gradual
  steps := metrics ▸ accounts.steps

end Accounts

end TableLexer
