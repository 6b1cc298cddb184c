/-
**Runs of tables that are alike.**

Two engines run two tables on the same text. The tables may number their states in different ways, and the
one may have rules that the other lacks, as long as the topmost states make the same choices. Then the runs
do the same, with stacks that correspond; or the one run fails with an error with which it may leave the
other, which goes on. What corresponds to what, in tables, stacks and worlds, is up to the `Likeness`: it
names what each single thing that a step does must keep.

* `Likeness.Ends.bind`: one part of a step after another.
* `Likeness.ends_step`: one step.
* `Likeness.nestings_nestedRun`, `Likeness.ends_drive`: runs, at every depth.
* `Likeness.operate_alike`: operations on two scans, where the one never leaves the other.
-/

import TableLexer.Proofs.Scan.Counters
import TableLexer.Proofs.Table.Described

namespace TableLexer

open Step

variable {σ τ : Type}

/-! ### What corresponds to what -/

/-- The same error was met, or what was found is related. -/
inductive SameOutcome {α β : Type} (same : α → β → Prop) : Except BuildError α → Except BuildError β → Prop
  | ok {a : α} {b : β} (found : same a b) : SameOutcome same (.ok a) (.ok b)
  | error (error : BuildError) : SameOutcome same (.error error) (.error error)

/-- The state that the deed enters. -/
def Deed.entered? : Deed → Option StateId
  | .push state => some state
  | .note _ | .emit .. | .fallBack | .pop _ | .delegate .. => none

/-- The deeds are the same up to the states that they enter, which are alike. -/
inductive Deed.Alike (alike : StateId → StateId → Prop) : Deed → Deed → Prop
  | push {state twin : StateId} (same : alike state twin) : Alike alike (.push state) (.push twin)
  | other {deed : Deed} (no_push : deed.entered? = none) : Alike alike deed deed

/-- The stacks are equally high, and their states are alike. -/
structure StateStack.Alike (alike : StateId → StateId → Prop) (stack twin : StateStack) : Prop where
  top : alike stack.top twin.top
  below : List.Forall₂ alike stack.below twin.below

/-- The scans stand at the same place, have counted the same and have stacks that are alike. -/
structure Scan.Alike (alike : StateId → StateId → Prop) (scan twin : Scan) : Prop where
  cursor : scan.cursor = twin.cursor
  ahead : scan.ahead = twin.ahead
  metrics : scan.metrics = twin.metrics
  stack : StateStack.Alike alike scan.stack twin.stack

/-- The same is chosen, up to the states that are entered; or nothing is chosen where that may make a
difference. -/
inductive Selection.Alike (alike : StateId → StateId → Prop) (differ : Prop) :
    Option Selection → Option Selection → Prop
  | none : Alike alike differ none none
  | some {selection twin : Selection} (index : selection.index = twin.index)
      (source : selection.rule.source = twin.rule.source) (found : selection.found = twin.found)
      (behavior : Behavior.Alike alike selection.rule.behavior twin.rule.behavior) :
      Alike alike differ (some selection) (some twin)
  | differ (may : differ) (twin : Option Selection) : Alike alike differ none twin

/-- The record is written where runs are traced. -/
def Options.traced (options : Options) (record : Record) : List Record :=
  if options.trace then [record] else []

/-- The lexers are at the same place in the nesting of runs, and their tables are alike. -/
structure Lexer.Alike (tables : Table → Table → Prop) (lexer twin : Lexer) : Prop where
  table : tables lexer.table twin.table
  depth : lexer.depth = twin.depth
  base : lexer.base = twin.base

/-- The record of a choice. -/
def Lexer.choice (lexer : Lexer) (scan : Scan) (text : List Char) (selection : Selection) : Record :=
  .selected lexer.table.language lexer.depth (lexer.table.state scan.stack.top).name
    (lexer.base + scan.cursor) selection.index selection.rule.source
    (lexer.site scan text selection).whole

/-- What a step tells of its choice, if runs are traced. -/
theorem Lexer.told_eq (lexer : Lexer) (options : Options) (scan : Scan) (text : List Char)
    (selection : Selection) :
    lexer.told options scan text selection =
      (options.traced (lexer.choice scan text selection)).map .note := by
  unfold Lexer.told Options.traced
  split <;> rfl

theorem SameOutcome.refl {α : Type} {same : α → α → Prop} (reflexive : ∀ a, same a a)
    (outcome : Except BuildError α) : SameOutcome same outcome outcome := by
  cases outcome with
  | ok a => exact .ok (reflexive a)
  | error error => exact .error error

section Correspondence

variable {alike : StateId → StateId → Prop}

/-- Scans are the same where states that are alike are. -/
theorem Scan.Alike.eq {scan twin : Scan} (same : Scan.Alike alike scan twin)
    (equal : ∀ state twinState, alike state twinState → state = twinState) : scan = twin := by
  obtain ⟨cursor, ahead, ⟨top, below⟩, metrics⟩ := scan
  obtain ⟨twinCursor, twinAhead, ⟨twinTop, twinBelow⟩, twinMetrics⟩ := twin
  obtain ⟨rfl, rfl, rfl, ⟨tops, belows⟩⟩ := same
  obtain rfl := equal _ _ tops
  obtain rfl : below = twinBelow := List.forall₂_eq_eq_eq ▸ belows.imp equal
  rfl

theorem Scan.Alike.stepsLeft {scan twin : Scan} (same : Scan.Alike alike scan twin) :
    scan.stepsLeft = twin.stepsLeft := by
  unfold Scan.stepsLeft
  rw [same.ahead]

theorem Scan.Alike.isDone {scan twin : Scan} (same : Scan.Alike alike scan twin) :
    scan.isDone = twin.isDone := by
  unfold Scan.isDone
  rw [same.ahead]

theorem Scan.Alike.count {scan twin : Scan} (same : Scan.Alike alike scan twin)
    (change : Metrics → Metrics) : Scan.Alike alike (scan.count change) (twin.count change) :=
  ⟨same.cursor, same.ahead, congrArg change same.metrics, same.stack⟩

theorem Scan.Alike.advance {scan twin : Scan} (same : Scan.Alike alike scan twin) (bytes : Nat) :
    Scan.Alike alike (scan.advance bytes) (twin.advance bytes) where
  cursor := congrArg (· + bytes) same.cursor
  ahead := congrArg (·.bind (Text.dropBytes? · bytes)) same.ahead
  metrics := same.metrics
  stack := same.stack

/-- Of rules that are alike, the same one is chosen. -/
theorem selectFrom_alike {rules twins : List Rule} (each : List.Forall₂ (Rule.Alike alike) rules twins)
    (differ : Prop) (text : List Char) (index : Nat) :
    Selection.Alike alike differ (selectFrom text index rules) (selectFrom text index twins) := by
  induction each generalizing index with
  | nil => exact .none
  | cons same _ ih =>
    rw [selectFrom, selectFrom, same.regex]
    split
    · exact ih (index + 1)
    · split
      · exact ih (index + 1)
      · exact .some rfl same.source rfl same.behavior

/-- Where behaviours are alike, what they do is. -/
theorem Step.Site.deeds_alike {site twin : Site} (origin : site.origin = twin.origin)
    (text : site.text = twin.text) (found : site.found = twin.found)
    {behavior other : Behavior StateId} (same : Behavior.Alike alike behavior other) :
    List.Forall₂ (Deed.Alike alike) (site.deeds behavior) (twin.deeds other) := by
  have slice (span : Pattern.Span) : site.slice span = twin.slice span := by
    unfold slice
    rw [text]
  have whole : site.whole = twin.whole := by
    unfold Site.whole
    rw [slice, found]
  cases same with
  | emit kind =>
    simp only [deeds, whole]
    exact .cons (.other rfl) .nil
  | emitAndPush kind same =>
    simp only [deeds, whole]
    exact .cons (.other rfl) (.cons (.push same) .nil)
  | emitAndPop kind =>
    simp only [deeds, whole, origin]
    exact .cons (.other rfl) (.cons (.other rfl) .nil)
  | delegate target =>
    simp only [deeds, whole, origin]
    exact .cons (.other rfl) .nil
  | composite each =>
    refine List.rel_filterMap (fun action other same => ?_) each
    cases same with
    | emit group kind =>
      simp only [deed?, found, slice]
      cases twin.found.group? group with
      | none => exact .none
      | some span => exact .some (.other rfl)
    | delegate group target =>
      simp only [deed?, found, slice, origin]
      cases twin.found.group? group with
      | none => exact .none
      | some span => exact .some (.other rfl)
    | push same => exact .some (.push same)
    | pop =>
      simp only [deed?, origin]
      exact .some (.other rfl)

end Correspondence

/-- What makes the runs of the one engine like those of the other. -/
structure Likeness (one : Engine σ) (other : Engine τ) where
  /-- The tables that are alike. -/
  tables : Table → Table → Prop
  /-- The states that are alike, of tables that are. -/
  states : Table → Table → StateId → StateId → Prop
  worlds : World σ → World τ → Prop
  /-- The errors with which the one run may leave the other. -/
  leaves : ScanError → Prop
  limit : one.options.maxDepth = other.options.maxDepth
  policy : one.options.stall = other.options.stall
  language : ∀ {table twin}, tables table twin → table.language = twin.language
  root : ∀ {table twin}, tables table twin → states table twin table.root twin.root
  name : ∀ {table twin state twinState}, tables table twin → states table twin state twinState →
    (table.state state).name = (twin.state twinState).name
  selects : ∀ {table twin state twinState} (text : List Char), tables table twin →
    states table twin state twinState →
    Selection.Alike (states table twin)
      (one.options.stall = .strict ∧ ∀ offset name, leaves (.stall offset name))
      ((table.state state).select text) ((twin.state twinState).select text)
  notes : ∀ {world twin} (record : Record), record.level ≠ .trace → worlds world twin →
    worlds (world.addRecords [record]) (twin.addRecords [record])
  tells : ∀ {world twin} (record : Record), record.level = .trace → worlds world twin →
    worlds (world.addRecords (one.options.traced record)) (twin.addRecords (other.options.traced record))
  looksUp : ∀ {world twin} (name : String), worlds world twin →
    SameOutcome tables ((world.table one.registry name).1.map SharedTable.table)
        ((twin.table other.registry name).1.map SharedTable.table) ∧
      worlds (world.table one.registry name).2 (twin.table other.registry name).2
  offers : ∀ {world twin} (token : Token), worlds world twin →
    match one.emitter.emit token world.sink, other.emitter.emit token twin.sink with
    | .ok _ sink, .ok _ twinSink => worlds { world with sink } { twin with sink := twinSink }
    | .error message sink, .error twinMessage twinSink =>
      message = twinMessage ∧ worlds { world with sink } { twin with sink := twinSink }
    | _, _ => False

namespace Likeness

variable {one : Engine σ} {other : Engine τ} {α β γ δ : Type} (like : Likeness one other)

/-- The runs are in states that are alike. -/
structure Runs (table twin : Table) (run : Run σ) (twinRun : Run τ) : Prop where
  scans : Scan.Alike (like.states table twin) run.scan twinRun.scan
  worlds : like.worlds run.world twinRun.world

/-- The parts of a step end alike, with values that are related, or the one run leaves the other. -/
inductive Ends (table twin : Table) (values : α → β → Prop) :
    EStateM.Result ScanError (Run σ) α → EStateM.Result ScanError (Run τ) β → Prop
  | ok {a : α} {b : β} (same : values a b) {run : Run σ} {twinRun : Run τ}
      (runs : like.Runs table twin run twinRun) : Ends table twin values (.ok a run) (.ok b twinRun)
  | error (error : ScanError) {run : Run σ} {twinRun : Run τ} (runs : like.Runs table twin run twinRun) :
      Ends table twin values (.error error run) (.error error twinRun)
  | leaves {error : ScanError} (may : like.leaves error) (run : Run σ)
      (result : EStateM.Result ScanError (Run τ) β) : Ends table twin values (.error error run) result

/-- From states that are alike, the parts of a step end alike. -/
def Along (table twin : Table) (values : α → β → Prop) (part : StepM σ α) (twinPart : StepM τ β) : Prop :=
  ∀ run twinRun, like.Runs table twin run twinRun →
    like.Ends table twin values (part run) (twinPart twinRun)

variable {like} {table twin : Table}

/-- One part of a step after another. -/
theorem Along.bind {values : α → β → Prop} {others : γ → δ → Prop} {part : StepM σ α}
    {rest : α → StepM σ γ} {twinPart : StepM τ β} {twinRest : β → StepM τ δ}
    (first : like.Along table twin values part twinPart)
    (later : ∀ a b, values a b → like.Along table twin others (rest a) (twinRest b)) :
    like.Along table twin others (part >>= rest) (twinPart >>= twinRest) := by
  intro run twinRun runs
  have ends := first run twinRun runs
  show like.Ends table twin others (EStateM.bind part rest run) (EStateM.bind twinPart twinRest twinRun)
  unfold EStateM.bind
  generalize part run = result, twinPart twinRun = twinResult at ends
  cases ends with
  | ok same runs => exact later _ _ same _ _ runs
  | error error runs => exact .error error runs
  | leaves may run => exact .leaves may run _

theorem along_pure {values : α → β → Prop} {a : α} {b : β} (same : values a b) :
    like.Along table twin values (pure a) (pure b) :=
  fun _ _ runs => .ok same runs

/-- The scans may be changed in any way that keeps them alike. -/
theorem along_changeScan {change : Scan → Scan}
    (keeps : ∀ scan twinScan, Scan.Alike (like.states table twin) scan twinScan →
      Scan.Alike (like.states table twin) (change scan) (change twinScan)) :
    like.Along table twin Eq (changeScan change) (changeScan change) :=
  fun _ _ runs => .ok rfl ⟨keeps _ _ runs.scans, runs.worlds⟩

theorem along_count (change : Metrics → Metrics) :
    like.Along table twin Eq (count change) (count change) :=
  along_changeScan fun _ _ same => same.count change

theorem along_note {record : Record} (level : record.level ≠ .trace) :
    like.Along table twin Eq (note record) (note record) :=
  fun _ _ runs => .ok rfl ⟨runs.scans, like.notes record level runs.worlds⟩

theorem along_emit (kind : Kind) (text : List Char) :
    like.Along table twin Eq (emit one kind text) (emit other kind text) := by
  unfold emit
  split
  · exact along_pure rfl
  · refine .bind (fun run twinRun runs => ?_) fun a b (_ : a = b) => along_count _
    have offered := like.offers ⟨kind, String.ofList text⟩ runs.worlds
    dsimp only
    generalize one.emitter.emit _ run.world.sink = answer,
      other.emitter.emit _ twinRun.world.sink = twinAnswer at offered
    cases answer <;> cases twinAnswer
    · exact .ok rfl ⟨runs.scans, offered⟩
    · exact offered.elim
    · exact offered.elim
    · obtain ⟨rfl, worlds⟩ := offered
      exact .error (.emit _) ⟨runs.scans, worlds⟩

theorem along_push {state twinState : StateId} (same : like.states table twin state twinState) :
    like.Along table twin Eq (push state) (push twinState) := by
  intro run twinRun runs
  obtain ⟨cursor, ahead, metrics, top, below⟩ := runs.scans
  exact .ok rfl ⟨⟨cursor, ahead, metrics, same, .cons top below⟩, runs.worlds⟩

theorem along_pop (origin : Nat) :
    like.Along table twin Eq (pop origin : StepM σ Unit) (pop origin) := by
  intro run twinRun runs
  obtain ⟨cursor, ahead, metrics, top, below⟩ := runs.scans
  unfold pop StateStack.pop?
  generalize lower : run.scan.stack.below = states, twinLower : twinRun.scan.stack.below = twinStates
    at below
  cases below with
  | nil => exact .error (.popRoot origin) runs
  | cons same below => exact .ok rfl ⟨⟨cursor, ahead, metrics, same, below⟩, runs.worlds⟩

/-! ### Delegation -/

variable (like) in
/-- Nested runs of tables that are alike end alike. -/
def NestsAlong (nested : NestedRun σ) (twinNested : NestedRun τ) : Prop :=
  ∀ (child twinChild : Lexer) (text : List Char) (world : World σ) (twinWorld : World τ),
    Lexer.Alike like.tables child twinChild → like.worlds world twinWorld →
    like.Ends child.table twinChild.table Eq (nested child text world)
      (twinNested twinChild text twinWorld)

variable (like) in
/-- Runs may not nest deeper, or nested runs end alike. -/
def Nestings : Option (NestedRun σ) → Option (NestedRun τ) → Prop
  | some nested, some twinNested => like.NestsAlong nested twinNested
  | none, none => True
  | _, _ => False

variable {nested : Option (NestedRun σ)} {twinNested : Option (NestedRun τ)} {lexer twinLexer : Lexer}

/-- The tables of a target are alike. -/
theorem along_resolve (lexers : Lexer.Alike like.tables lexer twinLexer) (target : Target) :
    like.Along table twin like.tables (resolve one lexer target) (resolve other twinLexer target) := by
  cases target with
  | current => exact along_pure lexers.table
  | named language =>
    intro run twinRun runs
    obtain ⟨same, worlds⟩ := like.looksUp language runs.worlds
    unfold resolve
    dsimp only
    generalize run.world.table one.registry language = answer,
      twinRun.world.table other.registry language = twinAnswer at same worlds
    obtain ⟨outcome, world⟩ := answer
    obtain ⟨twinOutcome, twinWorld⟩ := twinAnswer
    cases outcome <;> cases twinOutcome <;> cases same
    · exact .error (.build _) ⟨runs.scans, worlds⟩
    · rename_i same
      exact .ok same ⟨runs.scans, worlds⟩

theorem along_runNested {nested : NestedRun σ} {twinNested : NestedRun τ}
    (along : like.NestsAlong nested twinNested) {child twinChild : Lexer}
    (children : Lexer.Alike like.tables child twinChild) (text : List Char) :
    like.Along table twin Eq (runNested nested child text) (runNested twinNested twinChild text) := by
  intro run twinRun runs
  have inner := along child twinChild text run.world twinRun.world children runs.worlds
  have absorbed {ended : Scan} {twinEnded : Scan} (metrics : ended.metrics = twinEnded.metrics) :
      Scan.Alike (like.states table twin) (run.scan.count (·.absorb ended.metrics child.depth))
        (twinRun.scan.count (·.absorb twinEnded.metrics twinChild.depth)) := by
    rw [metrics, children.depth]
    exact runs.scans.count _
  unfold runNested
  dsimp only
  generalize nested child text run.world = result, twinNested twinChild text twinRun.world = twinResult
    at inner
  cases inner with
  | ok _ ends => exact .ok rfl ⟨absorbed ends.scans.metrics, ends.worlds⟩
  | error error ends => exact .error error ⟨absorbed ends.scans.metrics, ends.worlds⟩
  | leaves may ended => exact .leaves may _ _

theorem along_delegateTo (nestings : like.Nestings nested twinNested)
    (lexers : Lexer.Alike like.tables lexer twinLexer) (text : List Char) (offset : Nat)
    {childTable twinChildTable : Table} (tables : like.tables childTable twinChildTable) :
    like.Along table twin Eq (delegateTo one nested lexer text offset childTable)
      (delegateTo other twinNested twinLexer text offset twinChildTable) := by
  have deeper : lexer.depth + 1 = twinLexer.depth + 1 := congrArg (· + 1) lexers.depth
  match nested, twinNested, nestings with
  | none, none, _ =>
    intro run twinRun runs
    unfold delegateTo
    rw [like.limit]
    exact .error (.depthExceeded _ offset) runs
  | some nested, some twinNested, along =>
    unfold delegateTo
    dsimp only
    rw [like.language lexers.table, like.language tables, deeper]
    have children : Lexer.Alike like.tables ⟨childTable, twinLexer.depth + 1, offset⟩
      ⟨twinChildTable, twinLexer.depth + 1, offset⟩ := ⟨tables, rfl, rfl⟩
    exact .bind (along_note nofun) fun _ _ _ => along_runNested along children text

theorem along_delegate (nestings : like.Nestings nested twinNested)
    (lexers : Lexer.Alike like.tables lexer twinLexer) (target : Target) (text : List Char)
    (offset : Nat) :
    like.Along table twin Eq (delegate one nested lexer target text offset)
      (delegate other twinNested twinLexer target text offset) := by
  by_cases nothing : text = []
  · subst nothing
    exact along_pure rfl
  · rw [delegate_of_ne_nil nothing, delegate_of_ne_nil nothing]
    exact (along_resolve lexers target).bind fun _ _ tables =>
      along_delegateTo nestings lexers text offset tables

/-! ### Steps -/

theorem along_enact (nestings : like.Nestings nested twinNested)
    (lexers : Lexer.Alike like.tables lexer twinLexer) {deed twinDeed : Deed}
    (same : Deed.Alike (like.states table twin) deed twinDeed)
    (level : ∀ record, deed = .note record → record.level ≠ .trace) :
    like.Along table twin Eq (enact one nested lexer deed) (enact other twinNested twinLexer twinDeed) := by
  cases same with
  | push same => exact along_push same
  | other no_push =>
    cases deed with
    | note record => exact along_note (level record rfl)
    | emit kind text => exact along_emit kind text
    | fallBack => exact along_count _
    | push => cases no_push
    | pop origin => exact along_pop origin
    | delegate target text offset => exact along_delegate nestings lexers target text offset

theorem along_enactAll (nestings : like.Nestings nested twinNested)
    (lexers : Lexer.Alike like.tables lexer twinLexer) {deeds twinDeeds : List Deed}
    (same : List.Forall₂ (Deed.Alike (like.states table twin)) deeds twinDeeds)
    (level : ∀ record, .note record ∈ deeds → record.level ≠ .trace) :
    like.Along table twin Eq (enactAll one nested lexer deeds)
      (enactAll other twinNested twinLexer twinDeeds) := by
  induction same with
  | nil => exact along_pure rfl
  | cons same rest ih =>
    have first := along_enact nestings lexers same fun record equal =>
      level record (equal ▸ List.mem_cons_self)
    exact first.bind fun _ _ _ => ih fun record member => level record (List.mem_cons_of_mem _ member)

/-- What the runs tell of a choice keeps them alike, whichever of them are traced. -/
theorem along_told {record : Record} (level : record.level = .trace) :
    like.Along table twin Eq
      (enactAll one nested lexer ((one.options.traced record).map .note))
      (enactAll other twinNested twinLexer ((other.options.traced record).map .note)) := by
  have writes {ρ : Type} (engine : Engine ρ) (nested : Option (NestedRun ρ)) (lexer : Lexer) (run : Run ρ) :
      enactAll engine nested lexer ((engine.options.traced record).map .note) run =
        .ok () ⟨run.scan, run.world.addRecords (engine.options.traced record)⟩ := by
    unfold Options.traced
    split
    · rfl
    · unfold World.addRecords
      rw [Array.appendList_nil]
      rfl
  intro run twinRun runs
  rw [writes, writes]
  exact .ok rfl ⟨runs.scans, like.tells record level runs.worlds⟩

/-- Deeds that correspond keep runs alike, and so does the way over so many bytes. -/
theorem along_carryOut (nestings : like.Nestings nested twinNested)
    (lexers : Lexer.Alike like.tables lexer twinLexer) {deeds twinDeeds : List Deed}
    (same : List.Forall₂ (Deed.Alike (like.states lexer.table twinLexer.table)) deeds twinDeeds)
    (level : ∀ record, .note record ∈ deeds → record.level ≠ .trace) (bytes : Nat) :
    like.Along lexer.table twinLexer.table Eq (Intent.carryOut one nested lexer (.go deeds bytes))
      (Intent.carryOut other twinNested twinLexer (.go twinDeeds bytes)) :=
  (along_enactAll nestings lexers same level).bind fun _ _ _ =>
    along_changeScan fun _ _ scans => scans.advance bytes

/-- A character is skipped in the same way. -/
theorem along_skipping (nestings : like.Nestings nested twinNested)
    (lexers : Lexer.Alike like.tables lexer twinLexer) (language : String) (offset : Nat) (name : String)
    (c : Char) :
    let skips : Intent := .go [.note (.skipped language offset name [c]), .emit .error [c], .fallBack]
      c.utf8Size
    like.Along lexer.table twinLexer.table Eq (skips.carryOut one nested lexer)
      (skips.carryOut other twinNested twinLexer) := by
  refine along_carryOut nestings lexers ?_ ?_ _
  · exact .cons (.other rfl) (.cons (.other rfl) (.cons (.other rfl) .nil))
  · intro record member
    simp only [List.mem_cons, Deed.note.injEq, reduceCtorEq, List.not_mem_nil, or_false] at member
    rw [member]
    exact nofun

/-- Choices that are alike are followed in the same way. -/
theorem along_follow (nestings : like.Nestings nested twinNested)
    (lexers : Lexer.Alike like.tables lexer twinLexer) {scan twinScan : Scan}
    (scans : Scan.Alike (like.states lexer.table twinLexer.table) scan twinScan) (text : List Char)
    {selection chosen : Selection} (index : selection.index = chosen.index)
    (source : selection.rule.source = chosen.rule.source) (found : selection.found = chosen.found)
    (behavior : Behavior.Alike (like.states lexer.table twinLexer.table) selection.rule.behavior
      chosen.rule.behavior) :
    like.Along lexer.table twinLexer.table Eq
      (Intent.carryOut one nested lexer
        (.go (lexer.told one.options scan text selection ++
          (lexer.site scan text selection).deeds selection.rule.behavior) selection.found.length))
      (Intent.carryOut other twinNested twinLexer
        (.go (twinLexer.told other.options twinScan text chosen ++
          (twinLexer.site twinScan text chosen).deeds chosen.rule.behavior) chosen.found.length)) := by
  have place : lexer.base + scan.cursor = twinLexer.base + twinScan.cursor := by
    rw [lexers.base, scans.cursor]
  have told : lexer.choice scan text selection = twinLexer.choice twinScan text chosen := by
    unfold Lexer.choice Lexer.site Site.whole Site.slice
    rw [place, like.name lexers.table scans.stack.top, like.language lexers.table, lexers.depth, index,
      source, found]
  have here : (lexer.site scan text selection).text = (twinLexer.site twinScan text chosen).text := rfl
  have deeds : List.Forall₂ (Deed.Alike (like.states lexer.table twinLexer.table))
      ((lexer.site scan text selection).deeds selection.rule.behavior)
      ((twinLexer.site twinScan text chosen).deeds chosen.rule.behavior) :=
    Site.deeds_alike place here found behavior
  rw [lexer.told_eq, twinLexer.told_eq, told, found]
  unfold Intent.carryOut
  dsimp only
  rw [enactAll_append, enactAll_append, bind_assoc, bind_assoc]
  refine (along_told rfl).bind fun _ _ _ => along_carryOut nestings lexers deeds ?_ _
  intro record member
  cases Site.ofBehavior_of_mem member

/-- A step keeps runs alike, or the one leaves the other. -/
theorem ends_step (nestings : like.Nestings nested twinNested)
    (lexers : Lexer.Alike like.tables lexer twinLexer) :
    like.Along lexer.table twinLexer.table Eq (step one nested lexer)
      (step other twinNested twinLexer) := by
  intro run twinRun runs
  have counted : like.Runs lexer.table twinLexer.table run.counted twinRun.counted :=
    ⟨runs.scans.count fun metrics => { metrics with steps := metrics.steps + 1 }, runs.worlds⟩
  have place : lexer.base + run.scan.cursor = twinLexer.base + twinRun.scan.cursor := by
    rw [lexers.base, runs.scans.cursor]
  cases ahead : run.scan.ahead with
  | none =>
    rw [step_of_ahead_none ahead, step_of_ahead_none (runs.scans.ahead ▸ ahead), place]
    exact .error (.insideCharacter _) runs
  | some text =>
    have top := runs.scans.stack.top
    have chosen := like.selects text lexers.table top
    rw [step_eq_carryOut ahead, step_eq_carryOut (runs.scans.ahead ▸ ahead)]
    unfold Lexer.intent
    dsimp only
    generalize (lexer.table.state run.scan.stack.top).select text = choice,
      (twinLexer.table.state twinRun.scan.stack.top).select text = twinChoice at chosen
    cases chosen with
    | none =>
      rw [place, like.name lexers.table top, like.language lexers.table, ← like.policy]
      cases one.options.stall with
      | strict => exact .error (.stall _ _) counted
      | lenient =>
        cases text with
        | nil => exact .error (.nothingToSkip _) counted
        | cons c rest => exact along_skipping nestings lexers _ _ _ c _ _ counted
    | differ may =>
      rw [may.1]
      exact .leaves (may.2 _ _) _ _
    | some index source found behavior =>
      exact along_follow nestings lexers runs.scans text index source found behavior _ _ counted

/-! ### Runs -/

/-- Steps keep runs alike, or the one leaves the other. -/
theorem ends_repeatStep (nestings : like.Nestings nested twinNested)
    (lexers : Lexer.Alike like.tables lexer twinLexer) (bound : Nat) :
    like.Along lexer.table twinLexer.table Eq (repeatStep (step one nested lexer) bound)
      (repeatStep (step other twinNested twinLexer) bound) := by
  induction bound with
  | zero => exact fun _ _ runs => .ok rfl runs
  | succ bound ih =>
    intro run twinRun runs
    rw [repeatStep, repeatStep, runs.scans.isDone]
    by_cases done : twinRun.scan.isDone
    · rw [if_pos done, if_pos done]
      exact .ok rfl runs
    · rw [if_neg done, if_neg done]
      have stepped := ends_step nestings lexers run twinRun runs
      generalize step one nested lexer run = result, step other twinNested twinLexer twinRun = twinResult
        at stepped
      cases stepped with
      | ok _ runs => exact ih _ _ runs
      | error error runs => exact .error error runs
      | leaves may run => exact .leaves may run _

theorem ends_driveWith (nestings : like.Nestings nested twinNested)
    (lexers : Lexer.Alike like.tables lexer twinLexer) :
    like.Along lexer.table twinLexer.table Eq (driveWith (step one nested lexer))
      (driveWith (step other twinNested twinLexer)) := by
  intro run twinRun runs
  unfold driveWith
  rw [runs.scans.stepsLeft]
  exact ends_repeatStep nestings lexers _ run twinRun runs

/-- Scans of the same text from the root states are alike. -/
theorem start_alike (tables : like.tables table twin) (text : List Char) :
    Scan.Alike (like.states table twin) (.start table text) (.start twin text) :=
  ⟨rfl, rfl, rfl, like.root tables, .nil⟩

variable (like) in
/-- Nested runs end alike, at every depth. -/
theorem nestings_nestedRun (levels : Nat) :
    like.Nestings (nestedRun one levels) (nestedRun other levels) := by
  induction levels with
  | zero => trivial
  | succ levels ih =>
    intro child twinChild text world twinWorld children worlds
    exact ends_driveWith ih children _ _ ⟨start_alike children.table text, worlds⟩

/-- As many levels of nesting are left. -/
theorem nestings_levelsLeft (lexers : Lexer.Alike like.tables lexer twinLexer) :
    like.Nestings (nestedRun one (lexer.levelsLeft one)) (nestedRun other (twinLexer.levelsLeft other)) := by
  have levels : lexer.levelsLeft one = twinLexer.levelsLeft other := by
    unfold Lexer.levelsLeft
    rw [like.limit, lexers.depth]
  rw [levels]
  exact like.nestings_nestedRun _

/-- Steps and runs end alike, or the one leaves the other. -/
theorem along_act (lexers : Lexer.Alike like.tables lexer twinLexer) (operation : Operation) :
    like.Along lexer.table twinLexer.table Eq (operation.act one lexer) (operation.act other twinLexer) := by
  cases operation with
  | step => exact ends_step (nestings_levelsLeft lexers) lexers
  | drive => exact ends_driveWith (nestings_levelsLeft lexers) lexers

/-- Runs from the start of a text end alike, or the one leaves the other. -/
theorem ends_drive (lexers : Lexer.Alike like.tables lexer twinLexer) (text : List Char)
    {world : World σ} {twinWorld : World τ} (worlds : like.worlds world twinWorld) :
    like.Ends lexer.table twinLexer.table Eq (lexer.drive one ⟨.start lexer.table text, world⟩)
      (twinLexer.drive other ⟨.start twinLexer.table text, twinWorld⟩) :=
  along_act lexers .drive _ _ ⟨start_alike lexers.table text, worlds⟩

/-! ### How runs end -/

/-- Runs that do not leave each other end with the same error, or with none, and in states that are
alike. -/
theorem Ends.same {values : α → β → Prop} {result : EStateM.Result ScanError (Run σ) α}
    {twinResult : EStateM.Result ScanError (Run τ) β} (ends : like.Ends table twin values result twinResult)
    (stays : ∀ error, (ending result).1 = some error → ¬ like.leaves error) :
    (ending result).1 = (ending twinResult).1 ∧ like.Runs table twin (endOf result) (endOf twinResult) := by
  cases ends with
  | ok _ runs => exact ⟨rfl, runs⟩
  | error error runs => exact ⟨rfl, runs⟩
  | leaves may run => exact absurd may (stays _ rfl)

/-- Runs that do not leave each other end in the same way where states that are alike are the same. -/
theorem Ends.ending_eq {values : α → β → Prop} {result : EStateM.Result ScanError (Run σ) α}
    {twinResult : EStateM.Result ScanError (Run τ) β} (ends : like.Ends table twin values result twinResult)
    (stays : ∀ error, (ending result).1 = some error → ¬ like.leaves error)
    (equal : ∀ state twinState, like.states table twin state twinState → state = twinState) :
    ending result = ending twinResult ∧ like.worlds (endOf result).world (endOf twinResult).world := by
  cases ends with
  | ok _ runs => exact ⟨congrArg (none, ·) (runs.scans.eq equal), runs.worlds⟩
  | error error runs => exact ⟨congrArg (some error, ·) (runs.scans.eq equal), runs.worlds⟩
  | leaves may run => exact absurd may (stays _ rfl)

/-- Where the one run never leaves the other, operations on two scans that are alike end with the same
errors, and in states that are alike. -/
theorem operate_alike (never : ∀ error, ¬ like.leaves error)
    (lexers : Lexer.Alike like.tables lexer twinLexer) (operations : List Operation) {run : Run σ}
    {twinRun : Run τ} (runs : like.Runs lexer.table twinLexer.table run twinRun) :
    (lexer.operate one operations run).1 = (twinLexer.operate other operations twinRun).1 ∧
      like.Runs lexer.table twinLexer.table (lexer.operate one operations run).2
        (twinLexer.operate other operations twinRun).2 := by
  induction operations generalizing run twinRun with
  | nil => exact ⟨rfl, runs⟩
  | cons operation rest ih =>
    obtain ⟨same, after⟩ := (along_act lexers operation run twinRun runs).same fun error _ => never error
    obtain ⟨errors, last⟩ := ih after
    unfold Lexer.operate
    dsimp only
    exact ⟨by rw [same, errors], last⟩

end Likeness

end TableLexer
