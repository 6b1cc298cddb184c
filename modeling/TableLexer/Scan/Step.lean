/-
**One step of a scan.**

The first rule of the topmost state that matches a part of the text that is left, and more than
nothing, is chosen; its behaviour is carried out and the cursor moves over as many bytes as were
matched. Where no rule is chosen, the stall policy decides. A behaviour is a sequence of the parts
`emit`, `push`, `pop` and `delegate`; when one of them fails, what came before stays done and the
cursor stays where it was.
-/

import TableLexer.Scan.Basic

namespace TableLexer

/-- The choice of a rule. -/
structure Selection where
  /-- The place of the rule in its state. -/
  index : Nat
  rule : Rule
  found : Pattern.Match
  deriving DecidableEq, Repr

/-- The first of the rules, numbered from `index` on, that matches more than nothing. -/
def selectFrom (text : List Char) : Nat → List Rule → Option Selection
  | _, [] => none
  | index, rule :: rest =>
    match rule.regex.find? text with
    | none => selectFrom text (index + 1) rest
    | some found =>
      if found.length = 0 then selectFrom text (index + 1) rest
      else some ⟨index, rule, found⟩

/-- The rule that the state chooses for the text. -/
def State.select (state : State) (text : List Char) : Option Selection :=
  selectFrom text 0 state.rules

namespace Step

variable {σ : Type}

/-- Changes the scan. -/
def changeScan (change : Scan → Scan) : StepM σ Unit :=
  modify fun run => { run with scan := change run.scan }

/-- Changes the counters. -/
def count (change : Metrics → Metrics) : StepM σ Unit := changeScan (·.count change)

/-- Writes a record. -/
def note (record : Record) : StepM σ Unit :=
  modify fun run => { run with world := run.world.addRecords [record] }

/-- Sends a token to the sink. An empty text makes no token. -/
def emit (engine : Engine σ) (kind : Kind) (text : List Char) : StepM σ Unit := do
  unless text.isEmpty do
    fun run =>
      match engine.emitter.emit ⟨kind, String.ofList text⟩ run.world.sink with
      | .ok _ sink => .ok () { run with world := { run.world with sink } }
      | .error message sink => .error (.emit message) { run with world := { run.world with sink } }
    count fun metrics => { metrics with tokens := metrics.tokens + 1 }

/-- Enters a state. -/
def push (state : StateId) : StepM σ Unit :=
  changeScan fun scan => { scan with stack := scan.stack.push state }

/-- Leaves the topmost state. -/
def pop (origin : Nat) : StepM σ Unit := fun run =>
  match run.scan.stack.pop? with
  | none => .error (.popRoot origin) run
  | some (_, stack) => .ok () { run with scan := { run.scan with stack } }

/-- The table of a target. -/
def resolve (engine : Engine σ) (lexer : Lexer) : Target → StepM σ Table
  | .current => pure lexer.table
  | .named language => fun run =>
    match run.world.table engine.registry language with
    | (.ok shared, world) => .ok shared.table { run with world }
    | (.error error, world) => .error (.build error) { run with world }

/-- Runs a nested lexer on a text in the world of this run, and adds its counters, even those of a
run that fails. -/
def runNested (nested : NestedRun σ) (child : Lexer) (text : List Char) : StepM σ Unit := fun run =>
  let absorb (ended : Run σ) : Run σ :=
    { scan := run.scan.count (·.absorb ended.scan.metrics child.depth), world := ended.world }
  match nested child text run.world with
  | .ok _ ended => .ok () (absorb ended)
  | .error error ended => .error error (absorb ended)

/-- Hands a text that starts at `offset` to a nested run. An empty text makes no run. `nested` is
`none` where runs may not nest deeper. -/
def delegate (engine : Engine σ) (nested : Option (NestedRun σ)) (lexer : Lexer) (target : Target)
    (text : List Char) (offset : Nat) : StepM σ Unit := do
  unless text.isEmpty do
    let table ← resolve engine lexer target
    match nested with
    | none => throw (.depthExceeded engine.options.maxDepth offset)
    | some nested =>
      let child : Lexer := { table, depth := lexer.depth + 1, base := offset }
      note (.delegating lexer.table.language (Text.byteLength text) offset table.language child.depth)
      runNested nested child text

/-- Where and on what a behaviour is carried out. -/
structure Site where
  lexer : Lexer
  /-- The position of the cursor in the outermost text. -/
  origin : Nat
  /-- The text from the cursor on. -/
  text : List Char
  found : Pattern.Match

/-- The text of a part of the match. -/
def Site.slice (site : Site) (span : Pattern.Span) : List Char :=
  Text.slice site.text span.start span.stop

/-- The text of the whole match. -/
def Site.whole (site : Site) : List Char := site.slice site.found.span

/-- Carries out one action. A group that took no part in the match is passed over. -/
def act (engine : Engine σ) (nested : Option (NestedRun σ)) (site : Site) :
    Action StateId → StepM σ Unit
  | .emit group kind =>
    match site.found.group? group with
    | none => pure ()
    | some span => emit engine kind (site.slice span)
  | .delegate group target =>
    match site.found.group? group with
    | none => pure ()
    | some span =>
      delegate engine nested site.lexer target (site.slice span) (site.origin + span.start)
  | .push state => push state
  | .pop => pop site.origin

/-- Carries out actions in order, up to the first that fails. -/
def actAll (engine : Engine σ) (nested : Option (NestedRun σ)) (site : Site) :
    List (Action StateId) → StepM σ Unit
  | [] => pure ()
  | action :: rest => do
    act engine nested site action
    actAll engine nested site rest

/-- Carries out a behaviour. -/
def perform (engine : Engine σ) (nested : Option (NestedRun σ)) (site : Site) :
    Behavior StateId → StepM σ Unit
  | .emit kind => emit engine kind site.whole
  | .emitAndPush kind state => do
    emit engine kind site.whole
    push state
  | .emitAndPop kind => do
    emit engine kind site.whole
    pop site.origin
  | .delegate target => delegate engine nested site.lexer target site.whole site.origin
  | .composite actions => actAll engine nested site actions

/-- Applies the stall policy to a text for which the state has no rule. -/
def stall (engine : Engine σ) (lexer : Lexer) (state : State) (origin : Nat) (text : List Char) :
    StepM σ Unit :=
  match engine.options.stall with
  | .strict => throw (.stall origin state.name)
  | .lenient =>
    match text with
    | [] => throw (.nothingToSkip origin)
    | c :: _ => do
      note (.skipped lexer.table.language origin state.name [c])
      emit engine .error [c]
      count fun metrics => { metrics with fallbacks := metrics.fallbacks + 1 }
      changeScan (·.advance c.utf8Size)

/-- Carries out a choice and moves the cursor over the match. -/
def follow (engine : Engine σ) (nested : Option (NestedRun σ)) (lexer : Lexer) (state : State)
    (origin : Nat) (text : List Char) (selection : Selection) : StepM σ Unit := do
  let site : Site := { lexer, origin, text, found := selection.found }
  if engine.options.trace then
    note (.selected lexer.table.language lexer.depth state.name origin selection.index
      selection.rule.source site.whole)
  perform engine nested site selection.rule.behavior
  changeScan (·.advance selection.found.length)

end Step

/-- One step of a scan. -/
def step {σ : Type} (engine : Engine σ) (nested : Option (NestedRun σ)) (lexer : Lexer) :
    StepM σ Unit := do
  let scan := (← get).scan
  let origin := lexer.base + scan.cursor
  match scan.ahead with
  | none => throw (.insideCharacter origin)
  | some text =>
    Step.count fun metrics => { metrics with steps := metrics.steps + 1 }
    let state := lexer.table.state scan.stack.top
    match state.select text with
    | none => Step.stall engine lexer state origin text
    | some selection => Step.follow engine nested lexer state origin text selection

end TableLexer
