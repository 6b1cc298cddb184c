/-
**What a step does, as a list.**

A step looks at the text ahead and at the topmost state. What it does from then on is settled: it fails at
once, or does single deeds, one after another and up to the first that fails, and moves the cursor last.

* `perform_eq_enactAll`: a behaviour does its deeds.
* `stays_perform`: a behaviour changes the stack, the counters and the world, and leaves the cursor where
  it was.
* `step_eq_carryOut`: a step counts itself and carries out its intent.
* `Lexer.pos_of_intent`, `Lexer.exists_of_intent_fail`, `Lexer.exists_of_deed_mem`: what a step may
  intend.
* `moves_step`: a step that succeeds moves the cursor over one byte at least.
-/

import TableLexer.Proofs.Scan.Parts

namespace TableLexer

/-- One thing that a step does. -/
inductive Deed where
  /-- Writes a record. -/
  | note (record : Record)
  /-- Sends a token, unless its text is empty. -/
  | emit (kind : Kind) (text : List Char)
  /-- Counts a character that was skipped. -/
  | fallBack
  /-- Enters a state. -/
  | push (state : StateId)
  /-- Leaves the topmost state. -/
  | pop (origin : Nat)
  /-- Hands a text on to a nested run, unless it is empty. -/
  | delegate (target : Target) (text : List Char) (offset : Nat)

namespace Step

variable {σ : Type}

/-! ### One part after another -/

section Parts

variable {α β : Type} {part : StepM σ α} {rest : α → StepM σ β} {run last : Run σ}

theorem bind_of_ok {a : α} {middle : Run σ} (first : part run = .ok a middle) :
    (part >>= rest) run = rest a middle := by
  show EStateM.bind part rest run = _
  unfold EStateM.bind
  rw [first]

/-- One part after another succeeds if both do. -/
theorem bind_eq_ok_iff {b : β} :
    (part >>= rest) run = .ok b last ↔
      ∃ a middle, part run = .ok a middle ∧ rest a middle = .ok b last := by
  show EStateM.bind part rest run = _ ↔ _
  unfold EStateM.bind
  cases part run <;> simp [and_assoc]

theorem bind_of_error {error : ScanError} (first : part run = .error error last) :
    (part >>= rest) run = .error error last := by
  show EStateM.bind part rest run = _
  unfold EStateM.bind
  rw [first]

/-- One part after another fails if the first does, or the second after it. -/
theorem bind_eq_error_iff {error : ScanError} :
    (part >>= rest) run = .error error last ↔
      part run = .error error last ∨
        ∃ a middle, part run = .ok a middle ∧ rest a middle = .error error last := by
  show EStateM.bind part rest run = _ ↔ _
  unfold EStateM.bind
  cases part run <;> simp [and_assoc]

end Parts

/-! ### Deeds -/

/-- Does one deed. -/
def enact (engine : Engine σ) (nested : Option (NestedRun σ)) (lexer : Lexer) : Deed → StepM σ Unit
  | .note record => note record
  | .emit kind text => emit engine kind text
  | .fallBack => count fun metrics => { metrics with fallbacks := metrics.fallbacks + 1 }
  | .push state => push state
  | .pop origin => pop origin
  | .delegate target text offset => delegate engine nested lexer target text offset

/-- Does deeds in order, up to the first that fails. -/
def enactAll (engine : Engine σ) (nested : Option (NestedRun σ)) (lexer : Lexer) :
    List Deed → StepM σ Unit
  | [] => pure ()
  | deed :: rest => do
    enact engine nested lexer deed
    enactAll engine nested lexer rest

/-- What an action does: nothing if its group took no part in the match. -/
def Site.deed? (site : Site) : Action StateId → Option Deed
  | .emit group kind => (site.found.group? group).map fun span => .emit kind (site.slice span)
  | .delegate group target =>
    (site.found.group? group).map fun span =>
      .delegate target (site.slice span) (site.origin + span.start)
  | .push state => some (.push state)
  | .pop => some (.pop site.origin)

/-- What a behaviour does. -/
def Site.deeds (site : Site) : Behavior StateId → List Deed
  | .emit kind => [.emit kind site.whole]
  | .emitAndPush kind state => [.emit kind site.whole, .push state]
  | .emitAndPop kind => [.emit kind site.whole, .pop site.origin]
  | .delegate target => [.delegate target site.whole site.origin]
  | .composite actions => actions.filterMap site.deed?

variable {engine : Engine σ} {nested : Option (NestedRun σ)}

theorem enactAll_append (lexer : Lexer) (first second : List Deed) :
    enactAll engine nested lexer (first ++ second) =
      enactAll engine nested lexer first >>= fun _ => enactAll engine nested lexer second := by
  induction first with
  | nil => exact (pure_bind _ _).symm
  | cons deed rest ih =>
    rw [List.cons_append, enactAll, enactAll, bind_assoc, ih]

theorem actAll_eq_enactAll (site : Site) (actions : List (Action StateId)) :
    actAll engine nested site actions =
      enactAll engine nested site.lexer (actions.filterMap site.deed?) := by
  induction actions with
  | nil => rfl
  | cons action rest ih =>
    rw [actAll, ih]
    cases action with
    | emit group kind | delegate group target =>
      cases part : site.found.group? group <;>
        simp [act, part, Site.deed?, enactAll, enact]
    | push | pop => rfl

/-- A behaviour does its deeds. -/
theorem perform_eq_enactAll (site : Site) (behavior : Behavior StateId) :
    perform engine nested site behavior =
      enactAll engine nested site.lexer (site.deeds behavior) := by
  cases behavior with
  | composite actions => exact actAll_eq_enactAll site actions
  | emit | emitAndPush | emitAndPop | delegate =>
    simp [perform, Site.deeds, enactAll, enact]

/-- Hands a text on to a nested run of the table. -/
def delegateTo (engine : Engine σ) (nested : Option (NestedRun σ)) (lexer : Lexer)
    (text : List Char) (offset : Nat) (table : Table) : StepM σ Unit :=
  match nested with
  | none => throw (.depthExceeded engine.options.maxDepth offset)
  | some nested => do
    note (.delegating lexer.table.language (Text.byteLength text) offset table.language
      (lexer.depth + 1))
    runNested nested { table, depth := lexer.depth + 1, base := offset } text

/-- To hand a text on is to find the table first. -/
theorem delegate_of_ne_nil {lexer : Lexer} {target : Target} {text : List Char}
    (some_text : text ≠ []) (offset : Nat) :
    delegate engine nested lexer target text offset =
      resolve engine lexer target >>= delegateTo engine nested lexer text offset := by
  unfold delegate
  rw [if_neg (by simpa using some_text)]
  refine congrArg _ (funext fun table => ?_)
  cases nested <;> rfl

theorem enact_delegate {lexer : Lexer} {target : Target} {text : List Char} (some_text : text ≠ [])
    (offset : Nat) :
    enact engine nested lexer (.delegate target text offset) =
      resolve engine lexer target >>= delegateTo engine nested lexer text offset :=
  delegate_of_ne_nil some_text offset

theorem stays_enact (lexer : Lexer) (deed : Deed) : Stays (enact engine nested lexer deed) := by
  cases deed with
  | note record => exact (onlyCounts_note record).stays
  | emit kind text => exact (onlyCounts_emit engine kind text).stays
  | fallBack => exact (onlyCounts_count _).stays
  | push state => exact stays_push state
  | pop origin => exact stays_pop origin
  | delegate target text offset => exact (onlyCounts_delegate _ _ _ _ _ _).stays

theorem stays_enactAll (lexer : Lexer) (deeds : List Deed) :
    Stays (enactAll engine nested lexer deeds) := by
  induction deeds with
  | nil => exact .pure ()
  | cons deed rest ih => exact .bind (stays_enact lexer deed) fun _ => ih

/-- A behaviour leaves the cursor where it was, whether it succeeds or fails. -/
theorem stays_perform (site : Site) (behavior : Behavior StateId) :
    Stays (perform engine nested site behavior) := by
  rw [perform_eq_enactAll]
  exact stays_enactAll site.lexer _

theorem stays_carryOut {lexer : Lexer} {state : State} {origin : Nat} {text : List Char}
    {selection : Selection} : Stays (carryOut engine nested lexer state origin text selection) := by
  unfold carryOut
  split
  · exact .bind (onlyCounts_note _).stays fun _ => stays_perform _ _
  · exact stays_perform _ _

end Step

open Step

/-! ### What a step intends -/

/-- What a step is about to do once it has looked at the text ahead. -/
inductive Intent where
  /-- To fail at once. -/
  | fail (error : ScanError)
  /-- To do the deeds and then to move the cursor over so many bytes. -/
  | go (deeds : List Deed) (bytes : Nat)

/-- Where a step carries out its choice of a rule. -/
def Lexer.site (lexer : Lexer) (scan : Scan) (text : List Char) (selection : Selection) : Step.Site :=
  { lexer, origin := lexer.base + scan.cursor, text, found := selection.found }

/-- What a step tells of its choice of a rule. -/
def Lexer.told (lexer : Lexer) (options : Options) (scan : Scan) (text : List Char)
    (selection : Selection) : List Deed :=
  if options.trace then
    [.note (.selected lexer.table.language lexer.depth (lexer.table.state scan.stack.top).name
      (lexer.base + scan.cursor) selection.index selection.rule.source
      (lexer.site scan text selection).whole)]
  else []

/-- What a step from the scan is about to do, before it has done anything. -/
def Lexer.intent (lexer : Lexer) (options : Options) (scan : Scan) (text : List Char) : Intent :=
  let state := lexer.table.state scan.stack.top
  let origin := lexer.base + scan.cursor
  match state.select text with
  | none =>
    match options.stall, text with
    | .strict, _ => .fail (.stall origin state.name)
    | .lenient, [] => .fail (.nothingToSkip origin)
    | .lenient, c :: _ =>
      .go [.note (.skipped lexer.table.language origin state.name [c]), .emit .error [c], .fallBack]
        c.utf8Size
  | some selection =>
    .go (lexer.told options scan text selection ++
        (lexer.site scan text selection).deeds selection.rule.behavior)
      selection.found.length

variable {σ : Type} {engine : Engine σ} {nested : Option (NestedRun σ)} {lexer : Lexer}

/-- Carries out an intent. -/
def Intent.carryOut (engine : Engine σ) (nested : Option (NestedRun σ)) (lexer : Lexer) :
    Intent → StepM σ Unit
  | fail error => throw error
  | go deeds bytes => do
    enactAll engine nested lexer deeds
    changeScan (·.advance bytes)

theorem Step.carryOut_eq_enactAll {run : Run σ} {text : List Char} {selection : Selection} :
    carryOut engine nested lexer (lexer.table.state run.scan.stack.top)
        (lexer.base + run.scan.cursor) text selection =
      enactAll engine nested lexer (lexer.told engine.options run.scan text selection ++
        (lexer.site run.scan text selection).deeds selection.rule.behavior) := by
  unfold carryOut Lexer.told
  rw [enactAll_append]
  by_cases traced : engine.options.trace
  · simp only [if_pos traced, enactAll, enact, bind_assoc, pure_bind]
    exact congrArg _ (funext fun _ => perform_eq_enactAll _ _)
  · simp only [if_neg traced, enactAll, pure_bind]
    exact perform_eq_enactAll _ _

/-- A step counts itself and carries out its intent. -/
theorem step_eq_carryOut {run : Run σ} {text : List Char} (ahead : run.scan.ahead = some text) :
    step engine nested lexer run =
      (lexer.intent engine.options run.scan text).carryOut engine nested lexer run.counted := by
  rw [step_of_ahead ahead]
  unfold Lexer.intent
  dsimp only
  cases (lexer.table.state run.scan.stack.top).select text with
  | some selection =>
    dsimp only
    rw [follow_eq, carryOut_eq_enactAll]
    rfl
  | none =>
    dsimp only
    unfold Step.stall
    cases engine.options.stall with
    | strict => rfl
    | lenient =>
      cases text with
      | nil => rfl
      | cons c rest => simp only [Intent.carryOut, enactAll, enact, bind_assoc, pure_bind]

/-- A step inside a character fails. -/
theorem step_of_ahead_none {run : Run σ} (inside : run.scan.ahead = none) :
    step engine nested lexer run = .error (.insideCharacter (lexer.base + run.scan.cursor)) run := by
  have reads : (get : StepM σ (Run σ)) run = .ok run run := rfl
  unfold step
  simp only [bind, EStateM.bind, reads, inside]
  rfl

variable {options : Options} {scan : Scan} {text : List Char}

/-- A step intends to move the cursor over one byte at least. -/
theorem Lexer.pos_of_intent {deeds : List Deed} {bytes : Nat}
    (intent : lexer.intent options scan text = .go deeds bytes) : 0 < bytes := by
  unfold Lexer.intent at intent
  dsimp only at intent
  split at intent
  · split at intent
    · cases intent
    · cases intent
    · cases intent
      exact Char.utf8Size_pos _
  · rename_i selection chosen
    cases intent
    exact Nat.pos_of_ne_zero (exists_of_select chosen).2.2

/-- A step intends to fail only where no rule is chosen: with a stall under the strict policy, and at the
end of the text. -/
theorem Lexer.exists_of_intent_fail {error : ScanError}
    (intent : lexer.intent options scan text = .fail error) :
    (lexer.table.state scan.stack.top).select text = none ∧
      (options.stall = .strict ∧
          error = .stall (lexer.base + scan.cursor) (lexer.table.state scan.stack.top).name ∨
        text = [] ∧ error = .nothingToSkip (lexer.base + scan.cursor)) := by
  unfold Lexer.intent at intent
  dsimp only at intent
  split at intent
  · rename_i stalled
    split at intent
    · rename_i policy
      cases intent
      exact ⟨stalled, .inl ⟨policy, rfl⟩⟩
    · cases intent
      exact ⟨stalled, .inr ⟨rfl, rfl⟩⟩
    · cases intent
  · cases intent

/-- A deed that is neither a record nor a token for a skipped character is one of the behaviour of the
chosen rule. -/
theorem Lexer.exists_of_deed_mem {deeds : List Deed} {bytes : Nat} {deed : Deed}
    (intent : lexer.intent options scan text = .go deeds bytes) (member : deed ∈ deeds)
    (no_record : ∀ record, deed ≠ .note record) (no_token : ∀ kind text, deed ≠ .emit kind text)
    (no_count : deed ≠ .fallBack) :
    ∃ selection, (lexer.table.state scan.stack.top).select text = some selection ∧
      deed ∈ (lexer.site scan text selection).deeds selection.rule.behavior := by
  unfold Lexer.intent at intent
  dsimp only at intent
  split at intent
  · split at intent
    · cases intent
    · cases intent
    · cases intent
      simp only [List.mem_cons, List.not_mem_nil, or_false] at member
      rcases member with record | token | count
      · exact absurd record (no_record _)
      · exact absurd token (no_token _ _)
      · exact absurd count no_count
  · rename_i selection chosen
    cases intent
    refine ⟨selection, chosen, (List.mem_append.mp member).resolve_left fun told => ?_⟩
    unfold Lexer.told at told
    split at told
    · exact no_record _ (List.mem_singleton.mp told)
    · cases told

/-- What a behaviour leaves its state with is the position of the match. -/
theorem Step.Site.origin_of_pop_mem {site : Step.Site} {behavior : Behavior StateId} {origin : Nat}
    (pops : .pop origin ∈ site.deeds behavior) : origin = site.origin := by
  cases behavior with
  | emit | emitAndPush | delegate => simp [deeds] at pops
  | emitAndPop kind =>
    simp only [deeds, List.mem_cons, reduceCtorEq, Deed.pop.injEq, List.not_mem_nil, or_false,
      false_or] at pops
    exact pops
  | composite actions =>
    obtain ⟨action, _, same⟩ := List.mem_filterMap.mp pops
    cases action with
    | pop => cases same; rfl
    | push => cases same
    | emit group kind | delegate group target =>
      obtain ⟨_, _, other⟩ := Option.map_eq_some_iff.mp same
      cases other

/-! ### How a step moves the cursor -/

/-- A step that succeeds moves the cursor over one byte at least. -/
theorem moves_step {run next : Run σ} (stepped : step engine nested lexer run = .ok () next) :
    ∃ bytes, 0 < bytes ∧ next.scan.cursor = run.scan.cursor + bytes ∧
      next.scan.ahead = run.scan.ahead.bind (Text.dropBytes? · bytes) := by
  cases ahead : run.scan.ahead with
  | none => rw [step_of_ahead_none ahead] at stepped; cases stepped
  | some text =>
    rw [step_eq_carryOut ahead] at stepped
    cases intent : lexer.intent engine.options run.scan text with
    | fail error => rw [intent] at stepped; cases stepped
    | go deeds bytes =>
      rw [intent] at stepped
      obtain ⟨_, middle, done, moved⟩ := bind_eq_ok_iff.mp stepped
      have stays : Stays (enactAll engine nested lexer deeds) := stays_enactAll lexer deeds
      have place := stays run.counted
      rw [done] at place
      have same : middle.scan.ahead = some text := place.2.trans ahead
      cases moved
      refine ⟨bytes, Lexer.pos_of_intent intent, congrArg (· + bytes) place.1, ?_⟩
      show middle.scan.ahead.bind (Text.dropBytes? · bytes) = _
      rw [same]

end TableLexer
