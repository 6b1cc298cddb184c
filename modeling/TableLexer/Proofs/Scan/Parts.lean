/-
**The parts of a step.**

What a step of a scan is made of, one fact for each part:

* `exists_of_select`: the rule that a state chooses is one of its rules and matches more than nothing.
* `length_eq_zero_of_select`: where it chooses none, its rules match nothing or the empty text.
* `onlyCounts_delegate`: to hand a text on changes nothing of the scan but its counters.
* `stays_skip`: what is done for a character that is skipped leaves the cursor where it was.
* `follow_eq`, `stall_eq_skip`: what moves the cursor does so last.
* `whole_of_find?`: a match that starts at the cursor is a first part of the text.
* `step_of_ahead`: a step carries out the choice of the topmost state, or stalls.
-/

import TableLexer.Proofs.Pattern.Leads
import TableLexer.Proofs.Text.Cuts
import TableLexer.Scan.Run

namespace TableLexer

/-! ### The choice of a rule -/

/-- All rules of the table. -/
def Table.rules (table : Table) : List Rule := table.states.flatMap State.rules

theorem Table.mem_rules {table : Table} {id : StateId} {rule : Rule}
    (member : rule ∈ (table.state id).rules) : rule ∈ table.rules := by
  unfold Table.state at member
  rw [List.getD_eq_getElem?_getD] at member
  cases declared : table.states[id.index]? with
  | none => simp [declared] at member
  | some state =>
    rw [declared] at member
    exact List.mem_flatMap.mpr ⟨state, List.mem_of_getElem? declared, member⟩

theorem exists_of_selectFrom {text : List Char} {index : Nat} {rules : List Rule}
    {selection : Selection} (chosen : selectFrom text index rules = some selection) :
    selection.rule ∈ rules ∧ selection.rule.regex.find? text = some selection.found ∧
      selection.found.length ≠ 0 := by
  induction rules generalizing index with
  | nil => simp [selectFrom] at chosen
  | cons rule rest ih =>
    have later (chosen : selectFrom text (index + 1) rest = some selection) :
        selection.rule ∈ rule :: rest ∧ selection.rule.regex.find? text = some selection.found ∧
          selection.found.length ≠ 0 := by
      obtain ⟨member, found, longer⟩ := ih chosen
      exact ⟨List.mem_cons_of_mem rule member, found, longer⟩
    rw [selectFrom] at chosen
    split at chosen
    · exact later chosen
    · rename_i found here
      split at chosen
      · exact later chosen
      · rename_i longer
        cases chosen
        exact ⟨List.mem_cons_self, here, longer⟩

/-- The rule that a state chooses is one of its rules and matches more than nothing. -/
theorem exists_of_select {state : State} {text : List Char} {selection : Selection}
    (chosen : state.select text = some selection) :
    selection.rule ∈ state.rules ∧ selection.rule.regex.find? text = some selection.found ∧
      selection.found.length ≠ 0 :=
  exists_of_selectFrom chosen

/-- Where a state chooses no rule, its rules match nothing, or the empty text. -/
theorem length_eq_zero_of_select {state : State} {text : List Char} (stalled : state.select text = none) :
    ∀ rule ∈ state.rules, ∀ found, rule.regex.find? text = some found → found.length = 0 := by
  have all (index : Nat) (rules : List Rule) (stalled : selectFrom text index rules = none) :
      ∀ rule ∈ rules, ∀ found, rule.regex.find? text = some found → found.length = 0 := by
    induction rules generalizing index with
    | nil => exact nofun
    | cons rule rest ih =>
      rw [selectFrom] at stalled
      refine List.forall_mem_cons.mpr ?_
      split at stalled
      · rename_i nowhere
        exact ⟨fun found here => (nomatch nowhere.symm.trans here), ih _ stalled⟩
      · rename_i first there
        split at stalled
        · rename_i empty
          exact ⟨fun found here => Option.some.inj (there.symm.trans here) ▸ empty, ih _ stalled⟩
        · cases stalled
  exact all 0 state.rules stalled

/-! ### Delegation -/

/-- The language that the action hands text to. -/
def Action.target? {State : Type} : Action State → Option Target
  | .delegate _ target => some target
  | _ => none

/-- The languages that the behaviour hands text to. -/
def Behavior.targets {State : Type} : Behavior State → List Target
  | .delegate target => [target]
  | .composite actions => actions.filterMap Action.target?
  | _ => []

/-! ### Kinds -/

/-- The kind of the token that the action makes itself. -/
def Action.kind? {State : Type} : Action State → Option Kind
  | .emit _ kind => some kind
  | _ => none

/-- The kinds of the tokens that the behaviour makes itself. -/
def Behavior.kinds {State : Type} : Behavior State → List Kind
  | .emit kind | .emitAndPush kind _ | .emitAndPop kind => [kind]
  | .delegate _ => []
  | .composite actions => actions.filterMap Action.kind?

namespace Step

variable {σ α β : Type}

/-! ### What a behaviour leaves as it was -/

/-- Where a part of a step ends, whether it succeeds or fails. -/
def endOf : EStateM.Result ScanError (Run σ) α → Run σ
  | .ok _ run | .error _ run => run

/-- With which error the part of a step ended, if with any, and with which scan. -/
def ending : EStateM.Result ScanError (Run σ) α → Option ScanError × Scan
  | .ok _ run => (none, run.scan)
  | .error error run => (some error, run.scan)

theorem exists_of_ending {result : EStateM.Result ScanError (Run σ) α} {error : ScanError}
    (ends : (ending result).1 = some error) : ∃ run, result = .error error run := by
  cases result with
  | ok => cases ends
  | error other run =>
    cases ends
    exact ⟨run, rfl⟩

/-- The cursor stands at the same place of the same text. -/
def SamePlace (run other : Run σ) : Prop :=
  other.scan.cursor = run.scan.cursor ∧ other.scan.ahead = run.scan.ahead

/-- The part leaves the cursor where it is. -/
def Stays (part : StepM σ α) : Prop := ∀ run, SamePlace run (endOf (part run))

theorem SamePlace.refl (run : Run σ) : SamePlace run run := ⟨rfl, rfl⟩

theorem SamePlace.trans {run middle last : Run σ} (one : SamePlace run middle)
    (other : SamePlace middle last) : SamePlace run last :=
  ⟨other.1.trans one.1, other.2.trans one.2⟩

theorem Stays.pure (a : α) : Stays (pure a : StepM σ α) := fun run => .refl run

theorem Stays.bind {part : StepM σ α} {rest : α → StepM σ β} (one : Stays part)
    (other : ∀ a, Stays (rest a)) : Stays (part >>= rest) := by
  intro run
  have first := one run
  show SamePlace run (endOf (EStateM.bind part rest run))
  unfold EStateM.bind
  generalize part run = result at first
  cases result with
  | ok a middle => exact first.trans (other a middle)
  | error => exact first

theorem stays_push (state : StateId) : Stays (push state : StepM σ Unit) := fun _ => ⟨rfl, rfl⟩

theorem stays_pop (origin : Nat) : Stays (pop origin : StepM σ Unit) := by
  intro run
  unfold pop
  split
  · exact .refl run
  · exact ⟨rfl, rfl⟩

/-- The part changes nothing of the scan but its counters. -/
def OnlyCounts (part : StepM σ α) : Prop :=
  ∀ run, ∃ metrics, (endOf (part run)).scan = { run.scan with metrics }

theorem OnlyCounts.stays {part : StepM σ α} (counts : OnlyCounts part) : Stays part := by
  intro run
  obtain ⟨metrics, same⟩ := counts run
  unfold SamePlace
  rw [same]
  exact ⟨rfl, rfl⟩

theorem OnlyCounts.of_same {part : StepM σ α} (same : ∀ run, (endOf (part run)).scan = run.scan) :
    OnlyCounts part := fun run => ⟨run.scan.metrics, same run⟩

theorem OnlyCounts.bind {part : StepM σ α} {rest : α → StepM σ β} (one : OnlyCounts part)
    (other : ∀ a, OnlyCounts (rest a)) : OnlyCounts (part >>= rest) := by
  intro run
  obtain ⟨counted, first⟩ := one run
  show ∃ metrics, (endOf (EStateM.bind part rest run)).scan = _
  unfold EStateM.bind
  generalize part run = result at first
  cases result with
  | ok a middle =>
    obtain ⟨metrics, second⟩ := other a middle
    refine ⟨metrics, second.trans ?_⟩
    show { middle.scan with metrics } = _
    rw [show middle.scan = _ from first]
  | error => exact ⟨counted, first⟩

theorem onlyCounts_count (change : Metrics → Metrics) : OnlyCounts (count change : StepM σ Unit) :=
  fun run => ⟨change run.scan.metrics, rfl⟩

theorem onlyCounts_note (record : Record) : OnlyCounts (note record : StepM σ Unit) :=
  .of_same fun _ => rfl

theorem onlyCounts_emit (engine : Engine σ) (kind : Kind) (text : List Char) :
    OnlyCounts (emit engine kind text) := by
  unfold emit
  split
  · exact .of_same fun _ => rfl
  · refine .bind (.of_same fun run => ?_) fun _ => onlyCounts_count _
    dsimp only
    split <;> rfl

/-- To look a table up changes nothing of the scan. -/
theorem scan_of_resolve (engine : Engine σ) (lexer : Lexer) (target : Target) (run : Run σ) :
    (endOf (resolve engine lexer target run)).scan = run.scan := by
  cases target with
  | current => rfl
  | named language =>
    unfold resolve
    dsimp only
    split <;> rfl

theorem onlyCounts_resolve (engine : Engine σ) (lexer : Lexer) (target : Target) :
    OnlyCounts (resolve engine lexer target) :=
  .of_same (scan_of_resolve engine lexer target)

theorem onlyCounts_runNested (nested : NestedRun σ) (child : Lexer) (text : List Char) :
    OnlyCounts (runNested nested child text) := by
  intro run
  unfold runNested
  dsimp only
  split <;> exact ⟨_, rfl⟩

theorem onlyCounts_delegate (engine : Engine σ) (nested : Option (NestedRun σ)) (lexer : Lexer)
    (target : Target) (text : List Char) (offset : Nat) :
    OnlyCounts (delegate engine nested lexer target text offset) := by
  unfold delegate
  split
  · exact .of_same fun _ => rfl
  · refine .bind (onlyCounts_resolve engine lexer target) fun table => ?_
    split
    · exact .of_same fun _ => rfl
    · exact .bind (onlyCounts_note _) fun _ => onlyCounts_runNested _ _ _

/-! ### What a step does before it moves the cursor -/

/-- What a step does for its choice, up to the move of the cursor. -/
def carryOut (engine : Engine σ) (nested : Option (NestedRun σ)) (lexer : Lexer) (state : State)
    (origin : Nat) (text : List Char) (selection : Selection) : StepM σ Unit := do
  let site : Site := { lexer, origin, text, found := selection.found }
  if engine.options.trace then
    note (.selected lexer.table.language lexer.depth state.name origin selection.index
      selection.rule.source site.whole)
  perform engine nested site selection.rule.behavior

/-- What a step does for a character that it skips, up to the move of the cursor. -/
def skip (engine : Engine σ) (lexer : Lexer) (state : State) (origin : Nat) (c : Char) :
    StepM σ Unit := do
  note (.skipped lexer.table.language origin state.name [c])
  emit engine .error [c]
  count fun metrics => { metrics with fallbacks := metrics.fallbacks + 1 }

variable {engine : Engine σ} {nested : Option (NestedRun σ)} {lexer : Lexer} {state : State}
  {origin : Nat}

theorem follow_eq {text : List Char} {selection : Selection} :
    follow engine nested lexer state origin text selection =
      carryOut engine nested lexer state origin text selection >>= fun _ =>
        changeScan (·.advance selection.found.length) := by
  unfold follow carryOut
  by_cases traced : engine.options.trace
  · rw [if_pos traced, if_pos traced, bind_assoc]
  · rw [if_neg traced, if_neg traced]

theorem stall_eq_skip (lenient : engine.options.stall = .lenient) {c : Char} {rest : List Char} :
    stall engine lexer state origin (c :: rest) =
      skip engine lexer state origin c >>= fun _ => changeScan (·.advance c.utf8Size) := by
  unfold stall skip
  rw [lenient]
  simp only [bind_assoc]

theorem stays_skip {c : Char} : Stays (skip engine lexer state origin c) :=
  .bind (onlyCounts_note _).stays fun _ =>
    .bind (onlyCounts_emit _ _ _).stays fun _ => (onlyCounts_count _).stays

end Step

/-! ### Slices of the text -/

/-- Where a span begins at the end of a first part of the text, its slice comes next. -/
theorem Step.slice_of_within {site : Site} {front rest : List Char}
    (here : site.text = front ++ rest) {span : Pattern.Span} (within : span.Within site.text)
    (starts : span.start = Text.byteLength front) :
    ∃ last, rest = site.slice span ++ last ∧
      span.stop = Text.byteLength (front ++ site.slice span) := by
  obtain ⟨first, middle, last, whole, start, stop⟩ := within
  obtain ⟨fronts, rests⟩ :=
    Text.eq_of_byteLength_eq (here.symm.trans whole) (starts.symm.trans start)
  have slice : site.slice span = middle := by
    show Text.slice site.text span.start span.stop = middle
    rw [start, stop, whole, Text.slice_append]
  exact ⟨last, by rw [slice, rests], by rw [slice, stop, fronts, Text.byteLength_append]⟩

/-- A match that starts at the cursor is a first part of the text. -/
theorem Step.whole_of_find? (site : Site) {regex : Pattern.Regex}
    (find?_found : regex.find? site.text = some site.found) (starts : site.found.span.start = 0) :
    ∃ last, site.text = site.whole ++ last ∧ site.found.length = Text.byteLength site.whole := by
  have whole : site.found.span.Within site.text := regex.within_of_find? find?_found 0 _ rfl
  obtain ⟨last, split, stops⟩ := slice_of_within (List.nil_append _).symm whole starts
  refine ⟨last, split, ?_⟩
  unfold Pattern.Match.length
  rw [starts, stops]
  rfl

/-! ### A step as a whole -/

/-- A scan that is not done has some text ahead, unless it stands inside a character. -/
theorem Scan.ne_nil_of_ahead {scan : Scan} {text : List Char} (ahead : scan.ahead = some text)
    (unfinished : scan.isDone = false) : text ≠ [] := by
  rintro rfl
  unfold isDone at unfinished
  rw [ahead] at unfinished
  cases unfinished

variable {σ : Type}

/-- The run with one more step counted. -/
def Run.counted (run : Run σ) : Run σ :=
  { run with scan := run.scan.count fun metrics => { metrics with steps := metrics.steps + 1 } }

/-- A step carries out the choice of the topmost state, or stalls. -/
theorem step_of_ahead {engine : Engine σ} {nested : Option (NestedRun σ)} {lexer : Lexer}
    {run : Run σ} {text : List Char} (ahead : run.scan.ahead = some text) :
    step engine nested lexer run =
      match (lexer.table.state run.scan.stack.top).select text with
      | none =>
        Step.stall engine lexer (lexer.table.state run.scan.stack.top)
          (lexer.base + run.scan.cursor) text run.counted
      | some selection =>
        Step.follow engine nested lexer (lexer.table.state run.scan.stack.top)
          (lexer.base + run.scan.cursor) text selection run.counted := by
  have reads : (get : StepM σ (Run σ)) run = .ok run run := rfl
  have counts : (Step.count fun metrics => { metrics with steps := metrics.steps + 1 } : StepM σ Unit)
      run = .ok () run.counted := rfl
  unfold step
  simp only [bind, EStateM.bind, reads, ahead, counts]
  cases (lexer.table.state run.scan.stack.top).select text <;> rfl

end TableLexer
