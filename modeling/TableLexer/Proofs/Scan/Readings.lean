/-
**How a table reads a text.**

A run that succeeds reads its text as tokens, piece by piece: each piece is taken by the rule that the topmost
state chooses and yields what the deeds of this rule yield, or it is a character that is skipped. What a
nested run yields is spliced in as a whole. So what is closed under such readings holds of every run that
succeeds, at every depth.

* `Table.Reads`, `Table.Turn`: a table reads a text, from a stack of states on, as tokens, turn by turn.
* `exists_of_enactAll`, `exists_turn_of_step`, `reads_driveWith`: what is added to the tokens that were
  collected before.
* `reads_of_drive`: what is closed under readings holds of the text and the tokens of every run.
-/

import TableLexer.Proofs.Scan.Replayed

namespace TableLexer

open Step

/-! ### What deeds yield -/

/-- The tokens for a piece of text: none if it is empty. -/
def Token.ofPiece (kind : Kind) (text : List Char) : List Token :=
  if text.isEmpty then [] else [⟨kind, String.ofList text⟩]

theorem Token.ofPiece_of_ne_nil {text : List Char} (some_text : text ≠ []) (kind : Kind) :
    ofPiece kind text = [⟨kind, String.ofList text⟩] :=
  if_neg (by simpa using some_text)

theorem Token.mem_ofPiece_iff {kind : Kind} {text : List Char} {token : Token} :
    token ∈ ofPiece kind text ↔ text ≠ [] ∧ token = ⟨kind, String.ofList text⟩ := by
  by_cases nothing : text = []
  · simp [nothing, ofPiece]
  · simp [ofPiece_of_ne_nil nothing, nothing]

/-- The token for a piece of text, if there is one. -/
theorem Token.eq_of_mem_ofPiece {kind : Kind} {text : List Char} {token : Token}
    (member : token ∈ ofPiece kind text) : text ≠ [] ∧ token = ⟨kind, String.ofList text⟩ :=
  mem_ofPiece_iff.mp member

/-- The deed yields the tokens, where nested runs read texts as tokens. -/
def Deed.Yields (inner : List Char → List Token → Prop) : Deed → List Token → Prop
  | .emit kind text, tokens => tokens = Token.ofPiece kind text
  | .delegate _ text _, tokens => text = [] ∧ tokens = [] ∨ text ≠ [] ∧ inner text tokens
  | .note _, tokens | .fallBack, tokens | .push _, tokens | .pop _, tokens => tokens = []

/-- The deeds yield the tokens, one after another. -/
def Deed.YieldAll (inner : List Char → List Token → Prop) : List Deed → List Token → Prop
  | [], tokens => tokens = []
  | deed :: rest, tokens =>
    ∃ first others, tokens = first ++ others ∧ deed.Yields inner first ∧ YieldAll inner rest others

/-- A token that deeds yield is one of a deed. -/
theorem Deed.exists_of_mem_yieldAll {inner : List Char → List Token → Prop} {deeds : List Deed}
    {tokens : List Token} (yields : YieldAll inner deeds tokens) {token : Token} (member : token ∈ tokens) :
    ∃ deed ∈ deeds, ∃ own, deed.Yields inner own ∧ token ∈ own := by
  induction deeds generalizing tokens with
  | nil =>
    have nothing : tokens = [] := yields
    simp [nothing] at member
  | cons deed rest later =>
    obtain ⟨first, others, rfl, own, further⟩ := yields
    rcases List.mem_append.mp member with here | there
    · exact ⟨deed, List.mem_cons_self, first, own, here⟩
    · obtain ⟨other, among, found⟩ := later further there
      exact ⟨other, List.mem_cons_of_mem deed among, found⟩

/-- A behaviour that hands nothing on makes tokens of its own kinds only. -/
theorem Step.Site.kind_mem_of_yieldAll {inner : List Char → List Token → Prop} (site : Site)
    {behavior : Behavior StateId} (alone : behavior.targets = []) {tokens : List Token}
    (yields : Deed.YieldAll inner (site.deeds behavior) tokens) :
    ∀ token ∈ tokens, token.kind ∈ behavior.kinds := by
  intro token member
  obtain ⟨deed, among, own, yielded, here⟩ := Deed.exists_of_mem_yieldAll yields member
  cases deed with
  | note | fallBack | push | pop =>
    have nothing : own = [] := yielded
    simp [nothing] at here
  | delegate target text offset =>
    have hands : target ∈ behavior.targets := by
      cases behavior with
      | composite actions =>
        obtain ⟨action, listed, does⟩ := List.mem_filterMap.mp among
        refine List.mem_filterMap.mpr ⟨action, listed, ?_⟩
        cases action with
        | delegate =>
          obtain ⟨span, _, same⟩ := Option.map_eq_some_iff.mp does
          cases same
          rfl
        | emit | push | pop => simp [deed?] at does
      | _ => simp_all [deeds, Behavior.targets]
    simp [alone] at hands
  | emit kind text =>
    rw [show own = Token.ofPiece kind text from yielded] at here
    rw [(Token.eq_of_mem_ofPiece here).2]
    cases behavior with
    | composite actions =>
      obtain ⟨action, listed, does⟩ := List.mem_filterMap.mp among
      refine List.mem_filterMap.mpr ⟨action, listed, ?_⟩
      cases action with
      | emit =>
        obtain ⟨span, _, same⟩ := Option.map_eq_some_iff.mp does
        cases same
        rfl
      | delegate | push | pop => simp [deed?] at does
    | _ => simp_all [deeds, Behavior.kinds]

/-- The deed hands text to the table of its own run only. -/
def Deed.StaysHome : Deed → Prop
  | .delegate target _ _ => target = .current
  | .note _ | .emit .. | .fallBack | .push _ | .pop _ => True

/-- The tokens that were collected. -/
def Run.tokens (run : Run Collector) : List Token := run.world.sink.tokens.toList

/-- Nested runs of the table that succeed add what their texts are read as. -/
def NestedReads (table : Table) (inner : List Char → List Token → Prop)
    (nested : Option (NestedRun Collector)) : Prop :=
  ∀ run ∈ nested, ∀ (child : Lexer) text (world : World Collector) ended, child.table = table →
    run child text world = .ok () ended →
      ∃ tokens, ended.tokens = world.sink.tokens.toList ++ tokens ∧ inner text tokens

section Deeds

variable {inner : List Char → List Token → Prop} {registry : Registry} {options : Options}
  {nested : Option (NestedRun Collector)} {lexer : Lexer} {run next : Run Collector}

theorem tokens_of_emit {kind : Kind} {text : List Char}
    (sent : emit (.collecting registry options) kind text run = .ok () next) :
    next.tokens = run.tokens ++ Token.ofPiece kind text := by
  unfold emit at sent
  unfold Token.ofPiece
  split at sent
  · rename_i nothing
    cases sent
    rw [if_pos nothing, List.append_nil]
  · rename_i something
    obtain ⟨_, middle, taken, counted⟩ := bind_eq_ok_iff.mp sent
    cases counted
    rw [if_neg something]
    by_cases room : run.world.sink.hasRoom
    · simp only [Engine.collecting, Collector.emitter, if_pos room] at taken
      cases taken
      exact Array.toList_push
    · simp only [Engine.collecting, Collector.emitter, if_neg room] at taken
      cases taken

theorem exists_of_delegate (reads : NestedReads lexer.table inner nested) {text : List Char} {offset : Nat}
    (some_text : text ≠ [])
    (handed : delegate (.collecting registry options) nested lexer .current text offset run = .ok () next) :
    ∃ tokens, next.tokens = run.tokens ++ tokens ∧ inner text tokens := by
  rw [delegate_of_ne_nil some_text, resolve, pure_bind] at handed
  cases nested with
  | none => cases handed
  | some nested =>
    obtain ⟨_, told, noted, ran⟩ := bind_eq_ok_iff.mp handed
    cases noted
    unfold runNested at ran
    dsimp only at ran
    split at ran
    · rename_i ended succeeded
      cases ran
      have added := reads nested rfl ⟨lexer.table, lexer.depth + 1, offset⟩ text _ ended rfl succeeded
      exact added
    · cases ran

/-- A deed that succeeds adds what it yields. -/
theorem exists_of_enact (reads : NestedReads lexer.table inner nested) {deed : Deed}
    (home : deed.StaysHome)
    (done : enact (.collecting registry options) nested lexer deed run = .ok () next) :
    ∃ tokens, next.tokens = run.tokens ++ tokens ∧ deed.Yields inner tokens := by
  cases deed with
  | note | fallBack | push =>
    cases done
    exact ⟨[], (List.append_nil _).symm, rfl⟩
  | pop origin =>
    have left : pop origin run = .ok () next := done
    unfold pop at left
    split at left
    · cases left
    · cases left
      exact ⟨[], (List.append_nil _).symm, rfl⟩
  | emit kind text => exact ⟨_, tokens_of_emit done, rfl⟩
  | delegate target text offset =>
    obtain rfl : target = .current := home
    by_cases nothing : text = []
    · subst nothing
      cases done
      exact ⟨[], (List.append_nil _).symm, .inl ⟨rfl, rfl⟩⟩
    · obtain ⟨tokens, added, read⟩ := exists_of_delegate reads nothing done
      exact ⟨tokens, added, .inr ⟨nothing, read⟩⟩

/-- Deeds that succeed add what they yield. -/
theorem exists_of_enactAll (reads : NestedReads lexer.table inner nested) {deeds : List Deed}
    (home : ∀ deed ∈ deeds, deed.StaysHome)
    (done : enactAll (.collecting registry options) nested lexer deeds run = .ok () next) :
    ∃ tokens, next.tokens = run.tokens ++ tokens ∧ Deed.YieldAll inner deeds tokens := by
  induction deeds generalizing run with
  | nil =>
    cases done
    exact ⟨[], (List.append_nil _).symm, rfl⟩
  | cons deed rest ih =>
    obtain ⟨_, middle, one, others⟩ := bind_eq_ok_iff.mp done
    obtain ⟨first, added, yields⟩ := exists_of_enact reads (home deed List.mem_cons_self) one
    obtain ⟨more, further, yield⟩ :=
      ih (fun other member => home other (List.mem_cons_of_mem deed member)) others
    exact ⟨first ++ more, by rw [further, added, List.append_assoc], first, more, rfl, yields, yield⟩

/-- Deeds that succeed make all their moves. -/
theorem movesOfDeeds_of_ok {σ : Type} {engine : Engine σ} {nested : Option (NestedRun σ)}
    {deeds : List Deed} {run next : Run σ} (done : enactAll engine nested lexer deeds run = .ok () next) :
    movesOfDeeds engine nested lexer deeds run = deeds.filterMap Deed.move? := by
  induction deeds generalizing run with
  | nil => rfl
  | cons deed rest ih =>
    obtain ⟨_, middle, one, others⟩ := bind_eq_ok_iff.mp done
    rw [movesOfDeeds, one]
    dsimp only
    rw [ih others, List.filterMap_cons]
    cases deed.move? <;> rfl

theorem replay?_of_enactAll {σ : Type} {engine : Engine σ} {nested : Option (NestedRun σ)}
    {deeds : List Deed} {run next : Run σ} (done : enactAll engine nested lexer deeds run = .ok () next) :
    run.scan.stack.replay? (deeds.filterMap Deed.move?) = some next.scan.stack := by
  have replays : Replays (enactAll engine nested lexer deeds) (movesOfDeeds engine nested lexer deeds) :=
    replays_enactAll deeds
  have replayed := replays run
  rwa [movesOfDeeds_of_ok done, done] at replayed

end Deeds

/-! ### Readings -/

/-- All patterns of the table match at the cursor only, and it hands text to itself only. -/
structure Table.SelfContained (table : Table) : Prop where
  anchored : ∀ rule ∈ table.rules, rule.regex.anchored = true
  current : ∀ rule ∈ table.rules, ∀ target ∈ rule.behavior.targets, target = .current

/-- At the site the rule takes a piece of the text, yields the tokens and makes the moves. -/
structure Rule.Takes (rule : Rule) (inner : List Char → List Token → Prop) (site : Site)
    (piece rest : List Char) (tokens : List Token) (moves : List StackMove) : Prop where
  some_piece : piece ≠ []
  text : site.text = piece ++ rest
  found : rule.regex.find? (piece ++ rest) = some site.found
  length : site.found.length = Text.byteLength piece
  yields : Deed.YieldAll inner (site.deeds rule.behavior) tokens
  moves : (site.deeds rule.behavior).filterMap Deed.move? = moves

namespace Rule.Takes

variable {rule : Rule} {inner : List Char → List Token → Prop} {site : Site} {piece rest : List Char}
  {tokens : List Token} {moves : List StackMove}

theorem found_here (takes : rule.Takes inner site piece rest tokens moves) :
    rule.regex.find? site.text = some site.found :=
  takes.text ▸ takes.found

/-- What the rule comes to, by its behaviour. -/
theorem comes_to (takes : rule.Takes inner site piece rest tokens moves)
    {behavior : Behavior StateId} (behaves : rule.behavior = behavior) :
    Deed.YieldAll inner (site.deeds behavior) tokens ∧
      (site.deeds behavior).filterMap Deed.move? = moves :=
  behaves ▸ ⟨takes.yields, takes.moves⟩

/-- The piece is the whole match. -/
theorem whole_eq (takes : rule.Takes inner site piece rest tokens moves)
    (anchored : rule.regex.anchored = true) : site.whole = piece := by
  obtain ⟨last, split, length⟩ :=
    whole_of_find? site takes.found_here (Pattern.Regex.start_of_find? anchored takes.found_here)
  have same : site.whole ++ last = piece ++ rest := split.symm.trans takes.text
  exact (Text.eq_of_byteLength_eq same (length.symm.trans takes.length)).1

end Rule.Takes

/-- The table reads the text, from the stack on, as the tokens. -/
inductive Table.Reads (table : Table) (policy : StallPolicy) (inner : List Char → List Token → Prop) :
    StateStack → List Char → List Token → Prop where
  | nothing (stack : StateStack) : Reads table policy inner stack [] []
  /-- The chosen rule takes a piece. -/
  | rule {stack next : StateStack} {piece rest : List Char} {selection : Selection} {site : Site}
      {tokens more : List Token} {moves : List StackMove}
      (chosen : (table.state stack.top).select (piece ++ rest) = some selection)
      (takes : selection.rule.Takes inner site piece rest tokens moves)
      (moved : stack.replay? moves = some next) (further : Reads table policy inner next rest more) :
      Reads table policy inner stack (piece ++ rest) (tokens ++ more)
  /-- A character is skipped. -/
  | skip {stack : StateStack} {c : Char} {rest : List Char} {more : List Token}
      (lenient : policy = .lenient) (stalled : (table.state stack.top).select (c :: rest) = none)
      (further : Reads table policy inner stack rest more) :
      Reads table policy inner stack (c :: rest) (⟨.error, String.ofList [c]⟩ :: more)

/-- One turn of a reading: what it yields, the text that it leaves, and the stack to which it leads. -/
inductive Table.Turn (table : Table) (policy : StallPolicy) (inner : List Char → List Token → Prop)
    (stack : StateStack) : List Char → List Token → List Char → StateStack → Prop where
  /-- The chosen rule takes a piece. -/
  | rule {next : StateStack} {piece rest : List Char} {selection : Selection} {site : Site}
      {tokens : List Token} {moves : List StackMove}
      (chosen : (table.state stack.top).select (piece ++ rest) = some selection)
      (takes : selection.rule.Takes inner site piece rest tokens moves)
      (moved : stack.replay? moves = some next) :
      Turn table policy inner stack (piece ++ rest) tokens rest next
  /-- A character is skipped. -/
  | skip {c : Char} {rest : List Char} (lenient : policy = .lenient)
      (stalled : (table.state stack.top).select (c :: rest) = none) :
      Turn table policy inner stack (c :: rest) [⟨.error, String.ofList [c]⟩] rest stack

/-- A reading goes on with a turn. -/
theorem Table.Turn.reads {table : Table} {policy : StallPolicy} {inner : List Char → List Token → Prop}
    {stack next : StateStack} {text rest : List Char} {tokens more : List Token}
    (turn : table.Turn policy inner stack text tokens rest next)
    (further : table.Reads policy inner next rest more) :
    table.Reads policy inner stack text (tokens ++ more) := by
  cases turn with
  | rule chosen takes moved => exact .rule chosen takes moved further
  | skip lenient stalled => exact .skip lenient stalled further

/-! ### What a behaviour hands on -/

/-- A behaviour hands text to its targets only. -/
theorem Step.Site.staysHome_of_targets (site : Site) {behavior : Behavior StateId}
    (current : ∀ target ∈ behavior.targets, target = .current) :
    ∀ deed ∈ site.deeds behavior, deed.StaysHome := by
  intro deed member
  cases behavior with
  | emit | emitAndPush | emitAndPop =>
    cases deed with
    | delegate => simp [deeds] at member
    | _ => trivial
  | delegate target =>
    cases List.mem_singleton.mp member
    exact current target List.mem_cons_self
  | composite actions =>
    obtain ⟨action, listed, does⟩ := List.mem_filterMap.mp member
    cases action with
    | delegate group target =>
      obtain ⟨span, _, rfl⟩ := Option.map_eq_some_iff.mp does
      exact current target (List.mem_filterMap.mpr ⟨_, listed, rfl⟩)
    | emit group kind =>
      obtain ⟨span, _, rfl⟩ := Option.map_eq_some_iff.mp does
      trivial
    | push | pop =>
      cases does
      trivial

section Steps

variable {inner : List Char → List Token → Prop} {registry : Registry} {options : Options}
  {nested : Option (NestedRun Collector)} {lexer : Lexer} {run next : Run Collector}

theorem Deed.yieldAll_append {first second : List Deed} {tokens : List Token}
    (yields : YieldAll inner (first ++ second) tokens) :
    ∃ one other, tokens = one ++ other ∧ YieldAll inner first one ∧ YieldAll inner second other := by
  induction first generalizing tokens with
  | nil => exact ⟨[], tokens, rfl, rfl, yields⟩
  | cons deed rest ih =>
    obtain ⟨one, more, rfl, here, later⟩ := yields
    obtain ⟨others, last, rfl, middle, further⟩ := ih later
    exact ⟨one ++ others, last, (List.append_assoc ..).symm, ⟨one, others, rfl, here, middle⟩, further⟩

/-- What a step tells of its choice yields no tokens, moves nothing and hands nothing on. -/
theorem Lexer.told_is_silent (inner : List Char → List Token → Prop) (options : Options) (scan : Scan)
    (text : List Char) (selection : Selection) :
    (∀ deed ∈ lexer.told options scan text selection, deed.StaysHome) ∧
      (lexer.told options scan text selection).filterMap Deed.move? = [] ∧
      ∀ tokens, Deed.YieldAll inner (lexer.told options scan text selection) tokens → tokens = [] := by
  unfold Lexer.told
  split
  · refine ⟨fun deed member => List.mem_singleton.mp member ▸ trivial, rfl, ?_⟩
    rintro _ ⟨_, _, rfl, rfl, rfl⟩
    rfl
  · exact ⟨nofun, rfl, fun _ nothing => nothing⟩

/-- To skip a character adds a token for it and leaves the stack as it is. -/
theorem tokens_of_skipping {record : Record} {c : Char}
    (done : enactAll (.collecting registry options) nested lexer
      [.note record, .emit .error [c], .fallBack] run = .ok () next) :
    next.tokens = run.tokens ++ [⟨.error, String.ofList [c]⟩] ∧ next.scan.stack = run.scan.stack := by
  have moved := replay?_of_enactAll done
  obtain ⟨_, noted, told, others⟩ := bind_eq_ok_iff.mp done
  obtain ⟨_, emitted, sent, counted⟩ := bind_eq_ok_iff.mp others
  cases told
  cases counted
  exact ⟨tokens_of_emit sent, (Option.some.inj moved).symm⟩

/-- Once a step has counted itself, the rule that it chose takes a piece of the text. -/
theorem exists_of_choice (contained : lexer.table.SelfContained)
    (reads : NestedReads lexer.table inner nested) {text : List Char} {selection : Selection}
    (chosen : (lexer.table.state run.scan.stack.top).select text = some selection)
    (done : enactAll (.collecting registry options) nested lexer
      (lexer.told options run.scan text selection ++
        (lexer.site run.scan text selection).deeds selection.rule.behavior) run.counted = .ok () next) :
    ∃ piece rest tokens moves, text = piece ++ rest ∧ next.tokens = run.tokens ++ tokens ∧
      selection.rule.Takes inner (lexer.site run.scan text selection) piece rest tokens moves ∧
      run.scan.stack.replay? moves = some next.scan.stack := by
  obtain ⟨member, found, longer⟩ := exists_of_select chosen
  have member := Table.mem_rules member
  let site : Site := lexer.site run.scan text selection
  have current := site.staysHome_of_targets (contained.current _ member)
  obtain ⟨rest, split, length⟩ := whole_of_find? site found
    (Pattern.Regex.start_of_find? (contained.anchored _ member) found)
  have split : text = site.whole ++ rest := split
  have some_piece : site.whole ≠ [] := fun nothing => by
    rw [nothing] at length
    exact longer length
  obtain ⟨home, still, silent⟩ := lexer.told_is_silent inner options run.scan text selection
  obtain ⟨_, added, yield_all⟩ := exists_of_enactAll reads
    (fun deed listed => (List.mem_append.mp listed).elim (home deed) (current deed)) done
  obtain ⟨none_told, tokens, rfl, told, yields⟩ := Deed.yieldAll_append yield_all
  cases silent none_told told
  have moved := replay?_of_enactAll done
  rw [List.filterMap_append, still, List.nil_append] at moved
  exact ⟨site.whole, rest, tokens, _, split, added,
    ⟨some_piece, split, split ▸ found, length, yields, rfl⟩, moved⟩

/-- A step that succeeds is a turn of the table: it adds its tokens, and leaves its rest and its stack. -/
theorem exists_turn_of_step (contained : lexer.table.SelfContained)
    (reads : NestedReads lexer.table inner nested) {text : List Char} (ahead : run.scan.ahead = some text)
    (stepped : step (.collecting registry options) nested lexer run = .ok () next) :
    ∃ tokens rest, next.tokens = run.tokens ++ tokens ∧ next.scan.ahead = some rest ∧
      lexer.table.Turn options.stall inner run.scan.stack text tokens rest next.scan.stack := by
  obtain ⟨_, deeds, bytes, middle, here, intent, done, rfl⟩ := step_eq_ok_iff.mp stepped
  cases ahead.symm.trans here
  replace intent : lexer.intent options run.scan text = .go deeds bytes := intent
  have stays : middle.scan.ahead = some text := (samePlace_of_enactAll done).2.trans ahead
  have behind {piece rest : List Char} (split : text = piece ++ rest)
      (length : bytes = Text.byteLength piece) : (middle.scan.advance bytes).ahead = some rest := by
    show middle.scan.ahead.bind _ = some rest
    rw [stays, split, length]
    exact Text.dropBytes?_byteLength_append piece rest
  unfold Lexer.intent at intent
  dsimp only at intent
  split at intent
  · rename_i stalled
    split at intent
    · cases intent
    · cases intent
    · rename_i c rest policy
      cases intent
      obtain ⟨added, same⟩ := tokens_of_skipping done
      have same : middle.scan.stack = run.scan.stack := same
      refine ⟨_, rest, added, behind (List.singleton_append ..).symm (Nat.add_zero _).symm, ?_⟩
      show lexer.table.Turn _ _ _ _ _ rest middle.scan.stack
      rw [same]
      exact .skip policy stalled
  · rename_i selection chosen
    cases intent
    obtain ⟨piece, rest, tokens, moves, rfl, added, takes, moved⟩ :=
      exists_of_choice contained reads chosen done
    exact ⟨tokens, rest, added, behind rfl takes.length, .rule chosen takes moved⟩

/-- A run that succeeds adds what its text is read as. -/
theorem reads_driveWith (contained : lexer.table.SelfContained)
    (reads : NestedReads lexer.table inner nested) {text : List Char}
    (ahead : run.scan.ahead = some text)
    (driven : driveWith (step (.collecting registry options) nested lexer) run = .ok () next) :
    ∃ tokens, next.tokens = run.tokens ++ tokens ∧
      lexer.table.Reads options.stall inner run.scan.stack text tokens := by
  have shrinks : Shrinks (step (.collecting registry options) nested lexer) := shrinks_step
  induction run using shrinks.induct generalizing text with
  | done run finished =>
    rw [driveWith_of_done finished] at driven
    cases driven
    obtain rfl : text = [] := by
      unfold Scan.isDone at finished
      rw [ahead] at finished
      simpa using finished
    exact ⟨[], (List.append_nil _).symm, .nothing _⟩
  | error run failure after unfinished failed =>
    rw [driveWith_of_error unfinished failed] at driven
    cases driven
  | ok run middle unfinished stepped ih =>
    rw [shrinks.driveWith_of_ok unfinished stepped] at driven
    obtain ⟨tokens, rest, added, left, turn⟩ := exists_turn_of_step contained reads ahead stepped
    obtain ⟨more, others, further⟩ := ih left driven
    exact ⟨tokens ++ more, by rw [others, added, List.append_assoc], turn.reads further⟩

end Steps

/-! ### Runs at every depth -/

section Runs

variable {inner : List Char → List Token → Prop} {registry : Registry} {options : Options} {table : Table}

theorem nestedReads_nestedRun (contained : table.SelfContained)
    (closed : ∀ text tokens, table.Reads options.stall inner (.new table.root) text tokens →
      inner text tokens) (levels : Nat) :
    NestedReads table inner (nestedRun (.collecting registry options) levels) := by
  induction levels with
  | zero => exact nofun
  | succ levels ih =>
    rintro run ⟨⟩ child text world ended rfl succeeded
    have ahead : (Scan.start child.table text).ahead = some text := rfl
    obtain ⟨tokens, added, reading⟩ := reads_driveWith contained ih ahead succeeded
    exact ⟨tokens, added, closed text tokens reading⟩

/-- What holds of a text and tokens whenever the table reads the text as these, and holds of what nested runs
read, holds of the text and the tokens of every run that succeeds. -/
theorem reads_of_drive {lexer : Lexer} (contained : lexer.table.SelfContained)
    (closed : ∀ text tokens, lexer.table.Reads options.stall inner (.new lexer.table.root) text tokens →
      inner text tokens) {text : List Char} {world : World Collector} {last : Run Collector}
    (driven : lexer.drive (.collecting registry options) ⟨.start lexer.table text, world⟩ = .ok () last) :
    ∃ tokens, last.tokens = world.sink.tokens.toList ++ tokens ∧ inner text tokens := by
  have ahead : (Scan.start lexer.table text).ahead = some text := rfl
  obtain ⟨tokens, added, reading⟩ :=
    reads_driveWith contained (nestedReads_nestedRun contained closed _) ahead driven
  exact ⟨tokens, added, closed text tokens reading⟩

end Runs

end TableLexer
