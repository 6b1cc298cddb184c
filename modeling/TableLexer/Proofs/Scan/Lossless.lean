/-
**Runs lose nothing.**

A rule is tiling when it matches at the cursor only and the groups of a composite behaviour cover the
match. Runs of tables with such rules write their texts: the tokens of a run that succeeds spell the text,
those of a run that fails spell a beginning of it, and where an error names the position at which the
text could not be read on, it names the end of that beginning.

* `consumes_step`: a step writes what the cursor moves over.
* `nestedWrites_nestedRun`: nested runs write their texts, at every depth.
* `spells_run`: the tokens of a run spell its text, up to where it ended.
-/

import TableLexer.Proofs.Scan.Deeds
import TableLexer.Proofs.Scan.Writes

namespace TableLexer

open Step
open Pattern (Tile)

/-! ### Tiling rules -/

/-- The rule matches at the cursor only, and the groups that a composite behaviour reads lie side by side
and cover the match. -/
def Rule.Tiling (rule : Rule) : Prop :=
  ∀ text found, rule.regex.find? text = some found → found.length ≠ 0 →
    found.span.start = 0 ∧ ∀ actions, rule.behavior = .composite actions →
      Tile 0 (actions.filterMap found.spanOf?) found.length

/-- The form of the rule shows that it is tiling: its pattern has an anchor in front, and the groups that
a composite behaviour reads are those of a row, each read once. -/
def Rule.tilesByForm (rule : Rule) : Bool :=
  rule.regex.anchored &&
    match rule.behavior with
    | .composite actions =>
      let groups := actions.filterMap Action.group?
      rule.regex.plan.row? == some groups && decide groups.Nodup && !groups.contains 0
    | _ => true

theorem Rule.tiling_of_form {rule : Rule} (form : rule.tilesByForm = true) : rule.Tiling := by
  intro text found find?_found longer
  unfold tilesByForm at form
  obtain ⟨anchored, tiles⟩ := (Bool.and_eq_true _ _).mp form
  have starts : found.span.start = 0 := Pattern.Regex.start_of_find? anchored find?_found
  refine ⟨starts, fun actions composite => ?_⟩
  rw [composite] at tiles
  simp only [Bool.and_eq_true, beq_iff_eq, decide_eq_true_eq, Bool.not_eq_true',
    List.contains_eq_mem, decide_eq_false_iff_not] at tiles
  obtain ⟨⟨row, distinct⟩, proper⟩ := tiles
  have tile := Pattern.Regex.tile_of_find? row distinct proper find?_found
  rw [List.filterMap_filterMap, starts] at tile
  unfold Pattern.Match.length
  rw [starts]
  exact tile

/-- Tables with tiling rules that hand text to each other only, as long as the tables built so far are
admitted. -/
structure TilingFamily (registry : Registry) (member : Table → Prop)
    (admits : TableCache → Prop) : Prop where
  tiling : ∀ table, member table → ∀ rule ∈ table.rules, rule.Tiling
  stays : ∀ table, member table → ∀ rule ∈ table.rules, ∀ target ∈ rule.behavior.targets,
    target.Stays registry member admits

/-! ### One step -/

/-- What ended with the given result has written a part of the text ahead and moved the cursor over it; if
it failed, it has written a beginning of the text. -/
inductive Consumes (admits : TableCache → Prop) (origin : Nat) (text : List Char)
    (before : Run Collector) : EStateM.Result ScanError (Run Collector) Unit → Prop where
  | ok {after : Run Collector} (piece rest : List Char) (split : text = piece ++ rest)
      (some_piece : piece ≠ [])
      (cursor : after.scan.cursor = before.scan.cursor + Text.byteLength piece)
      (ahead : after.scan.ahead = some rest)
      (spelled : after.world.sink.spelled = before.world.sink.spelled ++ piece)
      (admitted : admits after.world.cache) : Consumes admits origin text before (.ok () after)
  | error {error : ScanError} {after : Run Collector} (front : List Char) (part : front <+: text)
      (spelled : after.world.sink.spelled = before.world.sink.spelled ++ front)
      (halts : ∀ offset ∈ error.halt?, offset = origin + Text.byteLength front) :
      Consumes admits origin text before (.error error after)

variable {admits : TableCache → Prop} {member : Table → Prop} {registry : Registry}
  {options : Options} {nested : Option (NestedRun Collector)} {origin : Nat}

/-- What writes a piece and then moves the cursor over it consumes it. -/
theorem Step.Writes.consumes {part : StepM Collector Unit} {piece rest : List Char} {run : Run Collector}
    (writes : Writes admits origin piece part) (stays : Stays part) (some_piece : piece ≠ [])
    (ahead : run.scan.ahead = some (piece ++ rest)) (admitted : admits run.world.cache) :
    Consumes admits origin (piece ++ rest) run
      ((part >>= fun _ => changeScan (·.advance (Text.byteLength piece))) run) := by
  have delivers := writes run admitted
  have place := stays run
  show Consumes _ _ _ _ (EStateM.bind part _ run)
  unfold EStateM.bind
  generalize part run = result at delivers place
  cases delivers with
  | @ok after spelled admitted =>
    obtain ⟨cursor, same⟩ := place
    have moved : (after.scan.advance (Text.byteLength piece)).ahead = some rest := by
      show after.scan.ahead.bind _ = some rest
      rw [show after.scan.ahead = some (piece ++ rest) from same.trans ahead]
      exact Text.dropBytes?_byteLength_append piece rest
    exact .ok piece rest rfl some_piece
      (show after.scan.cursor + Text.byteLength piece = _ by
        rw [show after.scan.cursor = run.scan.cursor from cursor])
      moved spelled admitted
  | error front part spelled halts =>
    exact .error front (part.trans (List.prefix_append piece rest)) spelled halts

theorem consumes_stall {lexer : Lexer} {state : State} {text : List Char} {run : Run Collector}
    (ahead : run.scan.ahead = some text) (admitted : admits run.world.cache) :
    Consumes admits origin text run
      (stall (.collecting registry options) lexer state origin text run) := by
  cases policy : (Engine.collecting registry options).options.stall with
  | strict =>
    unfold stall
    rw [policy]
    exact .error [] List.nil_prefix (List.append_nil _).symm
      (by simp [ScanError.halt?, Text.byteLength])
  | lenient =>
    cases text with
    | nil =>
      unfold stall
      rw [policy]
      exact .error [] List.nil_prefix (List.append_nil _).symm (by simp [ScanError.halt?])
    | cons c rest =>
      have writes : Writes admits origin [c]
          (skip (.collecting registry options) lexer state origin c) :=
        (writes_note _).before ((writes_emit .error).behind (writes_count _))
      have here : run.scan.ahead = some ([c] ++ rest) := ahead
      rw [stall_eq_skip policy]
      exact writes.consumes stays_skip (List.cons_ne_nil c []) here admitted

/-- Telling of a choice writes nothing. -/
theorem writes_carryOut {lexer : Lexer} (state : State) {text piece : List Char}
    {selection : Selection}
    (performs : Writes admits origin piece (perform (.collecting registry options) nested
      { lexer, origin, text, found := selection.found } selection.rule.behavior)) :
    Writes admits origin piece
      (carryOut (.collecting registry options) nested lexer state origin text selection) := by
  unfold carryOut
  by_cases traced : (Engine.collecting registry options).options.trace
  · rw [if_pos traced]
    exact (writes_note _).before performs
  · rw [if_neg traced]
    exact performs

theorem consumes_follow (family : TilingFamily registry member admits)
    (writes : ∀ run ∈ nested, NestedWrites member admits run) {lexer : Lexer}
    (belongs : member lexer.table) {state : State} {text : List Char} {selection : Selection}
    (chosen : state.select text = some selection) (rules : selection.rule ∈ lexer.table.rules)
    {run : Run Collector} (ahead : run.scan.ahead = some text) (admitted : admits run.world.cache) :
    Consumes admits origin text run
      (follow (.collecting registry options) nested lexer state origin text selection run) := by
  obtain ⟨_, found, longer⟩ := exists_of_select chosen
  obtain ⟨starts, tiles⟩ := family.tiling _ belongs _ rules text _ found longer
  have within := selection.rule.regex.within_of_find? found
  let site : Site := { lexer, origin, text, found := selection.found }
  obtain ⟨last, whole, length⟩ := whole_of_find? site found starts
  have some_piece : site.whole ≠ [] := fun nothing => by
    rw [length, nothing] at longer
    exact longer rfl
  have performs : Writes admits origin site.whole
      (perform (.collecting registry options) nested site selection.rule.behavior) :=
    writes_perform writes site belongs within (family.stays _ belongs _ rules) whole
      (length ▸ tiles)
  have here : run.scan.ahead = some (site.whole ++ last) := ahead.trans (congrArg some whole)
  have split : site.whole ++ last = text := whole.symm
  have consumes := (writes_carryOut state performs).consumes stays_carryOut some_piece here admitted
  rw [split, ← length] at consumes
  rw [follow_eq]
  exact consumes

/-- A step writes what the cursor moves over. -/
theorem consumes_step (family : TilingFamily registry member admits)
    (writes : ∀ run ∈ nested, NestedWrites member admits run) {lexer : Lexer}
    (belongs : member lexer.table) {text : List Char} {run : Run Collector}
    (ahead : run.scan.ahead = some text) (admitted : admits run.world.cache) :
    Consumes admits (lexer.base + run.scan.cursor) text run
      (step (.collecting registry options) nested lexer run) := by
  have counted : Consumes admits (lexer.base + run.scan.cursor) text run.counted
      (step (.collecting registry options) nested lexer run) := by
    rw [step_of_ahead ahead]
    split
    · exact consumes_stall ahead admitted
    · rename_i selection chosen
      have rules := Table.mem_rules (exists_of_select chosen).1
      exact consumes_follow family writes belongs chosen rules ahead admitted
  generalize step _ nested lexer run = result at counted ⊢
  cases counted with
  | ok piece rest split some_piece cursor ahead spelled admitted =>
    exact .ok piece rest split some_piece cursor ahead spelled admitted
  | error front part spelled halts => exact .error front part spelled halts

/-! ### Whole runs -/

/-- Steps that write what the cursor moves over write the text to its end. -/
theorem delivers_repeatStep {base : Nat} {step : StepM Collector Unit}
    (consumes : ∀ (run : Run Collector) (text : List Char), run.scan.ahead = some text →
      admits run.world.cache → Consumes admits (base + run.scan.cursor) text run (step run))
    {bound : Nat} (run : Run Collector) {text : List Char} (ahead : run.scan.ahead = some text)
    (enough : Text.byteLength text ≤ bound) (admitted : admits run.world.cache) :
    Delivers admits (base + run.scan.cursor) text run.world.sink (repeatStep step bound run) := by
  induction bound generalizing run text with
  | zero =>
    have nothing : text = [] := Text.byteLength_eq_zero.mp (Nat.le_zero.mp enough)
    rw [nothing]
    exact .ok (List.append_nil _).symm admitted
  | succ bound ih =>
    rw [repeatStep]
    by_cases done : run.scan.isDone
    · have nothing : text = [] := by
        unfold Scan.isDone at done
        rw [ahead] at done
        simpa using done
      rw [if_pos done, nothing]
      exact .ok (List.append_nil _).symm admitted
    · rw [if_neg done]
      have stepped := consumes run text ahead admitted
      generalize step run = result at stepped
      cases stepped with
      | @ok after piece rest split some_piece cursor ahead spelled admitted =>
        have shorter : Text.byteLength rest ≤ bound := by
          have := Text.byteLength_pos some_piece
          rw [split, Text.byteLength_append] at enough
          omega
        have delivers := ih after ahead shorter admitted
        rw [cursor, ← Nat.add_assoc] at delivers
        dsimp only
        generalize repeatStep _ bound after = ended at delivers
        cases delivers with
        | ok last admitted =>
          exact .ok (by rw [last, spelled, split, List.append_assoc]) admitted
        | error front part last halts =>
          refine .error (piece ++ front) ?_ ?_ fun offset halt => ?_
          · rw [split]
            exact (List.prefix_append_right_inj piece).mpr part
          · rw [last, spelled, List.append_assoc]
          · rw [halts offset halt, Text.byteLength_append, Nat.add_assoc]
      | error front part spelled halts => exact .error front part spelled halts

/-- A scan from the start of a text writes the text. -/
theorem delivers_driveWith (family : TilingFamily registry member admits)
    (writes : ∀ run ∈ nested, NestedWrites member admits run) {lexer : Lexer}
    (belongs : member lexer.table) {text : List Char} {world : World Collector}
    (admitted : admits world.cache) :
    Delivers admits lexer.base text world.sink
      (driveWith (step (.collecting registry options) nested lexer)
        ⟨.start lexer.table text, world⟩) :=
  delivers_repeatStep (fun _ _ ahead admitted => consumes_step family writes belongs ahead admitted)
    ⟨.start lexer.table text, world⟩ rfl (Nat.le_refl _) admitted

/-- Nested runs write their texts, at every depth. -/
theorem nestedWrites_nestedRun (family : TilingFamily registry member admits) (levels : Nat) :
    ∀ run ∈ nestedRun (.collecting registry options) levels, NestedWrites member admits run := by
  induction levels with
  | zero => simp [nestedRun]
  | succ levels ih =>
    intro run nested
    cases nested
    exact fun child text world belongs admitted => delivers_driveWith family ih belongs admitted

/-! ### What a run tells -/

/-- The tokens that were sent spell the text. After an error they spell a beginning of the text, and where
the error says at which position the text could not be read on, they spell what lies before it. -/
def Outcome.Spells (outcome : Outcome Collector) (text : List Char) : Prop :=
  match outcome.result with
  | .ok _ => outcome.world.sink.spelled = text
  | .error error =>
    outcome.world.sink.spelled <+: text ∧
      ∀ offset ∈ error.halt?, Text.byteLength outcome.world.sink.spelled = offset

/-- The tokens of a run spell its text, up to where it ended. -/
theorem spells_run (family : TilingFamily registry member admits) {table : Table}
    (belongs : member table) {text : List Char} {world : World Collector}
    (admitted : admits world.cache) (nothing_sent : world.sink.tokens = #[]) :
    (({ table } : Lexer).run (.collecting registry options) text world).Spells text := by
  let lexer : Lexer := { table }
  have belongs : member lexer.table := belongs
  have nothing : world.sink.spelled = [] := by
    unfold Collector.spelled
    rw [nothing_sent]
    rfl
  have delivers : Delivers admits 0 text world.sink
      (lexer.drive (.collecting registry options) ⟨.start table text, world⟩) :=
    delivers_driveWith family (nestedWrites_nestedRun family _) belongs admitted
  unfold Outcome.Spells Lexer.run
  generalize lexer.drive _ _ = result at delivers
  cases delivers with
  | ok spelled => rw [nothing] at spelled; exact spelled
  | error front part spelled halts =>
    rw [nothing, List.nil_append] at spelled
    refine ⟨spelled ▸ part, fun offset halt => ?_⟩
    have ends := halts offset halt
    rw [Nat.zero_add] at ends
    rw [ends, ← spelled]

end TableLexer
