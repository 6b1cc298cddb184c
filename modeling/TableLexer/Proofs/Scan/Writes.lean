/-
**What a run writes.**

A part of a step writes a text when the tokens that it sends spell the text, from a given position on. If
it fails, the tokens spell a beginning of the text, and an error that names a position where the text could
not be read on names the end of that beginning.

* `Writes.andThen`: parts one after another write their texts one after another.
* `writes_emit`, `writes_pop`, `writes_delegate`: what each part writes.
* `writes_actAll`: actions whose groups lie side by side write what the groups cover.
* `writes_perform`: a behaviour whose groups cover the match writes the match.
-/

import TableLexer.Proofs.Pattern.Rows
import TableLexer.Proofs.Scan.Parts
import TableLexer.Proofs.Text.Cuts

namespace TableLexer

open Pattern (Span Tile)

/-! ### Tokens as text -/

/-- The texts of the collected tokens, one after another. -/
def Collector.spelled (collector : Collector) : List Char :=
  collector.tokens.toList.flatMap (·.text.toList)

/-- The position at which the error says that the text could not be read on. -/
def ScanError.halt? : ScanError → Option Nat
  | .stall offset _ | .depthExceeded _ offset => some offset
  | _ => none

/-- The part of the match that the action reads, if it reads one that took part. -/
def Pattern.Match.spanOf? {State : Type} (found : Match) (action : Action State) : Option Span :=
  action.group?.bind found.group?

/-- An engine whose tokens are collected. -/
def Engine.collecting (registry : Registry) (options : Options) : Engine Collector :=
  ⟨registry, options, Collector.emitter⟩

/-- What ended with the given result has written the text behind what was collected before; if it
failed, it has written a beginning of the text. The tables built so far are still admitted. -/
inductive Delivers (admits : TableCache → Prop) (origin : Nat) (text : List Char)
    (before : Collector) : EStateM.Result ScanError (Run Collector) Unit → Prop where
  | ok {after : Run Collector} (spelled : after.world.sink.spelled = before.spelled ++ text)
      (admitted : admits after.world.cache) : Delivers admits origin text before (.ok () after)
  | error {error : ScanError} {after : Run Collector} (front : List Char) (part : front <+: text)
      (spelled : after.world.sink.spelled = before.spelled ++ front)
      (halts : ∀ offset ∈ error.halt?, offset = origin + Text.byteLength front) :
      Delivers admits origin text before (.error error after)

namespace Step

/-- The part of a step writes the text. -/
def Writes (admits : TableCache → Prop) (origin : Nat) (text : List Char)
    (part : StepM Collector Unit) : Prop :=
  ∀ run : Run Collector, admits run.world.cache →
    Delivers admits origin text run.world.sink (part run)

variable {admits : TableCache → Prop} {origin : Nat} {text more : List Char}
  {registry : Registry} {options : Options}

/-! ### The parts of a behaviour -/

theorem Writes.andThen {part rest : StepM Collector Unit} (one : Writes admits origin text part)
    (other : Writes admits (origin + Text.byteLength text) more rest) :
    Writes admits origin (text ++ more) (part >>= fun _ => rest) := by
  intro run admitted
  have first := one run admitted
  show Delivers _ _ _ _ (EStateM.bind part (fun _ => rest) run)
  unfold EStateM.bind
  generalize part run = result at first
  cases first with
  | @ok middle spelled admitted =>
    have second := other middle admitted
    dsimp only
    generalize rest middle = result at second
    cases second with
    | ok last admitted => exact .ok (by rw [last, spelled, List.append_assoc]) admitted
    | error front part last halts =>
      refine .error (text ++ front) (List.prefix_append_right_inj text |>.mpr part) ?_ ?_
      · rw [last, spelled, List.append_assoc]
      · intro offset halt
        rw [halts offset halt, Text.byteLength_append, Nat.add_assoc]
  | error front part spelled halts =>
    exact .error front (part.trans (List.prefix_append text more)) spelled halts

/-- A part that writes nothing may stand before another one. -/
theorem Writes.before {part rest : StepM Collector Unit} (one : Writes admits origin [] part)
    (other : Writes admits origin text rest) : Writes admits origin text (part >>= fun _ => rest) :=
  one.andThen other

/-- A part that writes nothing may stand behind another one. -/
theorem Writes.behind {part rest : StepM Collector Unit} (one : Writes admits origin text part)
    (other : Writes admits (origin + Text.byteLength text) [] rest) :
    Writes admits origin text (part >>= fun _ => rest) := by
  rw [← List.append_nil text]
  exact one.andThen other

/-- What changes neither the tokens nor the tables writes nothing. -/
theorem writes_nothing {part : StepM Collector Unit}
    (quiet : ∀ run, ∃ after, part run = .ok () after ∧ after.world.sink = run.world.sink ∧
      after.world.cache = run.world.cache) : Writes admits origin [] part := by
  intro run admitted
  obtain ⟨after, same, sink, cache⟩ := quiet run
  rw [same]
  exact .ok (by rw [sink, List.append_nil]) (cache ▸ admitted)

theorem writes_pure : Writes admits origin [] (pure ()) :=
  writes_nothing fun run => ⟨run, rfl, rfl, rfl⟩

theorem writes_count (change : Metrics → Metrics) : Writes admits origin [] (count change) :=
  writes_nothing fun _ => ⟨_, rfl, rfl, rfl⟩

theorem writes_push (state : StateId) : Writes admits origin [] (push state) :=
  writes_nothing fun _ => ⟨_, rfl, rfl, rfl⟩

theorem writes_note (record : Record) : Writes admits origin [] (note record) :=
  writes_nothing fun _ => ⟨_, rfl, rfl, rfl⟩

/-- What fails at once with an error that names this position, or none, writes nothing. -/
theorem writes_throw {error : ScanError} (halts : ∀ offset ∈ error.halt?, offset = origin) :
    Writes admits origin text (throw error) :=
  fun _ _ => .error [] List.nil_prefix (List.append_nil _).symm halts

theorem writes_pop (position : Nat) : Writes admits origin [] (pop position) := by
  intro run admitted
  unfold pop
  split
  · exact .error [] List.nil_prefix (List.append_nil _).symm (by simp [ScanError.halt?])
  · exact .ok (List.append_nil _).symm admitted

theorem writes_emit (kind : Kind) :
    Writes admits origin text (emit (.collecting registry options) kind text) := by
  cases text with
  | nil => exact writes_pure
  | cons c rest =>
    unfold emit
    rw [if_neg (by simp)]
    refine Writes.behind (fun run admitted => ?_) (writes_count _)
    by_cases room : run.world.sink.hasRoom
    · simp only [Engine.collecting, Collector.emitter, if_pos room]
      refine .ok ?_ admitted
      simp [Collector.spelled]
    · simp only [Engine.collecting, Collector.emitter, if_neg room]
      exact .error [] List.nil_prefix (List.append_nil _).symm (by simp [ScanError.halt?])

end Step

/-! ### Delegation -/

/-- A target of a rule of the family has a table of the family, as long as the tables built so far are
admitted, and what is built to find it is admitted too. -/
def Target.Stays (registry : Registry) (member : Table → Prop) (admits : TableCache → Prop) :
    Target → Prop
  | .current => True
  | .named language => ∀ cache, admits cache →
      admits (registry.table cache language).cache ∧
        ∀ shared, (registry.table cache language).outcome = .ok shared → member shared.table

/-- Nested runs of tables of the family write their texts. -/
def NestedWrites (member : Table → Prop) (admits : TableCache → Prop)
    (nested : NestedRun Collector) : Prop :=
  ∀ (child : Lexer) (text : List Char) (world : World Collector), member child.table →
    admits world.cache → Delivers admits child.base text world.sink (nested child text world)

namespace Step

variable {admits : TableCache → Prop} {member : Table → Prop} {origin : Nat} {text : List Char}
  {registry : Registry} {options : Options} {nested : Option (NestedRun Collector)}

theorem writes_runNested {nested : NestedRun Collector} (writes : NestedWrites member admits nested)
    (child : Lexer) (family : member child.table) :
    Writes admits child.base text (runNested nested child text) := by
  intro run admitted
  have delivers := writes child text run.world family admitted
  unfold runNested
  dsimp only
  generalize nested child text run.world = result at delivers
  cases delivers with
  | ok spelled admitted => exact .ok spelled admitted
  | error front part spelled halts => exact .error front part spelled halts

/-- Looking a target up writes nothing and gives a table of the family. -/
theorem writes_resolve {target : Target} (stays : target.Stays registry member admits)
    {lexer : Lexer} (family : member lexer.table) {rest : Table → StepM Collector Unit}
    (writes : ∀ table, member table → Writes admits origin text (rest table)) :
    Writes admits origin text (resolve (.collecting registry options) lexer target >>= rest) := by
  intro run admitted
  show Delivers _ _ _ _ (EStateM.bind _ rest run)
  unfold EStateM.bind
  cases target with
  | current => exact writes lexer.table family run admitted
  | named language =>
    obtain ⟨kept, found⟩ := stays run.world.cache admitted
    simp only [resolve, World.table, Engine.collecting]
    cases outcome : (registry.table run.world.cache language).outcome with
    | ok shared =>
      exact writes shared.table (found shared outcome)
        ⟨run.scan, (run.world.table registry language).2⟩ kept
    | error error =>
      exact .error [] List.nil_prefix (List.append_nil _).symm
        (by simp [ScanError.halt?])

/-- A text that is handed to a nested run is written by it. -/
theorem writes_delegate (writes : ∀ run ∈ nested, NestedWrites member admits run) {lexer : Lexer}
    (family : member lexer.table) {target : Target} (stays : target.Stays registry member admits) :
    Writes admits origin text
      (delegate (.collecting registry options) nested lexer target text origin) := by
  unfold delegate
  by_cases nothing : text.isEmpty
  · rw [if_pos nothing, List.isEmpty_iff.mp nothing]
    exact writes_pure
  · rw [if_neg nothing]
    refine writes_resolve stays family fun table found => ?_
    cases nested with
    | none => exact writes_throw (by simp [ScanError.halt?])
    | some nested =>
      exact (writes_note _).before
        (writes_runNested (writes nested rfl) ⟨table, lexer.depth + 1, origin⟩ found)

/-! ### Behaviours -/

theorem writes_act_of_none {site : Site} {action : Action StateId}
    (passed : site.found.spanOf? action = none) :
    Writes admits origin [] (act (.collecting registry options) nested site action) := by
  cases action with
  | emit group kind =>
    have passed : site.found.group? group = none := passed
    rw [act, passed]
    exact writes_pure
  | delegate group target =>
    have passed : site.found.group? group = none := passed
    rw [act, passed]
    exact writes_pure
  | push state => exact writes_push state
  | pop => exact writes_pop site.origin

theorem writes_act_of_some (writes : ∀ run ∈ nested, NestedWrites member admits run) {site : Site}
    (family : member site.lexer.table) {action : Action StateId}
    (stays : ∀ target ∈ action.target?, target.Stays registry member admits) {span : Span}
    (participates : site.found.spanOf? action = some span) :
    Writes admits (site.origin + span.start) (site.slice span)
      (act (.collecting registry options) nested site action) := by
  cases action with
  | emit group kind =>
    have participates : site.found.group? group = some span := participates
    rw [act, participates]
    exact writes_emit kind
  | delegate group target =>
    have participates : site.found.group? group = some span := participates
    rw [act, participates]
    exact writes_delegate writes family (stays target rfl)
  | push | pop => simp [Pattern.Match.spanOf?, Action.group?] at participates

/-- Actions whose groups lie side by side write what the groups cover. -/
theorem writes_actAll (writes : ∀ run ∈ nested, NestedWrites member admits run) {site : Site}
    (family : member site.lexer.table) (within : site.found.Within site.text)
    {actions : List (Action StateId)}
    (stays : ∀ target ∈ actions.filterMap Action.target?, target.Stays registry member admits)
    {front rest : List Char} (here : site.text = front ++ rest) {stop : Nat}
    (tile : Tile (Text.byteLength front) (actions.filterMap site.found.spanOf?) stop) :
    ∃ piece last, rest = piece ++ last ∧ stop = Text.byteLength (front ++ piece) ∧
      Writes admits (site.origin + Text.byteLength front) piece
        (actAll (.collecting registry options) nested site actions) := by
  induction actions generalizing front rest with
  | nil => exact ⟨[], rest, rfl, by rw [List.append_nil]; exact tile.symm, writes_pure⟩
  | cons action actions ih =>
    have stays_rest : ∀ target ∈ actions.filterMap Action.target?,
        target.Stays registry member admits := fun target member => by
      obtain ⟨other, later, same⟩ := List.mem_filterMap.mp member
      exact stays target (List.mem_filterMap.mpr ⟨other, List.mem_cons_of_mem action later, same⟩)
    cases participates : site.found.spanOf? action with
    | none =>
      rw [List.filterMap_cons_none participates] at tile
      obtain ⟨piece, last, split, ends, written⟩ := ih stays_rest here tile
      exact ⟨piece, last, split, ends, (writes_act_of_none participates).before written⟩
    | some span =>
      rw [List.filterMap_cons_some participates] at tile
      obtain ⟨starts, tile⟩ := tile
      have span_within : span.Within site.text := by
        obtain ⟨group, _, found⟩ := Option.bind_eq_some_iff.mp participates
        exact within group span found
      obtain ⟨later, split, stops⟩ := slice_of_within here span_within starts
      have beyond : site.text = (front ++ site.slice span) ++ later := by
        rw [here, split, List.append_assoc]
      rw [stops] at tile
      obtain ⟨piece, last, rests, ends, written⟩ := ih stays_rest beyond tile
      have one : Writes admits (site.origin + Text.byteLength front) (site.slice span)
          (act (.collecting registry options) nested site action) := by
        rw [← starts]
        exact writes_act_of_some writes family (fun target named => stays target
          (List.mem_filterMap.mpr ⟨action, List.mem_cons_self, named⟩)) participates
      refine ⟨site.slice span ++ piece, last, ?_, ?_, one.andThen ?_⟩
      · rw [split, rests, List.append_assoc]
      · rw [ends, List.append_assoc]
      · rw [Nat.add_assoc, ← Text.byteLength_append]
        exact written

/-- A behaviour whose groups cover the match writes the match. -/
theorem writes_perform (writes : ∀ run ∈ nested, NestedWrites member admits run) (site : Site)
    (family : member site.lexer.table) (within : site.found.Within site.text)
    {behavior : Behavior StateId}
    (stays : ∀ target ∈ behavior.targets, target.Stays registry member admits)
    {last : List Char} (here : site.text = site.whole ++ last)
    (tiles : ∀ actions, behavior = .composite actions →
      Tile 0 (actions.filterMap site.found.spanOf?) (Text.byteLength site.whole)) :
    Writes admits site.origin site.whole
      (perform (.collecting registry options) nested site behavior) := by
  cases behavior with
  | emit kind => exact writes_emit kind
  | emitAndPush kind state => exact (writes_emit kind).behind (writes_push state)
  | emitAndPop kind => exact (writes_emit kind).behind (writes_pop site.origin)
  | delegate target => exact writes_delegate writes family (stays target List.mem_cons_self)
  | composite actions =>
    obtain ⟨piece, rest, split, ends, written⟩ :=
      writes_actAll writes family within stays (List.nil_append _).symm (tiles actions rfl)
    have pieces : piece = site.whole :=
      (Text.eq_of_byteLength_eq (split.symm.trans here) ends.symm).1
    rw [← pieces]
    exact written

end Step

end TableLexer
