/-
**Positions count from the outermost text.**

Where rules match at the cursor, the text of every run stands in the outermost text from its base on, at
whichever level of nesting the run is. So the position in an error, which is put together of a base, a
cursor and the start of a group, is where the outermost text has what the error is about.

* `Located.of_reaches`: the runs that a run comes through read their texts where these stand.
* `Lexer.StallsAt`, `Lexer.PopsAt`, `Lexer.HandsOnAt`: what stands at the position in an error.
* `positions_count_from_outermost_text`: what is said of all nested runs, and of all errors.
-/

import TableLexer.Proofs.Scan.Raised
import TableLexer.Proofs.Scan.Stacks
import TableLexer.Proofs.Scan.Twins

namespace TableLexer

open Step

variable {σ : Type} {engine : Engine σ} {registry : Registry} {text piece : List Char}
  {outermost : Table} {lexer child : Lexer} {run next : Run σ} {world : World σ}

/-- The table was built of a description. -/
def Table.Built (table : Table) : Prop :=
  ∃ descriptor source, Table.build descriptor source = .ok table

theorem Table.Built.wellBuilt {table : Table} (built : table.Built) :
    ∃ flags, table.WellBuilt flags := by
  obtain ⟨_, source, built⟩ := built
  exact ⟨source.flags, Table.wellBuilt_of_build built⟩

/-- The tables that a run of a table that was built uses were built as well. -/
theorem Registry.Serves.built (built : outermost.Built) {table : Table}
    (serves : registry.Serves outermost table) : table.Built := by
  rcases serves with rfl | ⟨language, _, build⟩
  · exact built
  · exact ⟨language.descriptor, language.source, build⟩

/-! ### Where runs read their texts -/

/-- A run of a table that was built reads its text where that stands in the outermost text. -/
structure Located (registry : Registry) (outermost : Table) (text : List Char) (lexer : Lexer)
    (run : Run σ) : Prop where
  belongs : registry.Serves outermost lexer.table
  described : lexer.table.Built
  built : run.world.cache.BuiltFrom registry
  stands : ∀ rest, run.scan.ahead = some rest →
    Text.StandsAt text (lexer.base + run.scan.cursor) rest
  owns : lexer.table.Owns run.scan.stack

namespace Located

theorem start (belongs : registry.Serves outermost lexer.table) (described : lexer.table.Built)
    (built : world.cache.BuiltFrom registry) (stands : Text.StandsAt text lexer.base piece) :
    Located registry outermost text lexer ⟨.start lexer.table piece, world⟩ := by
  obtain ⟨_, well⟩ := described.wellBuilt
  refine ⟨belongs, described, built, fun rest ahead => ?_, .new well.root⟩
  cases ahead
  exact stands

theorem step (starts : engine.registry.StartsAtCursor outermost)
    (located : Located engine.registry outermost text lexer run)
    (stepped : lexer.step engine run = .ok () next) :
    Located engine.registry outermost text lexer next := by
  obtain ⟨_, well⟩ := located.described.wellBuilt
  have built := carries_lexerStep (drift_builtFrom engine) lexer run located.built
  have keeps : KeepsOwn lexer.table (lexer.step engine) := owns_step well
  have owns := keeps run located.owns
  rw [stepped] at built owns
  have stands := (starts.placement text).of_step located.stands stepped
  exact ⟨located.belongs, located.described, built, stands, owns⟩

/-- The runs that a run comes through read their texts where these stand. -/
theorem of_reaches (starts : engine.registry.StartsAtCursor outermost) (described : outermost.Built)
    {first : Run σ} (located : Located engine.registry outermost text lexer first)
    (reaches : Reaches engine lexer first child run) :
    Located engine.registry outermost text child run := by
  induction reaches with
  | start => exact located
  | step _ _ stepped ih => exact ih.step starts stepped
  | nest _ unfinished nests ih =>
    obtain ⟨belongs, stands, built⟩ :=
      stands_of_starts starts ih.belongs ih.built ih.stands unfinished nests
    exact .start belongs (belongs.built described) built stands

end Located

/-- The text ahead is the rest of the text of the run. -/
theorem Passes.exists_front (passed : Passes engine lexer ⟨.start lexer.table piece, world⟩ run) :
    ∀ rest, run.scan.ahead = some rest →
      ∃ front, piece = front ++ rest ∧ Text.byteLength front = run.scan.cursor := by
  induction passed with
  | start =>
    intro rest ahead
    cases ahead
    exact ⟨[], rfl, rfl⟩
  | step _ _ stepped ih =>
    intro rest left
    obtain ⟨bytes, _, cursor, ahead⟩ := moves_step stepped
    rw [ahead] at left
    obtain ⟨before, was_ahead, dropped⟩ := Option.bind_eq_some_iff.mp left
    obtain ⟨front, rfl, length⟩ := ih before was_ahead
    obtain ⟨more, rfl, moved⟩ := Text.exists_of_dropBytes? dropped
    exact ⟨front ++ more, (List.append_assoc _ _ _).symm,
      by rw [Text.byteLength_append, length, moved, cursor]⟩

/-! ### What errors say -/

/-- Where a run of the lexer on the piece has come to the offset of the outermost text, a part of the piece
is left, and no rule of the state of this name matches more than nothing in it. -/
structure Lexer.StallsAt (lexer : Lexer) (text piece : List Char) (offset : Nat) (name : String) :
    Prop where
  stands : Text.StandsAt text offset
    (Text.slice text offset (lexer.base + Text.byteLength piece))
  some_left : Text.slice text offset (lexer.base + Text.byteLength piece) ≠ []
  named : ∃ state ∈ lexer.table.states, state.name = name
  unmatched : ∀ state ∈ lexer.table.states, state.name = name → ∀ rule ∈ state.rules, ∀ found,
    rule.regex.find? (Text.slice text offset (lexer.base + Text.byteLength piece)) = some found →
      found.length = 0

/-- The run leaves the only state on its stack in what a rule does whose match starts at the offset of the
outermost text. -/
structure Lexer.PopsAt (lexer : Lexer) (engine : Engine σ) (text : List Char) (run : Run σ)
    (rest : List Char) (selection : Selection) (offset : Nat) : Prop where
  ahead : run.scan.ahead = some rest
  chosen : (lexer.table.state run.scan.stack.top).select rest = some selection
  starts : offset = lexer.base + run.scan.cursor + selection.found.span.start
  stands : Text.StandsAt text offset
    (Text.slice rest selection.found.span.start selection.found.span.stop)
  pops : .pop offset ∈ (lexer.site run.scan rest selection).deeds selection.rule.behavior
  lowest : ∃ here, ComesTo engine lexer run here (.pop offset) ∧ here.scan.stack.below = []

/-- The run, which may not nest deeper, comes to hand on a group of a match, and that group starts at the
offset of the outermost text. -/
structure Lexer.HandsOnAt (lexer : Lexer) (engine : Engine σ) (text : List Char) (run : Run σ)
    (rest : List Char) (selection : Selection) (group : Nat) (span : Pattern.Span)
    (limit offset : Nat) : Prop where
  ahead : run.scan.ahead = some rest
  chosen : (lexer.table.state run.scan.stack.top).select rest = some selection
  participates : selection.found.group? group = some span
  starts : offset = lexer.base + run.scan.cursor + span.start
  stands : Text.StandsAt text offset (Text.slice rest span.start span.stop)
  some_text : Text.slice rest span.start span.stop ≠ []
  comes : ∃ here target, ComesTo engine lexer run here
    (.delegate target (Text.slice rest span.start span.stop) offset)
  deepest : limit = engine.options.maxDepth ∧ limit ≤ lexer.depth

/-- What the error of a run says holds in the innermost of the runs that failed. -/
structure ScanError.Locates (error : ScanError) (engine : Engine σ) (text : List Char) (lexer : Lexer)
    (piece : List Char) (run : Run σ) : Prop where
  stall : ∀ offset name, error = .stall offset name → lexer.StallsAt text piece offset name
  popRoot : ∀ offset, error = .popRoot offset →
    ∃ rest selection, lexer.PopsAt engine text run rest selection offset
  depthExceeded : ∀ limit offset, error = .depthExceeded limit offset →
    ∃ rest selection group span,
      lexer.HandsOnAt engine text run rest selection group span limit offset

/-- A stall is where a part of the piece is left for which its state has no rule. -/
theorem stallsAt_of_intent {rest : List Char} {offset : Nat} {name : String}
    (located : Located registry outermost text lexer run) (placed : Text.StandsAt text lexer.base piece)
    (ends : ∃ front, piece = front ++ rest ∧ Text.byteLength front = run.scan.cursor)
    (ahead : run.scan.ahead = some rest) (some_left : rest ≠ [])
    (fails : lexer.intent engine.options run.scan rest = .fail (.stall offset name)) :
    lexer.StallsAt text piece offset name := by
  obtain ⟨_, well⟩ := located.described.wellBuilt
  obtain ⟨stalled, ⟨_, same⟩ | ⟨_, other⟩⟩ := Lexer.exists_of_intent_fail fails
  · cases same
    have stands := located.stands rest ahead
    have left : Text.slice text (lexer.base + run.scan.cursor)
        (lexer.base + Text.byteLength piece) = rest := by
      obtain ⟨front, rfl, cursor⟩ := ends
      rw [Text.byteLength_append, cursor, ← Nat.add_assoc]
      exact stands.slice_eq
    refine ⟨?_, ?_, ⟨_, located.owns.state_mem, rfl⟩, ?_⟩ <;> rw [left]
    · exact stands
    · exact some_left
    · intro state member same
      rw [well.eq_of_name_eq member located.owns.state_mem same]
      exact length_eq_zero_of_select stalled
  · cases other

/-- What comes to pop is the behaviour of a match that starts at the cursor. -/
theorem exists_popsAt {here : Run σ} {offset : Nat} (starts : registry.StartsAtCursor outermost)
    (located : Located registry outermost text lexer run)
    (comes : ComesTo engine lexer run here (.pop offset)) (lowest : here.scan.stack.below = []) :
    ∃ rest selection, lexer.PopsAt engine text run rest selection offset := by
  have ⟨rest, done, others, bytes, ahead, intent, _⟩ := comes
  obtain ⟨selection, chosen, pops⟩ := Lexer.exists_of_deed_mem intent
    (List.mem_append_right done List.mem_cons_self) (by simp) (by simp) (by simp)
  obtain ⟨rules, found, longer⟩ := exists_of_select chosen
  have first := starts.start_of_select located.belongs chosen
  have here : offset = lexer.base + run.scan.cursor := Site.origin_of_pop_mem pops
  have whole := (starts.placement text).whole located.belongs (Table.mem_rules rules) found longer
    (located.stands rest ahead)
  exact ⟨rest, selection, ahead, chosen, by rw [first, here]; rfl, here ▸ whole, pops, _, comes, lowest⟩

/-- What comes to be handed on is a group of the match that starts where the position says. -/
theorem exists_handsOnAt {here : Run σ} {target : Target} {capture : List Char} {offset : Nat}
    (starts : registry.StartsAtCursor outermost) (located : Located registry outermost text lexer run)
    (comes : ComesTo engine lexer run here (.delegate target capture offset))
    (some_text : capture ≠ []) (deep : engine.options.maxDepth ≤ lexer.depth) :
    ∃ rest selection group span, lexer.HandsOnAt engine text run rest selection group span
      engine.options.maxDepth offset := by
  have ⟨rest, done, others, bytes, ahead, intent, _⟩ := comes
  have hands : Deed.delegate target capture offset ∈ done ++ .delegate target capture offset :: others :=
    List.mem_append_right done List.mem_cons_self
  have stands := (starts.placement text).of_delegate_mem located.belongs (located.stands rest ahead)
    intent hands
  obtain ⟨selection, chosen, does⟩ := Lexer.exists_of_delegate_mem intent hands
  obtain ⟨group, span, participates, rfl, position⟩ : ∃ group span,
      selection.found.group? group = some span ∧ capture = Text.slice rest span.start span.stop ∧
        offset = lexer.base + run.scan.cursor + span.start := by
    rcases does with ⟨rfl, rfl⟩ | part
    · -- The whole match is group 0, which starts at the cursor.
      have first := starts.start_of_select located.belongs chosen
      exact ⟨0, selection.found.span, rfl, rfl, by rw [first]; rfl⟩
    · exact part
  exact ⟨rest, selection, group, span, ahead, chosen, participates, position, stands, some_text,
    ⟨here, target, comes⟩, rfl, deep⟩

/-- What the error of a run says is so. -/
theorem FailsIn.locates (starts : engine.registry.StartsAtCursor outermost)
    (described : outermost.Built) {first : Run σ} {error : ScanError}
    (located : Located engine.registry outermost text lexer first)
    (failsIn : FailsIn engine lexer first error world child piece run) :
    error.Locates engine text child piece run := by
  obtain ⟨⟨before, reaches, passed⟩, unfinished, _, raises⟩ := failsIn
  have beginning := located.of_reaches starts described reaches
  have here := beginning.of_reaches starts described passed.reaches
  have placed : Text.StandsAt text child.base piece := beginning.stands piece rfl
  cases raises with
  | inside => exact ⟨nofun, nofun, nofun⟩
  | @intent rest _ ahead fails =>
    have some_left : rest ≠ [] := Scan.ne_nil_of_ahead ahead unfinished
    refine ⟨?_, ?_, ?_⟩
    · rintro offset name rfl
      exact stallsAt_of_intent here placed (passed.exists_front rest ahead) ahead some_left fails
    · rintro offset rfl
      obtain ⟨_, ⟨_, other⟩ | ⟨_, other⟩⟩ := Lexer.exists_of_intent_fail fails <;> cases other
    · rintro limit offset rfl
      obtain ⟨_, ⟨_, other⟩ | ⟨_, other⟩⟩ := Lexer.exists_of_intent_fail fails <;> cases other
  | deed comes fails =>
    refine ⟨?_, ?_, ?_⟩
    · rintro offset name rfl
      cases fails
    · rintro offset rfl
      cases fails with
      | lowest last => exact exists_popsAt starts here comes last
    · rintro limit offset rfl
      cases fails with
      | deepest some_text deep => exact exists_handsOnAt starts here comes some_text deep

/-- Where rules match at the cursor, all runs that a run comes through, at whichever depth, read what stands
in its text from their bases on. And the position in an error is where that text has what no rule was
found for, the match whose rule left the only state, or the capture that was to be handed on too deep. -/
theorem positions_count_from_outermost_text {table : Table}
    (starts : engine.registry.StartsAtCursor table) (described : table.Built) (text : List Char)
    (built : world.cache.BuiltFrom engine.registry) :
    let outermost : Lexer := { table }
    let start : Run σ := ⟨.start table text, world⟩
    (∀ child piece before, Reaches engine outermost start child ⟨.start child.table piece, before⟩ →
      Text.StandsAt text child.base piece ∧
        Text.slice text child.base (child.base + Text.byteLength piece) = piece) ∧
    ∀ error, (outermost.run engine text world).result = .error error →
      ∃ child piece run, FailsIn engine outermost start error (outermost.run engine text world).world
          child piece run ∧
        error.Locates engine text child piece run := by
  intro outermost start
  have located : Located engine.registry table text outermost start :=
    .start (.inl rfl) described built (.whole text)
  constructor
  · intro child piece before reaches
    have stands : Text.StandsAt text child.base piece :=
      (located.of_reaches starts described reaches).stands piece rfl
    exact ⟨stands, stands.slice_eq⟩
  · intro error failed
    obtain ⟨child, piece, run, failsIn⟩ := exists_failsIn_of_run failed
    exact ⟨child, piece, run, failsIn, failsIn.locates starts described located⟩

/-- The letters that follow the number are handed on, and the last of them is none that is known. -/
theorem positions_count_from_outermost_text_of_sample :
    ∃ table, Sample.registry.StartsAtCursor table ∧ table.Built ∧
      TableCache.BuiltFrom Sample.registry {} ∧
      (({ table } : Lexer).run (.collecting Sample.registry {}) "12abc".toList { sink := {} }).result =
        .error (.stall 4 rootName) ∧
      ∃ child piece, Lexer.StallsAt child "12abc".toList piece 4 rootName := by
  have stalls : (Sample.numbered.build.toOption.map fun table =>
      (({ table } : Lexer).run (.collecting Sample.registry {}) "12abc".toList
        { sink := {} }).result) = some (.error (.stall 4 rootName)) := by decide +kernel
  cases build : Sample.numbered.build with
  | error => rw [build] at stalls; cases stalls
  | ok table =>
    rw [build] at stalls
    have described : table.Built := ⟨_, _, build⟩
    have starts := Sample.startsAtCursor build
    obtain ⟨child, piece, _, _, locates⟩ :=
      (positions_count_from_outermost_text starts described "12abc".toList
        TableCache.builtFrom_empty).2 _ (Option.some.inj stalls)
    exact ⟨table, starts, described, TableCache.builtFrom_empty, Option.some.inj stalls, child, piece,
      locates.stall 4 rootName rfl⟩

end TableLexer
