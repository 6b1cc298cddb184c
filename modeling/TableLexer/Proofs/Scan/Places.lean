/-
**Where the text of a run stands in the outermost text.**

A run reads the outermost text or a part of it. Its base is the position of that part, and all positions in
it are counted from there.

* `Text.StandsAt`: a piece stands at a position of a text.
* `Placement`: what is known of the pieces at their positions is known of what is left of a piece and of
  what a rule matched in it.
* `Lexer.exists_of_delegate_mem`: which texts a step hands on.
* `Placement.of_delegate_mem`: a step hands on texts that are where it says.
-/

import TableLexer.Proofs.Scan.Deeds
import TableLexer.Proofs.Scan.Registered

namespace TableLexer

namespace Text

/-- The piece stands in the text, from the byte `offset` on. -/
def StandsAt (text : List Char) (offset : Nat) (piece : List Char) : Prop :=
  ∃ before after, text = before ++ (piece ++ after) ∧ byteLength before = offset

/-- What is left after dropping bytes stands behind a part with these bytes. -/
theorem exists_of_dropBytes? {text rest : List Char} {bytes : Nat}
    (dropped : dropBytes? text bytes = some rest) :
    ∃ front, text = front ++ rest ∧ byteLength front = bytes := by
  fun_induction dropBytes? text bytes with
  | case1 => exact ⟨[], Option.some.inj dropped, rfl⟩
  | case2 => cases dropped
  | case3 c tail bytes fits ih =>
    obtain ⟨front, same, length⟩ := ih dropped
    refine ⟨c :: front, by rw [same, List.cons_append], ?_⟩
    rw [byteLength, length]
    omega
  | case4 => cases dropped

namespace StandsAt

variable {text piece rest : List Char} {offset bytes : Nat}

theorem whole (text : List Char) : StandsAt text 0 text :=
  ⟨[], [], (List.append_nil text).symm, rfl⟩

/-- The piece is the slice of the text at its position. -/
theorem slice_eq (stands : StandsAt text offset piece) :
    slice text offset (offset + byteLength piece) = piece := by
  obtain ⟨before, after, rfl, rfl⟩ := stands
  exact slice_append before piece after

/-- What is left of the piece after dropping bytes stands that much further on. -/
theorem drop (stands : StandsAt text offset piece) (dropped : dropBytes? piece bytes = some rest) :
    StandsAt text (offset + bytes) rest := by
  obtain ⟨before, after, rfl, rfl⟩ := stands
  obtain ⟨front, rfl, rfl⟩ := exists_of_dropBytes? dropped
  exact ⟨before ++ front, after, by simp only [List.append_assoc], byteLength_append before front⟩

/-- A part of the piece stands where it begins in the piece, counted from there. -/
theorem part (stands : StandsAt text offset piece) {span : Pattern.Span} (within : span.Within piece) :
    StandsAt text (offset + span.start) (slice piece span.start span.stop) := by
  obtain ⟨before, after, rfl, rfl⟩ := stands
  obtain ⟨first, middle, last, rfl, start, stop⟩ := within
  have middle_slice : slice (first ++ (middle ++ last)) span.start span.stop = middle := by
    rw [start, stop]
    exact slice_append first middle last
  rw [middle_slice, start, ← byteLength_append]
  exact ⟨before ++ first, last ++ after, by simp only [List.append_assoc], rfl⟩

end StandsAt

end Text

/-! ### Rules that match at the cursor -/

/-- What the rule matches, and more than nothing, begins at the cursor. -/
def Rule.StartsAtCursor (rule : Rule) : Prop :=
  ∀ text found, rule.regex.find? text = some found → found.length ≠ 0 → found.span.start = 0

/-- A run of the outermost table uses that table and those that languages of the registry describe. -/
def Registry.Serves (registry : Registry) (outermost table : Table) : Prop :=
  table = outermost ∨ registry.Builds table

/-- What the rules of the outermost table and of all languages match begins at the cursor. -/
def Registry.StartsAtCursor (registry : Registry) (outermost : Table) : Prop :=
  ∀ table, registry.Serves outermost table → ∀ rule ∈ table.rules, rule.StartsAtCursor

/-- The match of a rule that a state chooses begins at the cursor. -/
theorem Registry.StartsAtCursor.start_of_select {registry : Registry} {outermost table : Table}
    (starts : registry.StartsAtCursor outermost) (belongs : registry.Serves outermost table)
    {id : StateId} {text : List Char} {selection : Selection}
    (chosen : (table.state id).select text = some selection) : selection.found.span.start = 0 := by
  obtain ⟨rules, found, longer⟩ := exists_of_select chosen
  exact starts table belongs selection.rule (Table.mem_rules rules) text selection.found found longer

/-- Tiling rules match at the cursor. -/
theorem Registry.Tiling.startsAtCursor {registry : Registry} (tiling : registry.Tiling)
    {outermost : Table} (builds : registry.Builds outermost) :
    registry.StartsAtCursor outermost := by
  rintro table (rfl | other) rule member text found here longer
  · exact (tiling table builds rule member text found here longer).1
  · exact (tiling table other rule member text found here longer).1

theorem Sample.startsAtCursor {table : Table} (build : Sample.numbered.build = .ok table) :
    Sample.registry.StartsAtCursor table :=
  (Registry.tiling_of_form (by decide +kernel)).startsAtCursor
    ⟨Sample.numbered, List.mem_cons_self, build⟩

/-- What is known of pieces at positions: it stays known of what is left of a piece, and of the groups and
the whole of a match of one of the tables. -/
structure Placement (member : Table → Prop) (placed : Nat → List Char → Prop) : Prop where
  drop : ∀ {offset piece bytes rest}, placed offset piece →
    Text.dropBytes? piece bytes = some rest → placed (offset + bytes) rest
  part : ∀ {offset piece} {span : Pattern.Span}, placed offset piece → span.Within piece →
    placed (offset + span.start) (Text.slice piece span.start span.stop)
  whole : ∀ {offset piece} {table : Table} {rule : Rule} {found : Pattern.Match}, member table →
    rule ∈ table.rules → rule.regex.find? piece = some found → found.length ≠ 0 →
    placed offset piece → placed offset (Text.slice piece found.span.start found.span.stop)

/-- Nothing at all may be known of the pieces. -/
theorem placement_trivial : Placement (fun _ => True) fun _ _ => True :=
  ⟨fun _ _ => trivial, fun _ _ => trivial, fun _ _ _ _ _ => trivial⟩

/-- Where rules match at the cursor, pieces stand where they are said to. -/
theorem Registry.StartsAtCursor.placement {registry : Registry} {outermost : Table}
    (starts : registry.StartsAtCursor outermost) (text : List Char) :
    Placement (registry.Serves outermost) (Text.StandsAt text) where
  drop := Text.StandsAt.drop
  part stands within := stands.part within
  whole := by
    intro offset piece table rule found member rules found_here longer stands
    have within := rule.regex.within_of_find? found_here 0 _ rfl
    have here := stands.part within
    rw [starts table member rule rules piece found found_here longer] at here ⊢
    exact here

/-- A text that a step hands on is the whole match or one of its groups. -/
theorem Lexer.exists_of_delegate_mem {lexer : Lexer} {options : Options} {scan : Scan}
    {text : List Char} {deeds : List Deed} {bytes : Nat}
    (intent : lexer.intent options scan text = .go deeds bytes) {target : Target}
    {piece : List Char} {offset : Nat} (hands : .delegate target piece offset ∈ deeds) :
    ∃ selection, (lexer.table.state scan.stack.top).select text = some selection ∧
      (piece = Text.slice text selection.found.span.start selection.found.span.stop ∧
          offset = lexer.base + scan.cursor ∨
        ∃ group span, selection.found.group? group = some span ∧
          piece = Text.slice text span.start span.stop ∧
          offset = lexer.base + scan.cursor + span.start) := by
  obtain ⟨selection, chosen, does⟩ :=
    Lexer.exists_of_deed_mem intent hands (by simp) (by simp) (by simp)
  refine ⟨selection, chosen, ?_⟩
  cases behavior : selection.rule.behavior with
  | emit | emitAndPush | emitAndPop => simp [behavior, Step.Site.deeds] at does
  | delegate other =>
    simp only [behavior, Step.Site.deeds, List.mem_singleton, Deed.delegate.injEq] at does
    exact .inl does.2
  | composite actions =>
    simp only [behavior, Step.Site.deeds] at does
    obtain ⟨action, _, same⟩ := List.mem_filterMap.mp does
    cases action with
    | emit | push | pop => simp [Step.Site.deed?] at same
    | delegate group other =>
      obtain ⟨span, participates, same⟩ := Option.map_eq_some_iff.mp same
      cases same
      exact .inr ⟨group, span, participates, rfl, rfl⟩

namespace Placement

variable {member : Table → Prop} {placed : Nat → List Char → Prop} {lexer : Lexer}
  {options : Options} {scan : Scan} {text : List Char}

/-- A text that a step hands on is where the step says. -/
theorem of_delegate_mem (placement : Placement member placed) (belongs : member lexer.table)
    (here : placed (lexer.base + scan.cursor) text) {deeds : List Deed} {bytes : Nat}
    (intent : lexer.intent options scan text = .go deeds bytes) {target : Target}
    {piece : List Char} {offset : Nat} (hands : .delegate target piece offset ∈ deeds) :
    placed offset piece := by
  obtain ⟨selection, chosen, hands⟩ := Lexer.exists_of_delegate_mem intent hands
  obtain ⟨rules, found, longer⟩ := exists_of_select chosen
  rcases hands with ⟨rfl, rfl⟩ | ⟨group, span, participates, rfl, rfl⟩
  · exact placement.whole belongs (Table.mem_rules rules) found longer here
  · exact placement.part here (selection.rule.regex.within_of_find? found group span participates)

/-- After a step the text ahead is where the cursor is. -/
theorem of_step {σ : Type} {engine : Engine σ} {nested : Option (NestedRun σ)}
    (placement : Placement member placed) {run next : Run σ}
    (here : ∀ text, run.scan.ahead = some text → placed (lexer.base + run.scan.cursor) text)
    (stepped : step engine nested lexer run = .ok () next) :
    ∀ text, next.scan.ahead = some text → placed (lexer.base + next.scan.cursor) text := by
  obtain ⟨bytes, _, cursor, ahead⟩ := moves_step stepped
  intro rest left
  rw [ahead] at left
  obtain ⟨text, was_ahead, dropped⟩ := Option.bind_eq_some_iff.mp left
  rw [cursor, ← Nat.add_assoc]
  exact placement.drop (here text was_ahead) dropped

end Placement

end TableLexer
