/-
**Runs of the Java table.**

* `java_tokens_spell_text`: the tokens of a run spell its text, up to where it ended.
* `java_fails_by_stalling_only`: while the emitter takes every token, a run can only fail by a stall.
-/

import TableLexer.Proofs.Java.Table
import TableLexer.Proofs.Scan.Settled
import TableLexer.Proofs.Scan.Stacks
import TableLexer.Tokenize

namespace TableLexer

/-! ### Nothing is lost -/

/-- The table hands text to itself only, so nothing that a registry names matters. -/
theorem Java.Known.family {table : Table} (known : Java.Known table) (registry : Registry) :
    TilingFamily registry (· = table) fun _ => True where
  tiling := by
    rintro _ rfl rule member
    exact known.tiling rule member
  stays := by
    rintro _ rfl rule member target hands
    rw [known.current rule member target hands]
    trivial

/-- The tokens of a run of the Java table spell its text, up to where it ended: under all options and limits,
those of nested runs included. -/
theorem java_tokens_spell_text :
    ∃ table, Java.table = .ok table ∧
      ∀ (registry : Registry) (options : Options) (text : List Char) (limit : Option Nat)
        (refusal : String) (cache : TableCache) (log : Array Record),
        (({ table } : Lexer).run (.collecting registry options) text
          { sink := { limit, refusal }, cache, log }).Spells text := by
  obtain ⟨table, built, known⟩ := Java.exists_table
  refine ⟨table, built, fun registry options text limit refusal cache log => ?_⟩
  exact spells_run (known.family registry) rfl trivial rfl

/-! ### Stalls and nothing else -/

namespace Java

/-- The stacks of a scan, by the names of their states. -/
def stackShapes : List (List String) :=
  [[rootName], [rootName, classState], [rootName, importState]]

/-- What holds wherever a run of the table comes through, with a lexer of its own or of a nested run. -/
structure Holds {σ : Type} (engine : Engine σ) (table : Table) (lexer : Lexer) (run : Run σ) : Prop where
  same : lexer.table = table
  depth : lexer.depth ≤ 1
  deepest : run.scan.metrics.maxDepth ≤ 1
  stack : table.stackNames run.scan.stack ∈ stackShapes
  /-- The next step comes to such a stack too, even if it fails. -/
  next : run.scan.isDone = false →
    table.stackNames (Step.endOf (lexer.step engine run)).scan.stack ∈ stackShapes
  /-- In a nested run, the rule for the head of a method does not match. -/
  nested : 0 < lexer.depth → ∀ rule ∈ table.rules, rule.source = signature.pattern →
    ∃ here, run.scan.ahead = some here ∧ rule.regex.find? here = none

theorem Known.stackNames_mem {table : Table} (known : Known table) {stack : StateStack}
    (upright : table.Upright leaves stack) : table.stackNames stack ∈ stackShapes := by
  have names := known.names
  simp only [stateNames, leaves, List.map_cons, List.map_nil, List.cons.injEq, and_true] at names
  obtain ⟨root, cls, imported⟩ := names
  rcases upright with rfl | ⟨leaf, entered, rfl⟩
  · show [(table.state table.root).name] ∈ stackShapes
    rw [root]
    exact List.mem_cons_self
  · show [(table.state table.root).name, (table.state leaf).name] ∈ stackShapes
    simp only [leaves, List.mem_cons, List.not_mem_nil, or_false] at entered
    rcases entered with rfl | rfl
    · rw [root, cls]
      simp [stackShapes]
    · rw [root, imported]
      simp [stackShapes]

theorem Known.holds {σ : Type} {table : Table} (known : Known table) {engine : Engine σ}
    (shallow : 1 ≤ engine.options.maxDepth) {text : List Char} {world : World σ} {child : Lexer}
    {run : Run σ} (reached : Reaches engine { table } ⟨.start table text, world⟩ child run) :
    Holds engine table child run := by
  let lexer : Lexer := { table }
  have orderly : lexer.table.Orderly '(' leaves := known.orderly
  obtain ⟨same, piece, nests, now, next⟩ := goesOn_of_reaches orderly shallow reached
  have same : child.table = table := same
  rw [same] at now next
  have depth : child.depth ≤ 1 := by
    rcases nests with rfl | ⟨one, _⟩
    · exact Nat.zero_le 1
    · exact Nat.le_of_eq one
  refine ⟨same, depth, now.balanced.shallow, known.stackNames_mem now.balanced.upright,
    fun unfinished => known.stackNames_mem (next unfinished).balanced.upright, ?_⟩
  intro deep rule member source
  obtain ⟨here, ahead, suffix⟩ := now.ahead
  refine ⟨here, ahead, ?_⟩
  rcases nests with rfl | ⟨_, missing⟩
  · exact absurd deep (Nat.lt_irrefl 0)
  · have needs := known.signature rule member source
    refine Option.eq_none_iff_forall_ne_some.mpr fun found matches_here => ?_
    exact absurd (suffix.subset (rule.regex.mem_of_needs needs matches_here)) missing

end Java

/-- While the emitter takes every token and one level of nesting is allowed, a run of the Java table can only
fail by a stall, under the strict policy. Its stacks, and those of nested runs, hold the root state and one
of the two others at most; and nested runs nest no deeper. -/
theorem java_fails_by_stalling_only :
    ∃ table, Java.table = .ok table ∧ (∃ rule ∈ table.rules, rule.source = Java.signature.pattern) ∧
      ∀ {σ : Type} (engine : Engine σ) (text : List Char) (world : World σ),
        engine.emitter.NeverFails world.sink → 1 ≤ engine.options.maxDepth →
        (match (({ table } : Lexer).run engine text world).result with
          | .ok metrics => metrics.maxDepth ≤ 1
          | .error error =>
            engine.options.stall = .strict ∧ ∃ offset state, error = .stall offset state) ∧
        ∀ child run, Reaches engine { table } ⟨.start table text, world⟩ child run →
          Java.Holds engine table child run := by
  obtain ⟨table, built, known⟩ := Java.exists_table
  refine ⟨table, built, known.present, fun {σ} engine text world neverFails shallow =>
    ⟨?_, fun child run reached => known.holds shallow reached⟩⟩
  obtain ⟨sinks, sink, takes⟩ := neverFails
  let lexer : Lexer := { table }
  have orderly : lexer.table.Orderly '(' Java.leaves := known.orderly
  have serves : engine.Serves
      (fun error => engine.options.stall = .strict ∧ ∃ offset state, error = .stall offset state)
      sinks :=
    ⟨fun token before fine => .inl (takes token before fine), fun strict offset state =>
      ⟨strict, offset, state, rfl⟩⟩
  have ends := ends_run orderly serves shallow text sink
  unfold Lexer.run
  generalize lexer.drive engine _ = result at ends
  cases ends with
  | ok settled => exact settled.balanced.shallow
  | error stalled _ => exact stalled

theorem java_fails_by_stalling_only_of_method :
    ∃ table, Java.table = .ok table ∧
      let engine : Engine Collector := .collecting .builtins { maxDepth := 1 }
      let text := "public int size() \x7b #".toList
      engine.emitter.NeverFails {} ∧ 1 ≤ engine.options.maxDepth ∧
        (match (({ table } : Lexer).run engine text { sink := {} }).result with
          | .ok metrics => metrics.maxDepth ≤ 1
          | .error error =>
            engine.options.stall = .strict ∧ ∃ offset state, error = .stall offset state) ∧
        ∀ child run, Reaches engine { table } ⟨.start table text, { sink := {} }⟩ child run →
          Java.Holds engine table child run := by
  obtain ⟨table, built, _, holds⟩ := java_fails_by_stalling_only
  have neverFails : Collector.emitter.NeverFails {} := Collector.neverFails rfl
  exact ⟨table, built, neverFails, Nat.le_refl 1, holds _ _ _ neverFails (Nat.le_refl 1)⟩

end TableLexer
