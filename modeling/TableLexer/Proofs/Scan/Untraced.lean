/-
**Runs that are traced, and runs that are not.**

A traced run writes a record of each choice of a rule. It does nothing else for being traced: it goes the
same way, to the same end, and without these records its log is that of the run that is not traced.

* `Likeness.untraced`: how a traced run is like the other.
* `trace_changes_log_only`: what the two have in common.
-/

import TableLexer.Proofs.Scan.Imitated
import TableLexer.Proofs.Scan.Watched

namespace TableLexer

open Step

variable {σ : Type}

/-- The engine whose runs are traced, or are not. -/
def Engine.tracing (engine : Engine σ) (trace : Bool) : Engine σ :=
  { engine with options := { engine.options with trace } }

/-- The records but those of choices. -/
def Record.withoutTraces (records : List Record) : List Record := records.filter (·.level != .trace)

/-- Since the log was `before`, the one has got records, and the other has got the same but for those of
choices. -/
def Record.Untraced (before log other : Array Record) : Prop :=
  ∃ records : List Record, log = before ++ records ∧ other = before ++ withoutTraces records

namespace Record

variable {before log other : Array Record}

theorem Untraced.append (same : Untraced before log other) {records others : List Record}
    (later : others = withoutTraces records) : Untraced before (log ++ records) (other ++ others) := by
  obtain ⟨earlier, rfl, rfl⟩ := same
  have joined (one more : List Record) : before ++ one ++ more = before ++ (one ++ more) :=
    Array.ext' (by simp)
  refine ⟨earlier ++ records, joined _ _, ?_⟩
  rw [later, joined, withoutTraces, withoutTraces, withoutTraces, List.filter_append]

theorem withoutTraces_eq_self {records : List Record} (level : ∀ record ∈ records, record.level ≠ .trace) :
    withoutTraces records = records :=
  List.filter_eq_self.mpr fun record member => bne_iff_ne.mpr (level record member)

/-- To look a table up traces no choice. -/
theorem level_of_lookUp (registry : Registry) (cache : TableCache) (name : String) :
    ∀ record ∈ (registry.table cache name).records, record.level ≠ .trace := by
  unfold Registry.table TableCache.getOrBuild
  cases registry.find? name with
  | none => exact nofun
  | some language =>
    dsimp only
    cases cache.slot? language.name with
    | some slot => exact nofun
    | none =>
      dsimp only
      cases language.build <;> simp [TableCache.buildRecords, level]

end Record

/-- A traced run is like the run that is not traced, but for the records of choices. -/
def Likeness.untraced (engine : Engine σ) (before : Array Record) :
    Likeness (engine.tracing true) (engine.tracing false) where
  tables := Eq
  states _ _ := Eq
  worlds world twin :=
    world.sink = twin.sink ∧ world.cache = twin.cache ∧ Record.Untraced before world.log twin.log
  leaves _ := False
  limit := rfl
  policy := rfl
  language same := congrArg Table.language same
  root same := congrArg Table.root same
  name := by
    rintro table _ state _ rfl rfl
    rfl
  selects := by
    rintro table _ state _ text rfl rfl
    cases (table.state state).select text with
    | none => exact .none
    | some selection => exact .some rfl rfl rfl (Behavior.alike_self fun _ _ => rfl)
  notes := by
    rintro world twin record level ⟨sink, cache, log⟩
    exact ⟨sink, cache, log.append
      (Record.withoutTraces_eq_self (List.forall_mem_singleton.mpr level)).symm⟩
  tells := by
    rintro world twin record level ⟨sink, cache, log⟩
    refine ⟨sink, cache, log.append ?_⟩
    show [] = [record].filter (·.level != .trace)
    simp [level]
  looksUp := by
    rintro ⟨sink, cache, log⟩ ⟨twinSink, twinCache, twinLog⟩ name ⟨sinks, caches, logs⟩
    obtain rfl : cache = twinCache := caches
    exact ⟨SameOutcome.refl (fun _ => rfl) _, sinks, rfl, logs.append
      (Record.withoutTraces_eq_self (Record.level_of_lookUp _ _ _)).symm⟩
  offers := by
    rintro world twin token ⟨sink, cache, log⟩
    unfold Engine.tracing
    dsimp only
    rw [sink]
    cases engine.emitter.emit token twin.sink with
    | ok _ after => exact ⟨rfl, cache, log⟩
    | error message after => exact ⟨rfl, rfl, cache, log⟩

/-- A traced run ends as the run that is not traced, in the same world but for the log. -/
theorem untraced_drive (engine : Engine σ) (lexer : Lexer) (text : List Char) (world : World σ) :
    let run (trace : Bool) := lexer.drive (engine.tracing trace) ⟨.start lexer.table text, world⟩
    ending (run true) = ending (run false) ∧
      (endOf (run true)).world.sink = (endOf (run false)).world.sink ∧
      (endOf (run true)).world.cache = (endOf (run false)).world.cache ∧
      Record.Untraced world.log (endOf (run true)).world.log (endOf (run false)).world.log := by
  intro run
  let like := Likeness.untraced engine world.log
  have worlds : like.worlds world world :=
    ⟨rfl, rfl, [], Array.appendList_nil.symm, Array.appendList_nil.symm⟩
  have lexers : Lexer.Alike like.tables lexer lexer := ⟨rfl, rfl, rfl⟩
  have ends : like.Ends lexer.table lexer.table Eq (run true) (run false) :=
    Likeness.ends_drive lexers text worlds
  exact ends.ending_eq (fun _ _ => id) fun _ _ => id

/-- To trace a run changes nothing but its log. With any registry, policy, limit and sink, the traced run and
the run that is not traced end in the same way, with the same counters, and emit the same tokens. The log of
the one that is not traced is that of the other, without the records of choices that the run has added. -/
theorem trace_changes_log_only (engine : Engine σ) (lexer : Lexer) (text : List Char) (world : World σ) :
    let run (trace : Bool) := lexer.drive (engine.tracing trace) ⟨.start lexer.table text, world⟩
    let watched (trace : Bool) := lexer.drive (engine.watched.tracing trace)
      ⟨.start lexer.table text, world.watched⟩
    let taken (trace : Bool) := (endOf (watched trace)).world.sink.taken
    (∀ trace, ending (watched trace) = ending (run trace) ∧
      (endOf (watched trace)).world.sink.sink = (endOf (run trace)).world.sink) ∧
    ending (run true) = ending (run false) ∧ taken true = taken false ∧
      (endOf (run true)).world.sink = (endOf (run false)).world.sink ∧
      (endOf (run true)).world.cache = (endOf (run false)).world.cache ∧
    ∃ records : List Record, (endOf (run true)).world.log = world.log ++ records ∧
      (endOf (run false)).world.log = world.log ++ records.filter (·.level != .trace) := by
  intro run watched taken
  have same (trace : Bool) : ending (watched trace) = ending (run trace) ∧
      (endOf (watched trace)).world.sink.sink = (endOf (run trace)).world.sink :=
    watched_drive (engine.tracing trace) lexer text world
  obtain ⟨ends, sink, cache, log⟩ := untraced_drive engine lexer text world
  have watched_sink := (untraced_drive engine.watched lexer text world.watched).2.1
  exact ⟨same, ends, congrArg Watched.taken watched_sink, sink, cache, log⟩

end TableLexer
