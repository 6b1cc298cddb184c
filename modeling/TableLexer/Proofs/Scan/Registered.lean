/-
**Runs of the tables of a registry.**

The tables that runs get from a registry are built from its languages, on first use or earlier. When all
rules of all languages are tiling, runs therefore lose nothing, no matter which languages hand text to
which.

* `BuiltFrom.table`: looking a table up gives one that a language describes, and keeps the cache so.
* `tokens_spell_text`: the tokens of a run spell its text, up to where it ended.
-/

import TableLexer.Proofs.Scan.Lossless

namespace TableLexer

/-! ### Tables of a registry -/

/-- A language of the registry describes the table. -/
def Registry.Builds (registry : Registry) (table : Table) : Prop :=
  ∃ language ∈ registry.languages, language.build = .ok table

/-- All tables that were built are described by languages of the registry. -/
def TableCache.BuiltFrom (registry : Registry) (cache : TableCache) : Prop :=
  ∀ slot ∈ cache.slots, ∀ shared, slot.outcome = .ok shared → registry.Builds shared.table

namespace TableCache

variable {registry : Registry} {cache : TableCache}

theorem builtFrom_empty : BuiltFrom registry {} := by
  intro slot member
  cases member

theorem BuiltFrom.getOrBuild (built : cache.BuiltFrom registry) {language : Language}
    (registered : language ∈ registry.languages) (key : String) :
    (cache.getOrBuild key language).cache.BuiltFrom registry ∧
      ∀ shared, (cache.getOrBuild key language).outcome = .ok shared → registry.Builds shared.table := by
  unfold TableCache.getOrBuild
  cases kept : cache.slot? key with
  | some slot => exact ⟨built, built slot (List.mem_of_find?_eq_some kept)⟩
  | none =>
    have fresh : ∀ shared : SharedTable,
        language.build.map (⟨cache.slots.length, ·⟩) = .ok shared → registry.Builds shared.table := by
      intro shared outcome
      cases build : language.build with
      | error => rw [build] at outcome; cases outcome
      | ok table =>
        rw [build] at outcome
        cases outcome
        exact ⟨language, registered, build⟩
    refine ⟨fun slot member => ?_, fresh⟩
    rcases List.mem_append.mp member with earlier | last
    · exact built slot earlier
    · rw [List.mem_singleton.mp last]
      exact fresh

/-- Looking a table up gives one that a language describes, and keeps the cache so. -/
theorem BuiltFrom.table (built : cache.BuiltFrom registry) (name : String) :
    (registry.table cache name).cache.BuiltFrom registry ∧
      ∀ shared, (registry.table cache name).outcome = .ok shared → registry.Builds shared.table := by
  unfold Registry.table
  cases found : registry.find? name with
  | some language => exact built.getOrBuild (List.mem_of_find?_eq_some found) language.name
  | none =>
    refine ⟨built, fun shared outcome => ?_⟩
    cases outcome

end TableCache

/-! ### Registries with tiling rules -/

/-- All rules of all languages are tiling. -/
def Registry.Tiling (registry : Registry) : Prop :=
  ∀ table, registry.Builds table → ∀ rule ∈ table.rules, rule.Tiling

/-- The tables of a registry with tiling rules hand text to each other only. -/
theorem Registry.Tiling.family {registry : Registry} (tiling : registry.Tiling) :
    TilingFamily registry registry.Builds (TableCache.BuiltFrom registry) where
  tiling := tiling
  stays := by
    intro table _ rule _ target _
    cases target with
    | current => trivial
    | named language => exact fun cache built => built.table language

/-- Where all rules of all languages are tiling, the tokens of a run spell its text, up to where it ended:
at whichever level of nesting that was, under all options and limits, and whatever was built before. -/
theorem tokens_spell_text {registry : Registry} (tiling : registry.Tiling) {table : Table}
    (described : registry.Builds table) (options : Options) (text : List Char) (limit : Option Nat)
    (refusal : String) {cache : TableCache} (built : cache.BuiltFrom registry) (log : Array Record) :
    (({ table } : Lexer).run (.collecting registry options) text
      { sink := { limit, refusal }, cache, log }).Spells text :=
  spells_run tiling.family described built rfl

/-! ### A registry of two languages

A rule of the one language hands a part of its match to the other, which may not be able to read it. -/

/-- A rule with two groups, the second of which the language `Letters` reads. -/
def Sample.numbered : Language where
  descriptor := { name := "Numbered" }
  source :=
    { states := [(rootName,
        [⟨"([0-9]+)([a-z]*)", .composite
          [.emit 1 .literalNumber, .push rootName, .delegate 2 (.named "letters"), .pop]⟩])] }

/-- Reads the letters `a` and `b`. -/
def Sample.letters : Language where
  descriptor := { name := "Letters" }
  source := { states := [(rootName, [⟨"[ab]", .emit .name⟩])] }

/-- A registry of the two languages. -/
def Sample.registry : Registry where
  languages := [Sample.numbered, Sample.letters]

/-- Whether the form of all rules of all languages shows that they are tiling. -/
def Registry.tilesByForm (registry : Registry) : Bool :=
  registry.languages.all fun language =>
    language.build.toOption.all fun table => table.rules.all Rule.tilesByForm

theorem Registry.tiling_of_form {registry : Registry} (form : registry.tilesByForm = true) :
    registry.Tiling := by
  rintro table ⟨language, registered, build⟩ rule member
  have tables := List.all_eq_true.mp form language registered
  rw [build] at tables
  exact Rule.tiling_of_form (List.all_eq_true.mp tables rule member)

theorem tokens_spell_text_of_sample :
    ∃ table, Sample.registry.Builds table ∧ Sample.registry.Tiling ∧
      TableCache.BuiltFrom Sample.registry {} ∧
      let outcome := ({ table } : Lexer).run (.collecting Sample.registry {}) "12abc".toList
        { sink := {} }
      outcome.result = .error (.stall 4 rootName) ∧ outcome.Spells "12abc".toList := by
  have tiling : Sample.registry.Tiling := Registry.tiling_of_form (by decide +kernel)
  have stalls : (Sample.numbered.build.toOption.map fun table =>
      (({ table } : Lexer).run (.collecting Sample.registry {}) "12abc".toList
        { sink := {} }).result) = some (.error (.stall 4 rootName)) := by decide +kernel
  cases build : Sample.numbered.build with
  | error => rw [build] at stalls; cases stalls
  | ok table =>
    rw [build] at stalls
    have described : Sample.registry.Builds table := ⟨Sample.numbered, List.mem_cons_self, build⟩
    exact ⟨table, described, tiling, TableCache.builtFrom_empty, Option.some.inj stalls,
      tokens_spell_text tiling described {} _ none _ TableCache.builtFrom_empty #[]⟩

end TableLexer
