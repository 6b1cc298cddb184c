/-
**Which table a name is served.**

A name finds the first language that answers to it, and tables are kept under the canonical names of the
languages. Two languages may have the same canonical name; all names that find one of them are then served
the table of the one that was asked for first.

* `cacheAfter_eq_after`: to ask for tables is to call the cache with the languages that are found.
* `table_serves_first_asked`: which table is served, and that it is shared.
* `table_serves_namesake`: a name that is served the table of another language than it finds.
-/

import TableLexer.Proofs.Language.Memo

namespace TableLexer

namespace Registry

variable (registry : Registry)

/-- The cache of a new registry after tables were asked for by the names, in order. -/
def cacheAfter (names : List String) : TableCache :=
  names.foldl (fun cache name => (registry.table cache name).cache) {}

/-- The languages that the names find, in order. -/
def asked (names : List String) : List Language := names.filterMap registry.find?

/-- The call with which the table of a language is asked for. -/
def call (language : Language) : String × Language := (language.name, language)

theorem cacheAfter_concat (names : List String) (name : String) :
    registry.cacheAfter (names ++ [name]) = (registry.table (registry.cacheAfter names) name).cache :=
  List.foldl_append

/-- To ask for tables is to call the cache with the languages that are found. -/
theorem cacheAfter_eq_after (names : List String) :
    registry.cacheAfter names = TableCache.after ((registry.asked names).map call) := by
  induction names using List.reverseRecOn with
  | nil => rfl
  | append_singleton names name ih =>
    rw [cacheAfter_concat, ih]
    unfold asked table
    rw [List.filterMap_append]
    cases found : registry.find? name with
    | none =>
      rw [List.filterMap_cons_none found, List.filterMap_nil, List.append_nil]
    | some language =>
      rw [List.filterMap_cons_some found, List.map_append]
      exact (TableCache.after_concat _ _ _).symm

/-- The language that is asked for first under a canonical name. -/
theorem find?_map_call (languages : List Language) (key : String) :
    ((languages.map call).find? (·.1 == key)) = (languages.find? (·.name == key)).map call := by
  rw [List.find?_map]
  rfl

/-- A name is served the table of the language that was asked for first among those with the canonical name
of the one that it finds. So it is served what its language describes exactly when that describes the same,
as it does if no other language has the canonical name. All names that find languages with the canonical
name are served the same shared table, from then on. A name that finds no language is told so, and nothing
is built. -/
theorem table_serves_first_asked (earlier : List String) (name : String) :
    let fetched := registry.table (registry.cacheAfter earlier) name
    (registry.find? name = none → fetched =
      { outcome := .error (.unknownLanguage name), cache := registry.cacheAfter earlier, records := [] }) ∧
    ∀ language, registry.find? name = some language → ∃ first,
      (registry.asked (earlier ++ [name])).find? (·.name == language.name) = some first ∧
      fetched.outcome.map SharedTable.table = first.build ∧
      (fetched.outcome.map SharedTable.table = language.build ↔ first.build = language.build) ∧
      ((∀ other ∈ registry.languages, other.name = language.name → other = language) →
        first = language) ∧
      ∀ later another namesake, registry.find? another = some namesake →
        namesake.name = language.name →
        (registry.table (registry.cacheAfter (earlier ++ [name] ++ later)) another).outcome =
          fetched.outcome := by
  intro fetched
  constructor
  · intro unknown
    show registry.table _ name = _
    unfold table
    rw [unknown]
  · intro language found
    have asked_last : registry.asked (earlier ++ [name]) = registry.asked earlier ++ [language] := by
      unfold asked
      rw [List.filterMap_append, List.filterMap_cons_some found, List.filterMap_nil]
    obtain ⟨slot, call, kept, outcome, first_call, served⟩ :=
      TableCache.outcome_of_after ((registry.asked earlier).map Registry.call) language.name language
    have fetched_eq : fetched.outcome = slot.outcome := by
      rw [← outcome, ← cacheAfter_eq_after]
      show (registry.table _ name).outcome = _
      unfold table
      rw [found]
    have calls : (registry.asked earlier).map Registry.call ++ [(language.name, language)] =
        (registry.asked (earlier ++ [name])).map Registry.call := by
      rw [asked_last, List.map_append]
      rfl
    rw [calls] at kept first_call
    rw [find?_map_call] at first_call
    obtain ⟨first, first_asked, rfl⟩ := Option.map_eq_some_iff.mp first_call
    have serves : fetched.outcome.map SharedTable.table = first.build := fetched_eq ▸ served
    refine ⟨first, first_asked, serves, by rw [serves], fun unique => ?_, ?_⟩
    · obtain ⟨asking, _, answers⟩ := List.mem_filterMap.mp (List.mem_of_find?_eq_some first_asked)
      exact unique first (List.mem_of_find?_eq_some answers)
        (beq_iff_eq.mp (List.find?_some first_asked :))
    · intro later another namesake answers same
      have still_kept : (registry.cacheAfter (earlier ++ [name] ++ later)).slot? language.name =
          some slot := by
        rw [cacheAfter_eq_after]
        unfold asked at kept ⊢
        rw [List.filterMap_append, List.map_append]
        exact TableCache.slot?_after_append kept _
      rw [fetched_eq]
      unfold table
      rw [answers]
      dsimp only
      rw [same, TableCache.getOrBuild_of_some namesake still_kept]

end Registry

/-! ### Two languages of one name -/

/-- A language with the one rule for the letter `a`. -/
def Sample.lettered : Language where
  descriptor := { name := "X", aliases := ["p"], description := "one" }
  source := { states := [(rootName, [⟨"a", .emit .text⟩])] }

/-- A language with the same canonical name, without rules. -/
def Sample.ruleless : Language where
  descriptor := { name := "X", aliases := ["q"], description := "two" }
  source := { states := [(rootName, [])] }

/-- A registry of the two languages. -/
def Sample.namesakes : Registry where
  languages := [Sample.lettered, Sample.ruleless]

/-- Once the language without rules was asked for, the alias of the other is served its table too. -/
theorem table_serves_namesake :
    Sample.namesakes.find? "p" = some Sample.lettered ∧
      (Sample.namesakes.table (Sample.namesakes.cacheAfter ["q"]) "p").outcome.map SharedTable.table ≠
        Sample.lettered.build := by
  have served : ((Sample.namesakes.table (Sample.namesakes.cacheAfter ["q"]) "p").outcome.map
      SharedTable.table).map Table.ruleCount = .ok 0 := by decide +kernel
  have own : Sample.lettered.build.map Table.ruleCount = .ok 1 := by decide +kernel
  refine ⟨by decide +kernel, fun same => ?_⟩
  rw [← same] at own
  cases served.symm.trans own

theorem table_serves_first_asked_of_namesakes :
    let cache := Sample.namesakes.cacheAfter ["q"]
    let fetched := Sample.namesakes.table cache "p"
    Sample.namesakes.find? "p" = some Sample.lettered ∧
      fetched.outcome.map SharedTable.table = Sample.ruleless.build ∧
      (Sample.namesakes.table (Sample.namesakes.cacheAfter ["q", "p", "p"]) "x").outcome =
        fetched.outcome ∧
      Sample.namesakes.table cache "r" =
        { outcome := .error (.unknownLanguage "r"), cache, records := [] } := by
  intro cache fetched
  have found : Sample.namesakes.find? "p" = some Sample.lettered := by decide +kernel
  obtain ⟨unknown, _⟩ := Sample.namesakes.table_serves_first_asked ["q"] "r"
  obtain ⟨_, serves⟩ := Sample.namesakes.table_serves_first_asked ["q"] "p"
  obtain ⟨first, asked, table, _, _, shared⟩ := serves Sample.lettered found
  have first_eq : first = Sample.ruleless := Option.some.inj (asked.symm.trans (by decide +kernel))
  exact ⟨found, first_eq ▸ table, shared ["p"] "x" Sample.lettered (by decide +kernel) rfl,
    unknown (by decide +kernel)⟩

end TableLexer
