/-
**Languages, the tables built for them, and the registry that finds them.**

* `TableCache.getOrBuild`: the table kept under a key, built on first use. A failure is kept like a
  success and is not tried again.
* `Registry.find?`, `findByFilename?`, `findByMimetype?`: the first registered language that answers.
* `Registry.table`: the table of the language that answers to a name.
-/

import TableLexer.Log

namespace TableLexer

/-- A language: its facts and the description of its table. -/
structure Language where
  descriptor : Descriptor
  source : TableSource
  /-- The language comes with the library. -/
  builtin : Bool := false
  deriving DecidableEq, Repr

/-- The canonical name of the language. -/
def Language.name (language : Language) : String := language.descriptor.name

/-- Builds the table of the language. -/
def Language.build (language : Language) : Except BuildError Table :=
  Table.build language.descriptor language.source

/-- A table that is shared by all who ask for its key. -/
structure SharedTable where
  /-- Tells shared tables apart. -/
  serial : Nat
  table : Table
  deriving DecidableEq, Repr

/-- What was built under a key. -/
structure Slot where
  key : String
  /-- The language whose description was built. -/
  language : Language
  outcome : Except BuildError SharedTable

/-- What was built so far, in the order of building. Those who ask the cache do so one after another; two at
a time are not described. -/
structure TableCache where
  slots : List Slot := []

/-- The answer of a cache: the outcome, the cache afterwards, and what there is to log. -/
structure Fetched where
  outcome : Except BuildError SharedTable
  cache : TableCache
  records : List Record

namespace TableCache

/-- What was built under the key, if anything was. -/
def slot? (cache : TableCache) (key : String) : Option Slot := cache.slots.find? (·.key == key)

/-- Something was built under the key, with or without success. -/
def isBuilt (cache : TableCache) (key : String) : Bool := (cache.slot? key).isSome

/-- How many descriptions of languages that do not come with the library were built. -/
def customBuilds (cache : TableCache) : Nat := cache.slots.countP (!·.language.builtin)

/-- What building a table tells. -/
def buildRecords (key : String) (language : Language) : Except BuildError Table → List Record
  | .ok table =>
    [.building key, .compiled language.name table.states.length table.ruleCount]
  | .error error => [.building key, .buildFailed key error]

/-- The table kept under the key, built from the language on first use. -/
def getOrBuild (cache : TableCache) (key : String) (language : Language) : Fetched :=
  match cache.slot? key with
  | some slot => { outcome := slot.outcome, cache, records := [] }
  | none =>
    let built := language.build
    let outcome := built.map (⟨cache.slots.length, ·⟩)
    { outcome
      cache := { slots := cache.slots ++ [⟨key, language, outcome⟩] }
      records := buildRecords key language built }

end TableCache

/-- The languages that can be named, in the order of their registration. -/
structure Registry where
  languages : List Language := []
  deriving DecidableEq, Repr

namespace Registry

/-- The first language that answers to the name. -/
def find? (registry : Registry) (name : String) : Option Language :=
  registry.languages.find? (·.descriptor.answersTo name)

/-- The first language one of whose globs matches the file. -/
def findByFilename? (registry : Registry) (path : String) : Option Language :=
  registry.languages.find? (·.descriptor.matchesFilename path)

/-- The first language of the media type. -/
def findByMimetype? (registry : Registry) (mimetype : String) : Option Language :=
  registry.languages.find? (·.descriptor.matchesMimetype mimetype)

/-- The table of the language that answers to the name, built on first use. -/
def table (registry : Registry) (cache : TableCache) (name : String) : Fetched :=
  match registry.find? name with
  | some language => cache.getOrBuild language.name language
  | none => { outcome := .error (.unknownLanguage name), cache, records := [] }

end Registry

end TableLexer
