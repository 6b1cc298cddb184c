/-
**Tokenizing a text from scratch**: with the languages that come with the library, from texts or from
bytes that are still to be decoded.
-/

import TableLexer.Java
import TableLexer.Scan.Run

namespace TableLexer

/-- A registry of the languages that come with the library. -/
def Registry.builtins : Registry where
  languages := [Java.language]

/-- The cache in which the tables of the languages that come with the library are built. -/
def TableCache.builtins : TableCache :=
  Registry.builtins.languages.foldl (fun cache language => (cache.getOrBuild language.name language).cache) {}

/-- Bytes that are read up to their end or up to a failure. -/
structure Input where
  bytes : ByteArray
  /-- What reading failed with. -/
  failure : Option String := none

/-- The text of the bytes. A failure to read comes before malformed bytes. -/
def Input.text? (input : Input) : Except ScanError (List Char) :=
  match input.failure with
  | some message => .error (.read message)
  | none =>
    match String.fromUTF8? input.bytes with
    | some text => .ok text.toList
    | none => .error (.read "stream did not contain valid UTF-8")

/-- Decodes bytes and tokenizes them. Nothing is looked up before the text is read. -/
def Engine.tokenizeInput {σ : Type} (engine : Engine σ) (language : String) (input : Input)
    (world : World σ) : Outcome σ :=
  match input.text? with
  | .ok text => engine.tokenize language text world
  | .error error => ⟨.error error, world⟩

/-- The tokens of a text, with default options. -/
def tokenize (language text : String) : Except ScanError (List Token) :=
  let engine : Engine Collector := ⟨.builtins, {}, Collector.emitter⟩
  let outcome := engine.tokenize language text.toList { sink := {} }
  outcome.result.map fun _ => outcome.world.sink.tokens.toList

end TableLexer
