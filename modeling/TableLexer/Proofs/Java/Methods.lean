/-
**The names of methods.**

A token for the name of a method comes from the head of a method, and from nothing else: the scan comes, in
the root state, to a place where a head stands. This is the first rule of the state, so nothing else is tried
before it, and the text before the name has no parenthesis, so no nested run comes to a head. A head asks of
the name that it is an identifier; words that are reserved are identifiers to it.

* `Head.Ahead`: a head stands where the scan is.
* `names_of_turn`, `nameless_of_reads`, `names_of_drive`: the methods that a turn, a nested run and a run name.
* `method_names_stand_at_heads`: the methods that a run names, and when one of them is a word that is reserved.
-/

import TableLexer.Proofs.Java.Reserved
import TableLexer.Proofs.Java.Table
import TableLexer.Proofs.Scan.Paths
import TableLexer.Tokenize

namespace TableLexer

open Step
open Pattern (Match)

namespace Java

/-! ### Heads in a text -/

/-- What is done with a head that is matched. -/
theorem Head.deeds_eq {site : Site} {head : Head} {rest : List Char} (text : site.text = head.text ++ rest)
    (found : site.found = head.found) {rule : Rule} (reads : ReadsHeads rule) :
    site.deeds rule.behavior = [.delegate .current head.front site.origin, .emit .nameFunction head.name,
      .emit .text head.gap, .emit .punctuation ['(']] := by
  have slice (before middle after : List Char) (whole : head.text ++ rest = before ++ (middle ++ after)) :
      site.slice ⟨Text.byteLength before, Text.byteLength before + Text.byteLength middle⟩ = middle := by
    unfold Site.slice
    rw [text, whole]
    exact Text.slice_append before middle after
  have front := slice [] head.front (head.name ++ (head.gap ++ '(' :: rest)) (by simp [Head.text])
  have name := slice head.front head.name (head.gap ++ '(' :: rest) (by simp [Head.text])
  have gap := slice (head.front ++ head.name) head.gap ('(' :: rest) (by simp [Head.text])
  have paren := slice (head.front ++ (head.name ++ head.gap)) ['('] rest (by simp [Head.text])
  have one_byte : Text.byteLength ['('] = 1 := by decide
  have none : Text.byteLength [] = 0 := rfl
  simp only [Text.byteLength_append, one_byte, none, Nat.zero_add, ← Nat.add_assoc] at front name gap paren
  have first : head.found.group? 1 = some ⟨0, Text.byteLength head.front⟩ := rfl
  have second : head.found.group? 2 = some ⟨_, _⟩ := rfl
  have third : head.found.group? 3 = some ⟨_, _⟩ := rfl
  have fourth : head.found.group? 4 = some ⟨_, _⟩ := rfl
  rw [reads.behavior]
  simp [Site.deeds, Site.deed?, found, first, second, third, fourth, front, name, gap, paren]

/-- A head stands where the scan is: in the root state, first in the text ahead. -/
def Head.Ahead (table : Table) (scan : Scan) (head : Head) : Prop :=
  scan.stack.top = table.root ∧ ∃ rest, scan.ahead = some (head.text ++ rest)

/-- In the root state the rule for heads is chosen where a head stands first. -/
theorem exists_select_of_head {table : Table} (ranked : Ranked table) (head : Head) (rest : List Char) :
    ∃ rule, ReadsHeads rule ∧
      (table.state table.root).select (head.text ++ rest) = some ⟨0, rule, head.found⟩ := by
  obtain ⟨rule, _, _, _, rules, reads, _⟩ := ranked.root
  refine ⟨rule, reads, ?_⟩
  have found : rule.regex.find? (head.text ++ rest) = some head.found := by
    rw [reads.regex]
    exact find?_signature_iff.mpr ⟨head, rest, rfl, rfl⟩
  have longer : head.found.length ≠ 0 := by
    have one_byte : '('.utf8Size = 1 := by decide
    simp only [Head.found, Match.length, Head.text, Text.byteLength_append, Text.byteLength, one_byte]
    omega
  rw [State.select, rules, selectFrom, found]
  exact if_neg longer

/-- Where there is no parenthesis, no method is named. -/
def Nameless (text : List Char) (tokens : List Token) : Prop :=
  '(' ∉ text → ∀ token ∈ tokens, token.kind ≠ .nameFunction

section Turns

variable {table : Table} {policy : StallPolicy} {stack next : StateStack} {text piece rest : List Char}
  {tokens : List Token} {moves : List StackMove} {rule : Rule} {site : Site}

/-- The rule for heads names the method of the head that it takes, and no other. -/
theorem exists_head_of_takes (reads : ReadsHeads rule)
    (takes : rule.Takes Nameless site piece rest tokens moves) :
    ∃ (head : Head) (left : List Char), piece ++ rest = head.text ++ left ∧
      ∀ word, ⟨.nameFunction, word⟩ ∈ tokens ↔ word = String.ofList head.name := by
  have found := takes.found
  rw [reads.regex] at found
  obtain ⟨head, left, split, same⟩ := find?_signature_iff.mp found
  have yields := takes.yields
  rw [head.deeds_eq (takes.text.trans split) same reads] at yields
  obtain ⟨front, _, rfl, handed, _, _, rfl, rfl, _, _, rfl, rfl, _, _, rfl, rfl, rfl⟩ := yields
  refine ⟨head, left, split, fun word => ?_⟩
  -- What stands before the name has no parenthesis in it, so the nested run names nothing.
  have none_in_front : ⟨.nameFunction, word⟩ ∉ front := by
    intro member
    rcases handed with ⟨_, rfl⟩ | ⟨_, nameless⟩
    · cases member
    · have unmarked : '(' ∉ head.front := fun paren =>
        Head.ne_paren_of_mem (List.mem_append_left _ paren) rfl
      exact nameless unmarked _ member rfl
  have some_name : head.name ≠ [] := List.cons_ne_nil _ _
  simp [none_in_front, Token.mem_ofPiece_iff, some_name]

/-- A rule that names no method and hands nothing on yields no name of a method. -/
theorem not_mem_of_namesNoMethod (silent : namesNoMethod rule.behavior = true)
    (takes : rule.Takes Nameless site piece rest tokens moves) (word : String) :
    ⟨.nameFunction, word⟩ ∉ tokens := by
  simp only [namesNoMethod, Bool.and_eq_true, List.isEmpty_iff] at silent
  intro member
  have kind := site.kind_mem_of_yieldAll silent.1 takes.yields _ member
  simp [kind] at silent

/-- **One turn names the method of a head** that stands first in the root state, and no other. -/
theorem names_of_turn (ranked : Ranked table)
    (turn : table.Turn policy Nameless stack text tokens rest next) (word : String) :
    ⟨.nameFunction, word⟩ ∈ tokens ↔ stack.top = table.root ∧
      ∃ (head : Head) (left : List Char), text = head.text ++ left ∧ word = String.ofList head.name := by
  cases turn with
  | skip lenient stalled =>
    refine ⟨by simp, ?_⟩
    rintro ⟨root, head, left, split, _⟩
    obtain ⟨rule, _, chosen⟩ := exists_select_of_head ranked head left
    rw [root, split, chosen] at stalled
    cases stalled
  | rule chosen takes moved =>
    rcases ranked.rules _ _ (exists_of_select chosen).1 with ⟨root, reads⟩ | silent
    · obtain ⟨head, left, split, named⟩ := exists_head_of_takes reads takes
      rw [named]
      constructor
      · exact fun same => ⟨root, head, left, split, same⟩
      · rintro ⟨_, other, more, same, rfl⟩
        rw [(Head.parts_eq (split.symm.trans same)).2.1]
    · refine ⟨fun member => absurd member (not_mem_of_namesNoMethod silent takes word), ?_⟩
      rintro ⟨root, head, left, split, _⟩
      obtain ⟨rule, reads, first⟩ := exists_select_of_head ranked head left
      rw [root, split, first] at chosen
      cases chosen
      rw [reads.behavior] at silent
      cases silent

/-- A turn over a text without a parenthesis names no method. -/
theorem nameless_of_turn (ranked : Ranked table)
    (turn : table.Turn policy Nameless stack text tokens rest next) : Nameless text tokens := by
  rintro unmarked ⟨kind, word⟩ member rfl
  obtain ⟨_, head, left, rfl, _⟩ := (names_of_turn ranked turn word).mp member
  simp [Head.text] at unmarked

/-- What a nested run reads names no method if there is no parenthesis. -/
theorem nameless_of_reads (ranked : Ranked table)
    (reads : table.Reads policy Nameless stack text tokens) : Nameless text tokens := by
  induction reads with
  | nothing => simp [Nameless]
  | @rule _ _ piece rest _ _ tokens more _ chosen takes moved _ ih =>
    intro unmarked token member
    rcases List.mem_append.mp member with here | later
    · have turn : table.Turn policy Nameless _ _ _ _ _ := .rule chosen takes moved
      exact nameless_of_turn ranked turn unmarked token here
    · exact ih (fun paren => unmarked (List.mem_append_right piece paren)) token later
  | skip lenient stalled _ ih =>
    intro unmarked token member
    rcases List.mem_cons.mp member with rfl | later
    · simp
    · exact ih (fun paren => unmarked (List.mem_cons_of_mem _ paren)) token later

end Turns

/-! ### Runs -/

section Runs

variable {registry : Registry} {options : Options} {lexer : Lexer} {run last : Run Collector}

/-- Nested runs of the table name no method where there is no parenthesis. -/
theorem nestedReads_nameless (ranked : Ranked lexer.table) (contained : lexer.table.SelfContained)
    (levels : Nat) :
    NestedReads lexer.table Nameless (nestedRun (.collecting registry options) levels) :=
  nestedReads_nestedRun contained (fun _ _ reads => nameless_of_reads ranked reads) levels

/-- **The methods that a run names** are those of the heads at which it comes to stand. -/
theorem names_of_drive (ranked : Ranked lexer.table) (contained : lexer.table.SelfContained)
    (valid : ∃ text, run.scan.ahead = some text)
    (driven : lexer.drive (.collecting registry options) run = .ok () last) :
    ∃ tokens, last.tokens = run.tokens ++ tokens ∧ ∀ word, ⟨.nameFunction, word⟩ ∈ tokens ↔
      ∃ seen, Passes (.collecting registry options) lexer run seen ∧
        ∃ head : Head, head.Ahead lexer.table seen.scan ∧ word = String.ofList head.name := by
  induction run using (lexer.shrinks_step (.collecting registry options)).induct with
  | done run finished =>
    rw [Lexer.drive_of_done finished] at driven
    cases driven
    refine ⟨[], (List.append_nil _).symm, fun word => ⟨by simp, ?_⟩⟩
    rintro ⟨seen, passed, head, ⟨_, rest, ahead⟩, _⟩
    rcases passes_iff.mp passed with rfl | ⟨unfinished, _⟩
    · simp [Scan.isDone, ahead, Head.text] at finished
    · rw [finished] at unfinished
      cases unfinished
  | error run failure after unfinished failed =>
    rw [Lexer.drive_of_error unfinished failed] at driven
    cases driven
  | ok run middle unfinished stepped ih =>
    obtain ⟨text, ahead⟩ := valid
    rw [Lexer.drive_of_ok unfinished stepped] at driven
    have reads : NestedReads lexer.table Nameless (nestedRun (.collecting registry options) _) :=
      nestedReads_nameless ranked contained (lexer.levelsLeft (.collecting registry options))
    obtain ⟨tokens, rest, added, left, turn⟩ := exists_turn_of_step contained reads ahead stepped
    obtain ⟨more, others, later⟩ := ih ⟨rest, left⟩ driven
    refine ⟨tokens ++ more, by rw [others, added, List.append_assoc], fun word => ?_⟩
    rw [List.mem_append, later, names_of_turn ranked turn]
    -- The step itself, or one of those that follow.
    constructor
    · rintro (⟨root, head, behind, rfl, same⟩ | ⟨seen, passed, named⟩)
      · exact ⟨run, .start, head, ⟨root, behind, ahead⟩, same⟩
      · exact ⟨seen, passes_iff.mpr (.inr ⟨unfinished, middle, stepped, passed⟩), named⟩
    · rintro ⟨seen, passed, head, stands, same⟩
      rcases passes_iff.mp passed with rfl | ⟨_, other, begun, further⟩
      · obtain ⟨root, behind, here⟩ := stands
        exact .inl ⟨root, head, behind, Option.some.inj (ahead.symm.trans here), same⟩
      · rw [stepped] at begun
        cases begun
        exact .inr ⟨seen, further, head, stands, same⟩

end Runs

end Java

/-- The tokens of a run that succeeds name the methods of the heads at which the run comes to stand, and no
others; so a word that is reserved is the name of a method exactly if the run comes to a head with that name.
Where such a word itself stands first in the root state and no other word character follows, it is classified by
its vocabulary unless a head stands there, and it always is before a parenthesis. -/
theorem method_names_stand_at_heads {σ : Type} (engine : Engine σ) (text : List Char) (world : World σ) :
    ∃ table, Java.table = .ok table ∧
      (∀ metrics, (({ table } : Lexer).run engine text world).result = .ok metrics →
        let lexer : Lexer := { table }
        let start : Run σ := ⟨.start table text, world⟩
        let tokens := (endOf (lexer.drive engine.watched ⟨.start table text, world.watched⟩)).world.sink.taken
        (∀ word, ⟨.nameFunction, word⟩ ∈ tokens ↔ ∃ run, Passes engine lexer start run ∧
          ∃ head : Java.Head, head.Ahead table run.scan ∧ word = String.ofList head.name) ∧
        ((∀ token ∈ tokens, token.kind = .nameFunction → token.text ∉ Java.reserved) ↔
          ∀ run, Passes engine lexer start run → ∀ head : Java.Head, head.Ahead table run.scan →
            String.ofList head.name ∉ Java.reserved)) ∧
      ∀ entry ∈ Java.vocabularies, ∀ word ∈ entry.1,
        (∀ rest : List Char, rest.head?.any Text.isWordChar = false →
          (∀ (head : Java.Head) left, word.toList ++ rest ≠ head.text ++ left) →
          Java.Classifies table word entry.2 rest) ∧
        ∀ gap rest : List Char, (∀ c ∈ gap, Text.isBlank c = true) →
          Java.Classifies table word entry.2 (gap ++ '(' :: rest) := by
  obtain ⟨table, built, known⟩ := Java.exists_table
  have ranked := Java.ranked_of_build built
  refine ⟨table, built, ?_, fun entry listed word member => ⟨fun rest behind no_head => ?_, ?_⟩⟩
  · intro metrics succeeds lexer start tokens
    have contained : lexer.table.SelfContained := known.shaped.selfContained
    obtain ⟨last, driven, same⟩ := exists_of_run_ok succeeds
    obtain ⟨collected, added, named⟩ := Java.names_of_drive ranked contained ⟨text, rfl⟩ driven
    have all : tokens = collected := same.trans added
    have names (word : String) : ⟨.nameFunction, word⟩ ∈ tokens ↔ ∃ run, Passes engine lexer start run ∧
        ∃ head : Java.Head, head.Ahead table run.scan ∧ word = String.ofList head.name := by
      rw [all, named]
      exact (exists_passes_collecting_iff (fun scan =>
        ∃ head : Java.Head, head.Ahead table scan ∧ word = String.ofList head.name) succeeds).symm
    refine ⟨names, ?_, ?_⟩
    · intro unreserved run passed head ahead
      exact unreserved _ ((names _).mpr ⟨run, passed, head, ahead, rfl⟩) rfl
    · rintro unreserved ⟨_, word⟩ member rfl
      obtain ⟨run, passed, head, ahead, rfl⟩ := (names word).mp member
      exact unreserved run passed head ahead
  · exact Java.classifies_of_word ranked listed member behind no_head
  · exact fun gap rest blank => Java.classifies_before_paren ranked listed member blank

/-- A text that has no methods, tokenized from scratch and by a run of the table. -/
theorem else_if_is_read :
    tokenize "java" "else if (x)" = .ok
        [⟨.keyword, "else"⟩, ⟨.text, " "⟩, ⟨.nameFunction, "if"⟩, ⟨.text, " "⟩, ⟨.punctuation, "("⟩,
          ⟨.name, "x"⟩, ⟨.punctuation, ")"⟩] ∧
      (Java.table.toOption.any fun table =>
        let engine : Engine Collector := .collecting .builtins {}
        let lexer : Lexer := { table }
        let text := "else if (x)".toList
        let watched := lexer.drive engine.watched ⟨.start table text, ({ sink := {} } : World _).watched⟩
        (lexer.run engine text { sink := {} }).result.toOption.isSome &&
          (endOf watched).world.sink.taken.contains ⟨.nameFunction, "if"⟩) = true := by
  -- One evaluation for both, which builds the table once.
  decide +kernel

/-- The `if` behind `else` is the name of a method, but not where it stands first. -/
theorem method_names_stand_at_heads_of_else_if :
    ∃ table, Java.table = .ok table ∧
      let engine : Engine Collector := .collecting .builtins {}
      let lexer : Lexer := { table }
      let text := "else if (x)".toList
      let start : Run Collector := ⟨.start table text, { sink := {} }⟩
      let watched := lexer.drive engine.watched ⟨.start table text, ({ sink := {} } : World _).watched⟩
      (∃ metrics, (lexer.run engine text { sink := {} }).result = .ok metrics) ∧
        ⟨.nameFunction, "if"⟩ ∈ (endOf watched).world.sink.taken ∧ "if" ∈ Java.reserved ∧
        (∃ run, Passes engine lexer start run ∧
          ∃ head : Java.Head, head.Ahead table run.scan ∧ "if" = String.ofList head.name) ∧
        Java.Classifies table "if" .keyword " (x)".toList := by
  obtain ⟨_, checked⟩ := else_if_is_read
  obtain ⟨table, built, names, words⟩ := method_names_stand_at_heads
    (Engine.collecting .builtins {}) "else if (x)".toList ({ sink := {} } : World Collector)
  rw [built] at checked
  obtain ⟨succeeded, named⟩ := (Bool.and_eq_true _ _).mp checked
  have named := List.contains_iff_mem.mp named
  have succeeds {result : Except ScanError Metrics} (some_metrics : result.toOption.isSome = true) :
      ∃ metrics, result = .ok metrics := by
    cases result with
    | ok metrics => exact ⟨metrics, rfl⟩
    | error => cases some_metrics
  obtain ⟨metrics, result⟩ := succeeds succeeded
  refine ⟨table, built, ⟨metrics, result⟩, named, by decide, ?_, ?_⟩
  · exact ((names metrics result).1 "if").mp named
  · have blank : ∀ c ∈ [' '], Text.isBlank c = true := List.forall_mem_singleton.mpr rfl
    exact (words _ List.mem_cons_self "if" (by decide)).2 [' '] "x)".toList blank

/-- The name of a method is a word that is reserved, in a text that has no methods. -/
theorem reserved_word_names_method :
    ¬ ∀ text tokens, tokenize "java" text = .ok tokens →
      ∀ token ∈ tokens, token.kind = .nameFunction → token.text ∉ Java.reserved := by
  intro unreserved
  exact unreserved _ _ else_if_is_read.1 ⟨.nameFunction, "if"⟩ (by simp) rfl (by decide)

end TableLexer
