/-
**Rules that match at the cursor.**

A step moves the cursor over as many bytes as its rule matched. These are the bytes that were matched if
the match begins at the cursor, and the brackets around the pattern of the rule see to that as long as the
pattern does not break out of them.

* `matches_at_cursor_iff`: when the match of a rule begins at the cursor.
* `matches_behind_cursor_of_escaping`: a rule that matches behind the cursor, and a scan with it.
-/

import TableLexer.Proofs.Pattern.Anchored
import TableLexer.Proofs.Scan.Writes
import TableLexer.Proofs.Table.Built

namespace TableLexer

open Pattern (Node Regex anchoredText escapes)

/-- The match of a rule in the text that is left begins at the cursor exactly if the pattern does not
break out of its brackets, or if it does and matches at the cursor or nowhere but there. -/
theorem matches_at_cursor_iff {descriptor : Descriptor} {source : TableSource} {table : Table}
    {rule : Rule} (built : Table.build descriptor source = .ok table)
    (member : rule ∈ table.rules) :
    ∃ node, Node.parse? source.flags (anchoredText rule.source).toList = some node ∧
      rule.regex = .ofNode node ∧ ∀ text,
        (∀ found, rule.regex.find? text = some found → found.AtCursor text) ↔
          (escapes rule.source = true → node.StartFirst text) := by
  have compiled := Table.compiled_of_build built rule member
  unfold Rule.Compiled Regex.compile? at compiled
  rw [Option.bind_eq_bind, Option.bind_eq_some_iff] at compiled
  obtain ⟨node, parsed, small⟩ := compiled
  split at small
  · have same : rule.regex = .ofNode node := (Option.some.inj small).symm
    refine ⟨node, parsed, same, fun text => ?_⟩
    rw [same, Regex.atCursor_iff]
    refine ⟨fun first _ => first, fun first => ?_⟩
    cases kept : escapes rule.source with
    | false => exact Pattern.startFirst_of_parse? parsed kept text
    | true => exact first kept
  · cases small

/-! ### A pattern that breaks out of its brackets -/

/-- A rule the pattern of which closes the brackets around it and opens others. -/
def Sample.escaping : Language where
  descriptor := { name := "Escaping" }
  source := { states := [(rootName, [⟨"a)|(?:b", .emit .name⟩])] }

theorem matches_at_cursor_iff_of_escaping :
    ∃ table rule, Sample.escaping.build = .ok table ∧ rule ∈ table.rules ∧
      escapes rule.source = true ∧
      ∃ node,
        Node.parse? Sample.escaping.source.flags (anchoredText rule.source).toList = some node ∧
        rule.regex = .ofNode node ∧ ∀ text,
          (∀ found, rule.regex.find? text = some found → found.AtCursor text) ↔
            (escapes rule.source = true → node.StartFirst text) := by
  have checked : (Sample.escaping.build.toOption.any fun table =>
      table.rules.any fun rule => escapes rule.source) = true := by decide +kernel
  cases build : Sample.escaping.build with
  | error => rw [build] at checked; cases checked
  | ok table =>
    rw [build] at checked
    obtain ⟨rule, member, escaping⟩ := List.any_eq_true.mp checked
    exact ⟨table, rule, rfl, member, escaping, matches_at_cursor_iff build member⟩

/-- The rule matches behind the cursor. A scan makes what it matched a token, moves over what stands
before that, and matches the same once more. -/
theorem matches_behind_cursor_of_escaping :
    ∃ table rule, Sample.escaping.build = .ok table ∧ rule ∈ table.rules ∧
      ¬ (∀ found, rule.regex.find? "xb".toList = some found → found.AtCursor "xb".toList) ∧
      let outcome := ({ table } : Lexer).run (.collecting { languages := [Sample.escaping] } {})
        "xb".toList { sink := {} }
      outcome.result.isOk ∧ outcome.world.sink.tokens = #[⟨.name, "b"⟩, ⟨.name, "b"⟩] := by
  have checked : (Sample.escaping.build.toOption.any fun table =>
      (let outcome := ({ table } : Lexer).run (.collecting { languages := [Sample.escaping] } {})
        "xb".toList { sink := {} }
      outcome.result.isOk && outcome.world.sink.tokens == #[⟨.name, "b"⟩, ⟨.name, "b"⟩]) &&
      table.rules.any fun rule => rule.regex.find? "xb".toList == some ⟨⟨1, 2⟩, []⟩) = true := by
    decide +kernel
  cases build : Sample.escaping.build with
  | error => rw [build] at checked; cases checked
  | ok table =>
    rw [build, Except.toOption, Option.any_some, Bool.and_eq_true] at checked
    obtain ⟨runs, matching⟩ := checked
    obtain ⟨rule, member, found⟩ := List.any_eq_true.mp matching
    obtain ⟨succeeds, tokens⟩ := (Bool.and_eq_true _ _).mp runs
    refine ⟨table, rule, rfl, member, fun atCursor => ?_, succeeds, eq_of_beq tokens⟩
    cases (atCursor _ (eq_of_beq found)).1

end TableLexer
