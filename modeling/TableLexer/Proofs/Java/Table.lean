/-
**The table of Java**, built, and what can be read off it.

The table is built once, by evaluation, and everything that later results need to know of its patterns is
checked on it in the same evaluation (`exists_table`):

* all rules are tiling, and text is handed to the same table only;
* the table is orderly for the opening parenthesis;
* the pattern of the rule for the head of a method needs an opening parenthesis;
* the rules have the forms that show which tokens they come to.
-/

import TableLexer.Proofs.Java.Rules
import TableLexer.Proofs.Scan.Lossless
import TableLexer.Proofs.Scan.Orderly

namespace TableLexer.Java

/-- The states that the root state enters. -/
def leaves : List StateId := [⟨1⟩, ⟨2⟩]

/-- The names of the root state and of the states that it enters. -/
def stateNames (table : Table) : List String :=
  (table.root :: leaves).map fun id => (table.state id).name

/-- What is known of the table. -/
structure Known (table : Table) : Prop where
  tiling : ∀ rule ∈ table.rules, rule.Tiling
  current : ∀ rule ∈ table.rules, ∀ target ∈ rule.behavior.targets, target = .current
  orderly : table.Orderly '(' leaves
  names : stateNames table = [rootName, classState, importState]
  present : ∃ rule ∈ table.rules, rule.source = signature.pattern
  signature : ∀ rule ∈ table.rules, rule.source = signature.pattern →
    rule.regex.plan.needs '(' = true
  shaped : Shaped table

/-- What is known of each rule, as far as it shows in the form of the rule. -/
def ruleKnown (rule : Rule) : Bool :=
  rule.tilesByForm && rule.behavior.targets.all (· == .current) &&
    (rule.source != signature.pattern || rule.regex.plan.needs '(')

/-- What is known of the table, as far as it shows in the form of the rules. -/
def known (table : Table) : Bool :=
  table.rules.all ruleKnown && table.rules.any (·.source == signature.pattern) &&
    table.orderlyByForm '(' leaves && stateNames table == [rootName, classState, importState] &&
    shapedByForm table

theorem known_of_form {table : Table} (form : known table = true) : Known table := by
  unfold known at form
  simp only [Bool.and_eq_true, List.all_eq_true, List.any_eq_true, beq_iff_eq] at form
  obtain ⟨⟨⟨⟨rules, present⟩, orderly⟩, names⟩, shaped⟩ := form
  have rule_known (rule : Rule) (member : rule ∈ table.rules) :
      (rule.tilesByForm = true ∧ ∀ target ∈ rule.behavior.targets, target = .current) ∧
        (rule.source = signature.pattern → rule.regex.plan.needs '(' = true) := by
    have form := rules rule member
    unfold ruleKnown at form
    simp only [Bool.and_eq_true, List.all_eq_true, beq_iff_eq, Bool.or_eq_true, bne_iff_ne] at form
    exact ⟨form.1, fun same => form.2.resolve_left fun differs => differs same⟩
  exact
    { tiling := fun rule member => Rule.tiling_of_form (rule_known rule member).1.1
      current := fun rule member => (rule_known rule member).1.2
      orderly := Table.orderly_of_form orderly
      names := names
      present := present
      signature := fun rule member => (rule_known rule member).2
      shaped := shaped_of_form shaped }

/-- The table is built, and this is known of it. -/
theorem exists_table : ∃ built, table = .ok built ∧ Known built := by
  have checked : table.toOption.any known = true := by decide +kernel
  cases outcome : table with
  | error => rw [outcome] at checked; cases checked
  | ok built =>
    rw [outcome] at checked
    exact ⟨built, rfl, known_of_form checked⟩

end TableLexer.Java
