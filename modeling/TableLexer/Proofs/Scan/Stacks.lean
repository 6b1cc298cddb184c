/-
**The states on the stack.**

The rules of a table that was built enter states of that table only. So the states on the stack of its runs
are its own, at every step.

* `Table.Owns`: the states on a stack are those of the table.
* `owns_step`: a step keeps them so, whether it succeeds or fails.
-/

import TableLexer.Proofs.Scan.Deeds
import TableLexer.Proofs.Table.Built

namespace TableLexer

open Step

/-- The names of the states on the stack, the lowest first. -/
def Table.stackNames (table : Table) (stack : StateStack) : List String :=
  (stack.top :: stack.below).reverse.map fun id => (table.state id).name

/-- All states on the stack are states of the table. -/
def Table.Owns (table : Table) (stack : StateStack) : Prop :=
  ∀ id ∈ stack.top :: stack.below, id.index < table.states.length

namespace Table.Owns

variable {table : Table} {stack : StateStack}

/-- The topmost state is one of the table. -/
theorem state_mem (owns : table.Owns stack) : table.state stack.top ∈ table.states := by
  have within := owns stack.top List.mem_cons_self
  unfold Table.state
  rw [List.getD_eq_getElem?_getD, List.getElem?_eq_getElem within]
  exact List.getElem_mem within

theorem new {root : StateId} (own : root.index < table.states.length) : table.Owns (.new root) := by
  intro id member
  rw [List.mem_singleton.mp member]
  exact own

theorem push (owns : table.Owns stack) {state : StateId} (own : state.index < table.states.length) :
    table.Owns (stack.push state) :=
  List.forall_mem_cons.mpr ⟨own, owns⟩

theorem pop (owns : table.Owns stack) {state : StateId} {rest : StateStack}
    (left : stack.pop? = some (state, rest)) : table.Owns rest := by
  unfold StateStack.pop? at left
  split at left
  · cases left
  · rename_i below
    cases left
    exact fun id member => owns id (List.mem_cons_of_mem _ (below ▸ member))

end Table.Owns

/-- A state that is entered in what a behaviour does is one that the behaviour enters. -/
theorem Step.Site.mem_entered {site : Site} {behavior : Behavior StateId} {state : StateId}
    (enters : .push state ∈ site.deeds behavior) : state ∈ behavior.entered := by
  cases behavior with
  | emit | emitAndPop | delegate => simp [deeds] at enters
  | emitAndPush kind target =>
    simp only [deeds, List.mem_cons, reduceCtorEq, Deed.push.injEq, List.not_mem_nil, or_false,
      false_or] at enters
    exact List.mem_singleton.mpr enters
  | composite actions =>
    obtain ⟨action, member, same⟩ := List.mem_filterMap.mp enters
    cases action with
    | push target =>
      cases same
      exact List.mem_filterMap.mpr ⟨.push state, member, rfl⟩
    | pop => cases same
    | emit group kind | delegate group target =>
      obtain ⟨_, _, other⟩ := Option.map_eq_some_iff.mp same
      cases other

variable {σ α β : Type} {engine : Engine σ} {nested : Option (NestedRun σ)} {lexer : Lexer}
  {table : Table}

/-- The part keeps the states on the stack those of the table. -/
def Step.KeepsOwn (table : Table) (part : StepM σ α) : Prop :=
  ∀ run, table.Owns run.scan.stack → table.Owns (endOf (part run)).scan.stack

namespace Step

theorem OnlyCounts.keepsOwn {part : StepM σ α} (counts : OnlyCounts part) : KeepsOwn table part := by
  intro run owns
  obtain ⟨metrics, same⟩ := counts run
  rw [same]
  exact owns

theorem KeepsOwn.bind {part : StepM σ α} {rest : α → StepM σ β} (one : KeepsOwn table part)
    (other : ∀ a, KeepsOwn table (rest a)) : KeepsOwn table (part >>= rest) := by
  intro run owns
  have first := one run owns
  show table.Owns (endOf (EStateM.bind part rest run)).scan.stack
  unfold EStateM.bind
  generalize part run = result at first
  cases result with
  | ok a middle => exact other a middle first
  | error => exact first

theorem keepsOwn_pop (origin : Nat) : KeepsOwn table (pop origin : StepM σ Unit) := by
  intro run owns
  unfold pop
  split
  · exact owns
  · rename_i left
    exact owns.pop left

theorem keepsOwn_enact {deed : Deed}
    (own : ∀ state, deed = .push state → state.index < table.states.length) :
    KeepsOwn table (enact engine nested lexer deed) := by
  cases deed with
  | note record => exact (onlyCounts_note record).keepsOwn
  | emit kind text => exact (onlyCounts_emit engine kind text).keepsOwn
  | fallBack => exact (onlyCounts_count _).keepsOwn
  | push state => exact fun _ owns => owns.push (own state rfl)
  | pop origin => exact keepsOwn_pop origin
  | delegate target text offset =>
    exact (onlyCounts_delegate engine nested lexer target text offset).keepsOwn

theorem keepsOwn_enactAll {deeds : List Deed}
    (own : ∀ state, .push state ∈ deeds → state.index < table.states.length) :
    KeepsOwn table (enactAll engine nested lexer deeds) := by
  induction deeds with
  | nil => exact fun _ owns => owns
  | cons deed rest ih =>
    exact .bind (keepsOwn_enact fun state same => own state (same ▸ List.mem_cons_self))
      fun _ => ih fun state member => own state (List.mem_cons_of_mem deed member)

end Step

/-- A step of a run of a table that was built keeps the states on the stack those of the table. -/
theorem owns_step {flags : Pattern.Flags} (built : lexer.table.WellBuilt flags) :
    KeepsOwn lexer.table (step engine nested lexer) := by
  intro run owns
  cases ahead : run.scan.ahead with
  | none =>
    rw [step_of_ahead_none ahead]
    exact owns
  | some text =>
    rw [step_eq_carryOut ahead]
    cases intent : lexer.intent engine.options run.scan text with
    | fail error => exact owns
    | go deeds bytes =>
      have own (state : StateId) (enters : .push state ∈ deeds) :
          state.index < lexer.table.states.length := by
        obtain ⟨selection, chosen, does⟩ :=
          Lexer.exists_of_deed_mem intent enters (by simp) (by simp) (by simp)
        exact built.entered selection.rule (Table.mem_rules (exists_of_select chosen).1) state
          (Site.mem_entered does)
      have moves : KeepsOwn lexer.table (changeScan (·.advance bytes) : StepM σ Unit) :=
        fun _ owns => owns
      exact (keepsOwn_enactAll own).bind (fun _ => moves) run.counted owns

end TableLexer
