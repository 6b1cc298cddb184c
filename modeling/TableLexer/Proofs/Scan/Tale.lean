/-
**The tale of a run.**

What a run does for others to see, one event after another: it writes records and offers tokens to its
sink. The log has the records and the sink the tokens; the tale has both in the order in which they came,
and tells which tokens were offered for a character that no rule covers.

* `Emitter.Hears`: the answers in a tale are those of the sink.
* `Step.taleOfStep`, `nestedTale`, `Lexer.tale`: the tale of a step, of nested runs, and of a program.
-/

import TableLexer.Proofs.Scan.Program
import TableLexer.Proofs.Scan.Raised

namespace TableLexer

variable {σ : Type}

/-- Something that a run does for others to see. -/
inductive Event where
  /-- A record is written. -/
  | noted (record : Record)
  /-- A token is offered to the sink, which takes it or refuses it with a message: for a character that no
  rule covers, or for a rule. -/
  | offered (skipping : Bool) (token : Token) (refusal : Option String)
  deriving DecidableEq, Repr

namespace Event

/-- The record that is written. -/
def record? : Event → Option Record
  | noted record => some record
  | offered .. => none

/-- The token that is offered for a character that no rule covers. -/
def skipping? : Event → Option Token
  | offered true token _ => some token
  | _ => none

/-- The sink takes the token. -/
def isTaken : Event → Bool
  | offered _ _ none => true
  | _ => false

/-- The sink takes the token for a character that no rule covers. -/
def isFallback : Event → Bool
  | offered true _ none => true
  | _ => false

end Event

/-- The records of a tale. -/
def recordsOf (tale : List Event) : List Record := tale.filterMap Event.record?

@[simp] theorem recordsOf_nil : recordsOf [] = [] := rfl

@[simp] theorem recordsOf_noted (record : Record) (tale : List Event) :
    recordsOf (.noted record :: tale) = record :: recordsOf tale := rfl

@[simp] theorem recordsOf_offered (skipping : Bool) (token : Token) (refusal : Option String)
    (tale : List Event) : recordsOf (.offered skipping token refusal :: tale) = recordsOf tale := rfl

@[simp] theorem recordsOf_append (tale more : List Event) :
    recordsOf (tale ++ more) = recordsOf tale ++ recordsOf more :=
  List.filterMap_append

theorem recordsOf_map_noted (records : List Record) : recordsOf (records.map .noted) = records := by
  unfold recordsOf
  rw [List.filterMap_map]
  exact List.filterMap_some

/-! ### What the sink hears -/

/-- The message with which the sink refuses the token, if it does. -/
def Emitter.refusal? (emitter : Emitter σ) (token : Token) (sink : σ) : Option String :=
  match emitter.emit token sink with
  | .ok _ _ => none
  | .error message _ => some message

/-- The sink is offered the tokens of the tale, and no others, and gives the answers of the tale. -/
inductive Emitter.Hears (emitter : Emitter σ) : σ → List Event → σ → Prop where
  | nothing {sink : σ} : Hears emitter sink [] sink
  | noted {sink last : σ} {record : Record} {tale : List Event} (later : Hears emitter sink tale last) :
      Hears emitter sink (.noted record :: tale) last
  | takes {sink next last : σ} {skipping : Bool} {token : Token} {tale : List Event}
      (answer : emitter.emit token sink = .ok () next) (later : Hears emitter next tale last) :
      Hears emitter sink (.offered skipping token none :: tale) last
  | refuses {sink next last : σ} {skipping : Bool} {token : Token} {message : String}
      {tale : List Event} (answer : emitter.emit token sink = .error message next)
      (later : Hears emitter next tale last) :
      Hears emitter sink (.offered skipping token (some message) :: tale) last

theorem Emitter.Hears.append {emitter : Emitter σ} {sink middle last : σ} {tale more : List Event}
    (one : emitter.Hears sink tale middle) (other : emitter.Hears middle more last) :
    emitter.Hears sink (tale ++ more) last := by
  induction one with
  | nothing => exact other
  | noted _ ih => exact .noted (ih other)
  | takes answer _ ih => exact .takes answer (ih other)
  | refuses answer _ ih => exact .refuses answer (ih other)

/-- The sink does not hear records. -/
theorem Emitter.Hears.notes {emitter : Emitter σ} {sink : σ} (records : List Record) :
    emitter.Hears sink (records.map .noted) sink := by
  induction records with
  | nil => exact .nothing
  | cons record rest ih => exact .noted ih

/-! ### The tale of a step -/

/-- The tale of a part of a step from each state. -/
abbrev Tale (σ : Type) := Run σ → List Event

/-- The tale of a nested run of the lexer on the text in the world. -/
abbrev NestedTale (σ : Type) := Lexer → List Char → World σ → List Event

namespace Step

variable {α : Type}

/-- The tale of one part of a step and, if that succeeds, of what follows. -/
def taleOfBind (part : StepM σ α) (tale : Tale σ) (rest : α → Tale σ) : Tale σ := fun run =>
  tale run ++
    match part run with
    | .ok a next => rest a next
    | .error _ _ => []

/-- The tale of a token that is sent, for a character that no rule covers or for a rule. -/
def taleOfEmit (engine : Engine σ) (skipping : Bool) (kind : Kind) (text : List Char) : Tale σ :=
  fun run =>
    if text.isEmpty then []
    else
      let token : Token := ⟨kind, String.ofList text⟩
      [.offered skipping token (engine.emitter.refusal? token run.world.sink)]

/-- The tale of the search for the table of a target. -/
def taleOfResolve (engine : Engine σ) (target : Target) : Tale σ := fun run =>
  match target with
  | .current => []
  | .named language => (engine.registry.table run.world.cache language).records.map .noted

variable (engine : Engine σ) (nested : Option (NestedRun σ)) (tales : NestedTale σ) (lexer : Lexer)

/-- The tale of a text that is handed on to a nested run of the table. -/
def taleOfDelegateTo (text : List Char) (offset : Nat) (table : Table) : Tale σ := fun run =>
  match nested with
  | none => []
  | some _ =>
    .noted (.delegating lexer.table.language (Text.byteLength text) offset table.language
        (lexer.depth + 1)) ::
      tales ⟨table, lexer.depth + 1, offset⟩ text (delegated lexer text offset table run.world)

/-- The tale of one deed of a rule. -/
def taleOfDeed : Deed → Tale σ
  | .note record => fun _ => [.noted record]
  | .emit kind text => taleOfEmit engine false kind text
  | .fallBack | .push _ | .pop _ => fun _ => []
  | .delegate target text offset =>
    if text.isEmpty then fun _ => []
    else
      taleOfBind (resolve engine lexer target) (taleOfResolve engine target)
        (taleOfDelegateTo nested tales lexer text offset)

/-- The tale of deeds of a rule, up to the first that fails. -/
def taleOfDeeds : List Deed → Tale σ
  | [] => fun _ => []
  | deed :: rest =>
    taleOfBind (enact engine nested lexer deed) (taleOfDeed engine nested tales lexer deed) fun _ =>
      taleOfDeeds rest

/-- The tale of a character that is skipped. -/
def taleOfSkip (scan : Scan) (c : Char) : Tale σ := fun run =>
  .noted (.skipped lexer.table.language (lexer.base + scan.cursor)
      (lexer.table.state scan.stack.top).name [c]) ::
    taleOfEmit engine true .error [c] run

/-- The tale of a step: of the deeds of the rule that is chosen, or of the character that is skipped. -/
def taleOfStep : Tale σ := fun run =>
  match run.scan.ahead with
  | none => []
  | some text =>
    match (lexer.table.state run.scan.stack.top).select text with
    | some selection =>
      taleOfDeeds engine nested tales lexer
        (lexer.told engine.options run.scan text selection ++
          (lexer.site run.scan text selection).deeds selection.rule.behavior) run.counted
    | none =>
      match engine.options.stall, text with
      | .lenient, c :: _ => taleOfSkip engine lexer run.scan c run
      | _, _ => []

end Step

open Step

/-! ### The tale of a run -/

/-- The tale of steps that are repeated until the scan is done. -/
def taleOfRepeat (step : StepM σ Unit) (tale : Tale σ) : Nat → Tale σ
  | 0, _ => []
  | bound + 1, run =>
    if run.scan.isDone then []
    else taleOfBind step tale (fun _ => taleOfRepeat step tale bound) run

/-- The tale of a run from the state on, to its end. -/
def taleOfDrive (step : StepM σ Unit) (tale : Tale σ) : Tale σ := fun run =>
  taleOfRepeat step tale run.scan.stepsLeft run

/-- The tale of a lexer that runs inside another when so many levels of nesting are left. -/
def nestedTale (engine : Engine σ) : Nat → NestedTale σ
  | 0 => fun _ _ _ => []
  | levels + 1 => fun lexer text world =>
    taleOfDrive (step engine (nestedRun engine levels) lexer)
      (taleOfStep engine (nestedRun engine levels) (nestedTale engine levels) lexer)
      ⟨.start lexer.table text, world⟩

namespace Lexer

/-- The tale of one step of a scan of the lexer. -/
def stepTale (engine : Engine σ) (lexer : Lexer) : Tale σ :=
  taleOfStep engine (nestedRun engine (lexer.levelsLeft engine))
    (nestedTale engine (lexer.levelsLeft engine)) lexer

/-- The tale of an operation on a scan of the lexer. -/
def operationTale (engine : Engine σ) (lexer : Lexer) : Operation → Tale σ
  | .step => lexer.stepTale engine
  | .drive => taleOfDrive (lexer.step engine) (lexer.stepTale engine)

/-- The tale of operations, each from where the one before it ended. -/
def tale (engine : Engine σ) (lexer : Lexer) : List Operation → Tale σ
  | [] => fun _ => []
  | operation :: rest => fun run =>
    lexer.operationTale engine operation run ++
      tale engine lexer rest (endOf (operation.act engine lexer run))

end Lexer

end TableLexer
