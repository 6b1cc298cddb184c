/-
**Several files, one by one.**

A command on several files does, and shows, what the same command on each of them alone does and shows, one after
another, up to the first that fails. The files share the paper, the tables and the log, and none of that can be seen.

* `Coupled`: computations that use the host in the same way, with results that are alike.
* `coupled_tokenizeFile`: a file behind others, and the file alone.
* `show_tokenizeFiles`: what files show behind others.
* `files_are_tokenized_one_by_one`: a command on several files.
-/

import TableLexer.Main
import TableLexer.Proofs.CommandLine.Following
import TableLexer.Proofs.CommandLine.Inputs

namespace TableLexer.CommandLine

variable {m : Type → Type} [Monad m]

/-! ### Time -/

/-- What the host times it computes, and to do so changes nothing but for the look at the clock: it is the same as to
time nothing. The clock may tell another time whenever it is looked at. -/
def Host.KeepsTime (host : Host m) : Prop :=
  ∀ {α : Type} (compute : Unit → α),
    host.timed compute = (fun timed => (compute (), timed.2)) <$> host.timed fun _ => ()

/-- So does the host of the program. -/
theorem host_keepsTime : host.KeepsTime := fun _ => rfl

/-! ### Computations that use the host in the same way -/

/-- The computations use the host in the same way, and what they come to is related: whatever is done with that, if
it is the same for what is related, is the same. -/
structure Coupled {α β : Type} (related : α → β → Prop) (one : m α) (other : m β) : Prop where
  bind_eq : ∀ {γ : Type} (next : α → m γ) (otherNext : β → m γ), (∀ a b, related a b → next a = otherNext b) →
    one >>= next = other >>= otherNext

variable [LawfulMonad m] {α β δ : Type} {related : α → β → Prop}

theorem Coupled.pure {a : α} {b : β} (same : related a b) : Coupled (m := m) related (pure a) (pure b) where
  bind_eq next otherNext alike := by
    rw [pure_bind, pure_bind]
    exact alike a b same

/-- Both first do the same. -/
theorem Coupled.bind (action : m δ) {one : δ → m α} {other : δ → m β}
    (coupled : ∀ d, Coupled related (one d) (other d)) : Coupled related (action >>= one) (action >>= other) where
  bind_eq next otherNext alike := by
    rw [bind_assoc, bind_assoc]
    exact bind_congr fun d => (coupled d).bind_eq next otherNext alike

/-! ### A file behind others -/

section Host

variable {host : Host m} (keepsTime : host.KeepsTime) {config : Config}
  (untraced : config.options.trace = false) {before late fresh : World Report.Paper}

include keepsTime untraced

theorem coupled_tokenizeInput (follows : config.Follows before late fresh) (language : String) (input : Input) :
    Coupled (Ending.Follows config before) (config.tokenizeInput host language input late)
      (config.tokenizeInput host language input fresh) := by
  obtain ⟨same, still⟩ := follows_tokenizeInput untraced follows language input
  unfold Config.tokenizeInput
  rw [keepsTime, keepsTime fun _ => config.engine.tokenizeInput language input fresh, bind_map_left, bind_map_left]
  refine .bind (host.timed fun _ => ()) fun timed => ?_
  dsimp only
  rw [same]
  cases (config.engine.tokenizeInput language input fresh).result with
  | error error => exact .pure ⟨rfl, still⟩
  | ok metrics =>
    dsimp only
    split
    · exact .pure (follows_writeLine still _).1
    · exact .pure ⟨rfl, still⟩

/-- **A file behind others** is handled as it is alone. -/
theorem coupled_tokenizeFile (follows : config.Follows before late fresh) (path : String) :
    Coupled (Ending.Follows config before) (config.tokenizeFile host path late)
      (config.tokenizeFile host path fresh) := by
  unfold Config.tokenizeFile
  cases config.languageOf path with
  | error message => exact .pure ⟨rfl, follows⟩
  | ok language =>
    obtain ⟨⟨same, headed⟩, succeeds⟩ := follows_writeLine follows (Report.headerLine config.palette path)
    dsimp only
    rw [same, succeeds, Option.isSome_none, if_neg Bool.false_ne_true, if_neg Bool.false_ne_true]
    refine .bind (host.openFile path) fun opened => ?_
    cases opened with
    | error error => exact .pure ⟨rfl, headed⟩
    | ok input => exact coupled_tokenizeInput keepsTime untraced headed language input

end Host

/-! ### Files one after another -/

/-- Runs for one path after another, up to and including the first that fails. -/
def inTurn (run : String → m Shown) : List String → m (List Shown)
  | [] => pure []
  | path :: rest => do
    let shown ← run path
    if shown.exitCode = 0 then return shown :: (← inTurn run rest) else return [shown]

section Files

variable {host : Host m} {config : Config}

/-- One file alone. -/
theorem tokenizeFiles_singleton (path : String) (world : World Report.Paper) :
    config.tokenizeFiles host [path] world = config.tokenizeFile host path world := by
  have same (ending : Ending) : (if ending.failure.isSome then pure ending
      else config.tokenizeFiles host [] ending.world : m Ending) = pure ending := by
    obtain ⟨world, failure⟩ := ending
    cases failure <;> rfl
  unfold Config.tokenizeFiles
  simp only [same, bind_pure]

/-- What the program shows where arguments are accepted and name files. -/
theorem perform_of_accepted {arguments : List String} (accepted : Request.ofArguments arguments = .ok (.run config))
    (some_input : config.inputs ≠ []) :
    perform host arguments = Ending.show config <$> config.tokenizeFiles host config.inputs untouched := by
  have files : config.tokenizeAll host = config.tokenizeFiles host config.inputs untouched := by
    unfold Config.tokenizeAll
    split
    · rename_i no_input
      exact absurd no_input some_input
    · rfl
  unfold perform
  rw [accepted, ← files]
  exact bind_pure_comp _ _

variable (keepsTime : host.KeepsTime) (untraced : config.options.trace = false)
include keepsTime untraced

/-- **What files show behind others** is what each of them shows alone, up to the first that fails. -/
theorem show_tokenizeFiles {before : World Report.Paper} (ready : Ready before) (paths : List String) :
    (Ending.show config) <$> config.tokenizeFiles host paths before =
      (fun shown => Shown.together (Ending.show config ⟨before, none⟩ :: shown)) <$>
        inTurn (fun path => Ending.show config <$> config.tokenizeFile host path untouched) paths := by
  induction paths generalizing before with
  | nil =>
    unfold Config.tokenizeFiles inTurn
    rw [map_pure, map_pure, together_show]
  | cons path rest onwards =>
    unfold Config.tokenizeFiles inTurn
    have coupled := coupled_tokenizeFile keepsTime untraced (follows_self ready) path
    rw [map_bind, map_bind, bind_map_left]
    refine coupled.bind_eq _ _ ?_
    rintro ⟨late, failure⟩ ⟨fresh, freshFailure⟩ ⟨same, follows⟩
    obtain rfl : failure = freshFailure := same
    have behind := show_of_follows follows failure
    cases failure with
    | some message =>
      rw [exitCode_show]
      simp only [Option.isSome_some, if_true, map_pure, behind, Nat.one_ne_zero, if_false]
    | none =>
      rw [exitCode_show]
      simp only [Option.isSome_none, Bool.false_eq_true, if_false, if_true]
      rw [onwards follows.ready, behind]
      simp only [together_together_cons, map_bind, map_pure, List.cons_append, List.nil_append]
      exact (bind_pure_comp _ _).symm

/-- **Several files, one by one.** Let the arguments be accepted, without tracing, and let them name files. Then the
program does what it does when the same command is run on each file alone, one after another, up to and including the
first that fails; files behind that are not touched. The output is that of the single runs put together, and so are
the messages, and the program succeeds if all of them do. -/
theorem files_are_tokenized_one_by_one {arguments : List String}
    (accepted : Request.ofArguments arguments = .ok (.run config)) (some_input : config.inputs ≠ []) :
    (∀ path, Request.ofArguments (onFile arguments path) = .ok (.run (config.withInputs [path]))) ∧
      perform host arguments =
        Shown.together <$> inTurn (fun path => perform host (onFile arguments path)) config.inputs := by
  refine ⟨ofArguments_onFile accepted, ?_⟩
  have alone (path : String) : perform host (onFile arguments path) =
      Ending.show config <$> config.tokenizeFile host path untouched := by
    rw [perform_of_accepted (ofArguments_onFile accepted path) (List.cons_ne_nil path [])]
    exact congrArg _ (tokenizeFiles_singleton path untouched)
  have nothing : Ending.show config ⟨untouched, none⟩ = .together [] := rfl
  simp only [alone]
  rw [perform_of_accepted accepted some_input, show_tokenizeFiles keepsTime untraced ready_untouched, nothing]
  simp only [together_together_cons, List.nil_append]

end Files

/-- A host that has the files of a directory, and notes down which of them are opened. Its clock stands still. -/
def recorder (directory : Directory) : Host (StateM (List String)) where
  openFile path := do
    modify (· ++ [path])
    return directory.open? path
  standardInput := return { bytes := directory.standardInput }
  timed compute := return (compute (), "1ns")

/-- The second of three files is missing: the first one is shown as it is alone, and the third one is not opened. -/
theorem files_are_tokenized_one_by_one_of_missing_file :
    let host := recorder (.ofFiles [("A.java", "x".toUTF8), ("B.java", "y".toUTF8)])
    let arguments := ["A.java", "--stats", "Missing.java", "--", "B.java"]
    let config : Config := { inputs := ["A.java", "Missing.java", "B.java"], stats := true }
    host.KeepsTime ∧ config.options.trace = false ∧ Request.ofArguments arguments = .ok (.run config) ∧
      config.inputs ≠ [] ∧ onFile arguments "B.java" = ["--stats", "--", "B.java"] ∧
      perform host arguments =
        Shown.together <$> inTurn (fun path => perform host (onFile arguments path)) config.inputs ∧
      ((perform host arguments).run []).run =
        ({ exitCode := 1
           output := "A.java\n=== Name: \"x\"\n" ++
             "│ 1 tokens  │ 1 steps  │ 0 delegations (depth 0)  │ 0 fallbacks  │ 1ns\nMissing.java\n"
           messages := "[ERROR] Missing.java: No such file or directory (os error 2)\n" },
          ["A.java", "Missing.java"]) := by
  intro host arguments config
  have keepsTime : host.KeepsTime := fun _ => rfl
  have accepted : Request.ofArguments arguments = .ok (.run config) := by decide +kernel
  have some_input : config.inputs ≠ [] := by decide
  exact ⟨keepsTime, rfl, accepted, some_input, by decide +kernel,
    (files_are_tokenized_one_by_one keepsTime rfl accepted some_input).2, by decide +kernel⟩

end TableLexer.CommandLine
