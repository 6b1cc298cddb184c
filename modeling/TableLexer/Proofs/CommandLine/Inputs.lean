/-
**The inputs among the arguments.**

What is neither an option nor the value of one is an input, and behind `--` everything is. Options do not look at the
inputs: they do the same to a configuration, whatever its inputs are. So a command line that is accepted stays
accepted, with the same options, when its inputs are taken out and others are put in.

* `KeepsInputs`, `Acts`: what an option does, alone or with its value.
* `withoutInputs`, `leadsTo_of_accepted`: other inputs for the same options.
* `ofArguments_onFile`: the same command on one file alone.
-/

import TableLexer.Proofs.CommandLine.Spellings

namespace TableLexer.CommandLine

/-- The configuration with other inputs. -/
def Config.withInputs (config : Config) (paths : List String) : Config := { config with inputs := paths }

/-! ### What options do -/

/-- The change is the same whatever the inputs are, and keeps them. -/
def KeepsInputs (change : Config → Except ArgumentError Config) : Prop :=
  ∀ config paths, change (config.withInputs paths) = (change config).map (·.withInputs paths)

/-- The arguments, an option with its value if it has one, end the reading with no run to do, or change the
configuration apart from its inputs. -/
def Acts (option : List String) : Prop :=
  (∀ config rest final, readArguments config (option ++ rest) ≠ .ok (.run final)) ∨
    ∃ change, KeepsInputs change ∧
      ∀ config rest, readArguments config (option ++ rest) = change config >>= fun next => readArguments next rest

theorem keepsInputs_ok {change : Config → Config}
    (keeps : ∀ config paths, change (config.withInputs paths) = (change config).withInputs paths) :
    KeepsInputs fun config => .ok (change config) :=
  fun config paths => congrArg Except.ok (keeps config paths)

theorem keepsInputs_setDepth (value : String) : KeepsInputs (·.setDepth value) := by
  intro config paths
  unfold Config.setDepth
  cases depth? value <;> rfl

theorem keepsInputs_assign (option value : String) : KeepsInputs (·.assign option value) := by
  unfold Config.assign
  split
  · exact keepsInputs_setDepth value
  · exact keepsInputs_ok fun _ _ => rfl

/-- An option acts with its value. -/
theorem acts_of_valued {option : String} (valued : option ∈ valuedOptions) (value : String) :
    Acts [option, value] := by
  rcases mem_valuedOptions_iff.mp valued with rfl | rfl | rfl
  · exact .inr ⟨_, keepsInputs_assign "--lang" value, fun config rest =>
      readArguments_cons_pair (by decide) config value rest⟩
  · refine .inr ⟨fun config => .ok (config.setLanguage value), keepsInputs_ok fun _ _ => rfl, fun config rest => ?_⟩
    simp [readArguments, bind, Except.bind]
  · exact .inr ⟨_, keepsInputs_assign "--max-depth" value, fun config rest =>
      readArguments_cons_pair (by decide) config value rest⟩

/-- What begins as an option does is read without a look at the inputs. -/
theorem keepsInputs_readOther {argument : String} (dash : argument.toList.head? = some '-') :
    KeepsInputs (·.readOther argument) := by
  intro config paths
  unfold Config.readOther
  cases valueOf? "--lang=" argument with
  | some name => rfl
  | none =>
    cases valueOf? "--max-depth=" argument with
    | some value => exact keepsInputs_setDepth value config paths
    | none =>
      dsimp only
      rw [if_pos dash, if_pos dash]
      rfl

/-- A switch changes the configuration, whatever its inputs are. -/
theorem acts_of_switch {argument : String} (change : Config → Config)
    (keeps : ∀ config paths, change (config.withInputs paths) = (change config).withInputs paths)
    (switches : ∀ config rest, readArguments config (argument :: rest) = readArguments (change config) rest) :
    Acts [argument] :=
  .inr ⟨fun config => .ok (change config), keepsInputs_ok keeps, switches⟩

/-- An option without a value acts alone. -/
theorem acts_of_plain {argument : String} (plain : argument ∉ valuedOptions) (apart : argument ≠ "--")
    (dash : argument.toList.head? = some '-') : Acts [argument] := by
  by_cases listed : argument ∈ optionWords
  · simp only [optionWords, List.mem_cons, List.not_mem_nil, or_false] at listed
    rcases listed with rfl | rfl | rfl | rfl | rfl | rfl | rfl | rfl | rfl | rfl | rfl | rfl | rfl | rfl
    -- First those that ask for information, then the switches; the others are excluded.
    iterate 5
      refine .inl fun config rest final => ?_
      rw [List.singleton_append]
      unfold readArguments
      simp
    · exact acts_of_switch (fun config => { config with color := true }) (fun _ _ => rfl)
        fun config rest => by conv => lhs; unfold readArguments; simp
    · exact acts_of_switch (fun config => { config with color := false }) (fun _ _ => rfl)
        fun config rest => by conv => lhs; unfold readArguments; simp
    · exact acts_of_switch
        (fun config => { config with options := { config.options with stall := .lenient } }) (fun _ _ => rfl)
        fun config rest => by conv => lhs; unfold readArguments; simp
    · exact acts_of_switch
        (fun config => { config with options := { config.options with trace := true } }) (fun _ _ => rfl)
        fun config rest => by conv => lhs; unfold readArguments; simp
    · exact acts_of_switch (fun config => { config with stats := true }) (fun _ _ => rfl)
        fun config rest => by conv => lhs; unfold readArguments; simp
    iterate 3 exact absurd (by decide) plain
    exact absurd rfl apart
  · exact .inr ⟨_, keepsInputs_readOther dash, fun config rest => readArguments_cons_of_other listed config rest⟩

/-- What does not begin as an option does is an input. -/
theorem readArguments_cons_of_input {argument : String} (no_dash : argument.toList.head? ≠ some '-') (config : Config)
    (rest : List String) :
    readArguments config (argument :: rest) = readArguments (config.addInputs [argument]) rest := by
  have other : argument ∉ optionWords := by
    intro listed
    have dashes : ∀ word ∈ optionWords, word.toList.head? = some '-' := by decide
    exact no_dash (dashes argument listed)
  have apart (letters : List Char) : behind? ('-' :: letters) argument.toList = none := by
    cases characters : argument.toList with
    | nil => rfl
    | cons c others =>
      have differs : '-' ≠ c := fun same => no_dash (by rw [characters, ← same]; rfl)
      exact if_neg differs
  have no_language : valueOf? "--lang=" argument = none := congrArg (Option.map _) (apart _)
  have no_depth : valueOf? "--max-depth=" argument = none := congrArg (Option.map _) (apart _)
  rw [readArguments_cons_of_other other, Config.readOther, no_language, no_depth]
  dsimp only
  rw [if_neg no_dash]
  rfl

/-! ### Other inputs for the same options -/

/-- The arguments without the inputs, and without the mark before inputs. -/
def withoutInputs : List String → List String
  | [] => []
  | argument :: rest =>
    if argument = "--" then []
    else if argument ∈ valuedOptions then
      match rest with
      | [] => [argument]
      | value :: rest => argument :: value :: withoutInputs rest
    else if argument.toList.head? = some '-' then argument :: withoutInputs rest
    else withoutInputs rest

example : withoutInputs ["A.java", "-l", "java", "--stats", "B.java", "--", "--lenient"] =
    ["-l", "java", "--stats"] := by decide

/-- A configuration is accepted as it is. -/
theorem eq_of_check {config final : Config} (accepted : config.check = .ok (.run final)) : final = config := by
  unfold Config.check at accepted
  split at accepted <;> split at accepted <;> cases accepted <;> rfl

/-- The configuration is accepted with one input or more instead of others. -/
theorem check_withInputs {config final : Config} (accepted : config.check = .ok (.run final)) (path : String)
    (paths : List String) :
    (config.withInputs (path :: paths)).check = .ok (.run (config.withInputs (path :: paths))) := by
  unfold Config.check at accepted ⊢
  unfold Config.withInputs
  dsimp only
  cases language : config.language with
  | none => rfl
  | some name =>
    rw [language] at accepted
    dsimp only at accepted ⊢
    split at accepted
    · rename_i known
      rw [if_pos known]
    · cases accepted

/-- The options lead from the one configuration to the other, which is accepted, whatever the inputs are. -/
def LeadsTo (config final : Config) (options : List String) : Prop :=
  final.check = .ok (.run final) ∧ ∀ base paths,
    readArguments (config.withInputs base) (options ++ "--" :: paths) = (final.withInputs (base ++ paths)).check

section Accepted

variable {config final : Config} {arguments : List String}

/-- An option before others. -/
theorem LeadsTo.append {option rest others : List String} (acts : Acts option)
    (accepted : readArguments config (option ++ rest) = .ok (.run final))
    (further : ∀ next, readArguments next rest = .ok (.run final) → LeadsTo next final others) :
    LeadsTo config final (option ++ others) := by
  rcases acts with never | ⟨change, keeps, reads⟩
  · exact absurd accepted (never config rest final)
  · rw [reads] at accepted
    cases changed : change config with
    | error => rw [changed] at accepted; cases accepted
    | ok next =>
      rw [changed] at accepted
      obtain ⟨checked, others⟩ := further next accepted
      refine ⟨checked, fun base paths => ?_⟩
      rw [List.append_assoc, reads, keeps, changed]
      exact others base paths

/-- Behind all options, inputs are all that is left. -/
theorem leadsTo_nil {read : Config} (accepted : read.check = .ok (.run final))
    (same : read.withInputs [] = config.withInputs []) : LeadsTo config final [] := by
  obtain rfl := eq_of_check accepted
  refine ⟨accepted, fun base paths => ?_⟩
  have mark : readArguments (config.withInputs base) ("--" :: paths) =
      ((config.withInputs base).addInputs paths).check := by
    unfold readArguments
    simp
  have equal : final.withInputs (base ++ paths) = config.withInputs (base ++ paths) :=
    congrArg (·.withInputs (base ++ paths)) same
  rw [equal]
  exact mark

/-- **Where arguments are accepted, their options are**, with any inputs. -/
theorem leadsTo_of_accepted (accepted : readArguments config arguments = .ok (.run final)) :
    LeadsTo config final (withoutInputs arguments) := by
  fun_induction withoutInputs arguments generalizing config with
  | case1 =>
    have accepted : config.check = .ok (.run final) := accepted
    exact leadsTo_nil accepted rfl
  | case2 rest =>
    have accepted : (config.addInputs rest).check = .ok (.run final) := by
      unfold readArguments at accepted
      simpa using accepted
    exact leadsTo_nil accepted rfl
  | case3 option _ valued =>
    have refused : readArguments config [option] ≠ .ok (.run final) := by
      rcases mem_valuedOptions_iff.mp valued with rfl | rfl | rfl <;> simp [readArguments]
    exact absurd accepted refused
  | case4 option _ valued value rest onwards =>
    exact .append (acts_of_valued valued value) accepted fun _ => onwards
  | case5 option rest apart plain dash onwards =>
    exact .append (acts_of_plain plain apart dash) accepted fun _ => onwards
  | case6 argument rest _ _ no_dash onwards =>
    rw [readArguments_cons_of_input no_dash] at accepted
    obtain ⟨checked, others⟩ := onwards accepted
    exact ⟨checked, others⟩

/-- The same options, and one file alone. -/
def onFile (arguments : List String) (path : String) : List String := withoutInputs arguments ++ ["--", path]

/-- **The same command on one file alone** is accepted, and asks for the same run on that file. -/
theorem ofArguments_onFile (accepted : Request.ofArguments arguments = .ok (.run config)) (path : String) :
    Request.ofArguments (onFile arguments path) = .ok (.run (config.withInputs [path])) := by
  obtain ⟨checked, others⟩ := leadsTo_of_accepted accepted
  exact (others [] [path]).trans (check_withInputs checked path [])

end Accepted

end TableLexer.CommandLine
