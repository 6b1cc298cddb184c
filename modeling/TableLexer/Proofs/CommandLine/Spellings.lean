/-
**The two spellings of an option with a value.**

The value of an option follows as an argument of its own, or in the same argument behind the option and `=`. What
stands before the option decides whether it is read as one at all: it may be the value of another option, or an input
behind `--`. Where it is read as an option, the two spellings agree, unless the value begins with the option and `=`
once more. In one piece such a beginning is taken away as often as it is there; in two pieces it stays.

* `placeBehind`: what the next argument is read as.
* `readArguments_append_congr`: what stands before an option does not tell spellings apart.
* `readArguments_cons_piece`: what an option in one piece does.
* `withoutRepeats_eq_self_iff`: when nothing is taken away from a value.
* `spellings_agree_unless_repeated`: when the two spellings agree.
* `spellings_part_on_repetition`: a value on which they do not.
-/

import Mathlib.Data.List.Induction
import TableLexer.CommandLine.Arguments

namespace TableLexer.CommandLine

/-! ### Places -/

/-- What an argument is read as. -/
inductive Place where
  | option
  /-- The value of the option before it. -/
  | value
  /-- An input, whatever it looks like. -/
  | input
  deriving DecidableEq, Repr

/-- The options whose value may be an argument of its own. -/
def valuedOptions : List String := ["--lang", "-l", "--max-depth"]

theorem mem_valuedOptions_iff {argument : String} :
    argument ∈ valuedOptions ↔ argument = "--lang" ∨ argument = "-l" ∨ argument = "--max-depth" := by
  simp [valuedOptions]

/-- What the argument behind this one is read as. -/
def Place.next : Place → String → Place
  | option, argument =>
    if argument ∈ valuedOptions then value else if argument = "--" then input else option
  | value, _ => option
  | input, _ => input

/-- What the argument behind these is read as. -/
def placeBehind (arguments : List String) : Place := arguments.foldl Place.next .option

theorem placeBehind_cons_of_plain {argument : String} (plain : argument ∉ valuedOptions) (apart : argument ≠ "--")
    (rest : List String) : placeBehind (argument :: rest) = placeBehind rest := by
  simp [placeBehind, Place.next, plain, apart]

theorem placeBehind_cons_of_valued {option : String} (valued : option ∈ valuedOptions) (value : String)
    (rest : List String) : placeBehind (option :: value :: rest) = placeBehind rest := by
  simp [placeBehind, Place.next, valued]

/-- Behind the mark for inputs, everything is one. -/
theorem placeBehind_cons_of_inputs (rest : List String) : placeBehind ("--" :: rest) = .input := by
  have first : Place.next .option "--" = .input := by decide
  rw [placeBehind, List.foldl_cons, first]
  induction rest with
  | nil => rfl
  | cons argument rest ih => exact ih

section Before

variable {tail other : List String} (same : ∀ config, readArguments config tail = readArguments config other)
include same

/-- An argument that is read alone does not tell what follows it apart. -/
theorem readArguments_cons_congr {argument : String} (plain : argument ∉ valuedOptions) (apart : argument ≠ "--")
    (config : Config) : readArguments config (argument :: tail) = readArguments config (argument :: other) := by
  rw [mem_valuedOptions_iff, not_or, not_or] at plain
  obtain ⟨no_lang, no_letter, no_depth⟩ := plain
  unfold readArguments
  simp only [same, no_lang, no_letter, no_depth, apart, or_self, if_false]

/-- An option with its value does not tell what follows it apart. -/
theorem readArguments_cons_cons_congr {option : String} (valued : option ∈ valuedOptions) (value : String)
    (config : Config) :
    readArguments config (option :: value :: tail) = readArguments config (option :: value :: other) := by
  rcases mem_valuedOptions_iff.mp valued with rfl | rfl | rfl <;> simp [readArguments, same]

/-- **What stands before an option does not tell apart** what follows it, be it read to its end or not. -/
theorem readArguments_append_congr {front : List String} (atOption : placeBehind front = .option)
    (config : Config) : readArguments config (front ++ tail) = readArguments config (front ++ other) := by
  induction front using List.twoStepInduction generalizing config with
  | nil => exact same config
  | singleton argument =>
    have plain : argument ∉ valuedOptions := by
      intro valued
      simp [placeBehind, Place.next, valued] at atOption
    have apart : argument ≠ "--" := by
      rintro rfl
      rw [placeBehind_cons_of_inputs] at atOption
      cases atOption
    exact readArguments_cons_congr same plain apart config
  | cons_cons argument next rest onwards onwards_next =>
    by_cases valued : argument ∈ valuedOptions
    · rw [placeBehind_cons_of_valued valued] at atOption
      exact readArguments_cons_cons_congr (onwards atOption) valued next config
    · have apart : argument ≠ "--" := by
        rintro rfl
        rw [placeBehind_cons_of_inputs] at atOption
        cases atOption
      rw [placeBehind_cons_of_plain valued apart] at atOption
      exact readArguments_cons_congr (onwards_next next atOption) valued apart config

end Before

/-! ### Beginnings that are repeated -/

/-- The value without a beginning, as often as it begins with it. -/
def withoutRepeats (beginning value : String) : String :=
  String.ofList (trimUpTo beginning.toList value.toList.length value.toList)

section Repeats

variable {expected text rest : List Char} {beginning value : String}

theorem behind?_eq_some_iff : behind? expected text = some rest ↔ text = expected ++ rest := by
  induction expected generalizing text with
  | nil => simp [behind?]
  | cons c expected ih =>
    cases text with
    | nil => simp [behind?]
    | cons d text =>
      by_cases same : c = d
      · simp [behind?, same, ih]
      · simp [behind?, same, Ne.symm same]

theorem behind?_eq_none_iff : behind? expected text = none ↔ ¬ expected <+: text := by
  rw [Option.eq_none_iff_forall_ne_some]
  constructor
  · rintro never ⟨rest, rfl⟩
    exact never rest (behind?_eq_some_iff.mpr rfl)
  · intro apart rest found
    exact apart ⟨rest, (behind?_eq_some_iff.mp found).symm⟩

/-- A text is the beginning, as often as it was taken away, and what is left; and that does not begin so. -/
theorem exists_repeats_of_trimUpTo (some_char : expected ≠ []) {bound : Nat} (enough : text.length ≤ bound) :
    ∃ times, text = (List.replicate times expected).flatten ++ trimUpTo expected bound text ∧
      ¬ expected <+: trimUpTo expected bound text := by
  induction bound generalizing text with
  | zero =>
    obtain rfl : text = [] := List.eq_nil_of_length_eq_zero (Nat.le_zero.mp enough)
    exact ⟨0, rfl, fun front => some_char (List.prefix_nil.mp front)⟩
  | succ bound ih =>
    unfold trimUpTo
    cases found : behind? expected text with
    | none => exact ⟨0, rfl, behind?_eq_none_iff.mp found⟩
    | some rest =>
      obtain rfl := behind?_eq_some_iff.mp found
      have shorter : rest.length ≤ bound := by
        have := List.length_pos_iff.mpr some_char
        rw [List.length_append] at enough
        omega
      obtain ⟨times, whole, apart⟩ := ih shorter
      refine ⟨times + 1, ?_, apart⟩
      rw [List.replicate_succ, List.flatten_cons, List.append_assoc, ← whole]

theorem exists_repeats (some_char : beginning.toList ≠ []) (value : String) :
    ∃ times, value.toList =
        (List.replicate times beginning.toList).flatten ++ (withoutRepeats beginning value).toList ∧
      ¬ beginning.toList <+: (withoutRepeats beginning value).toList := by
  unfold withoutRepeats
  rw [String.toList_ofList]
  exact exists_repeats_of_trimUpTo some_char (Nat.le_refl _)

/-- **Nothing is taken away** from a value just if it does not begin so. -/
theorem withoutRepeats_eq_self_iff (some_char : beginning.toList ≠ []) :
    withoutRepeats beginning value = value ↔ ¬ beginning.toList <+: value.toList := by
  obtain ⟨times, whole, apart⟩ := exists_repeats some_char value
  constructor
  · intro same
    rwa [same] at apart
  · intro no_repeat
    cases times with
    | zero =>
      rw [List.replicate_zero, List.flatten_nil, List.nil_append] at whole
      exact String.toList_inj.mp whole.symm
    | succ times =>
      rw [List.replicate_succ, List.flatten_cons, List.append_assoc] at whole
      exact absurd ⟨_, whole.symm⟩ no_repeat

/-- The value in an argument that begins with the option. -/
theorem valueOf?_append (beginning value : String) :
    valueOf? beginning (beginning ++ value) = some (withoutRepeats beginning value) := by
  have found : behind? beginning.toList (beginning.toList ++ value.toList) = some value.toList :=
    behind?_eq_some_iff.mpr rfl
  rw [valueOf?, String.toList_append, found]
  rfl

end Repeats

/-! ### Options in one piece -/

/-- The arguments that are options by themselves. -/
def optionWords : List String :=
  ["-h", "--help", "-V", "--version", "--list", "--color", "--no-color", "--lenient", "--trace", "--stats", "--lang",
    "-l", "--max-depth", "--"]

/-- Any other argument is read for what it begins with. -/
theorem readArguments_cons_of_other {argument : String} (other : argument ∉ optionWords) (config : Config)
    (rest : List String) : readArguments config (argument :: rest) =
      config.readOther argument >>= fun next => readArguments next rest := by
  simp only [optionWords, List.mem_cons, List.not_mem_nil, or_false, not_or] at other
  conv => lhs; unfold readArguments
  simp only [other, or_self, if_false]

/-- The options that can be written in one piece with their value. -/
def joinedOptions : List String := ["--lang", "--max-depth"]

theorem mem_joinedOptions_iff {option : String} :
    option ∈ joinedOptions ↔ option = "--lang" ∨ option = "--max-depth" := by
  simp [joinedOptions]

/-- The configuration with the value of the option. -/
def Config.assign (config : Config) (option value : String) : Except ArgumentError Config :=
  if option = "--max-depth" then config.setDepth value else .ok (config.setLanguage value)

section Options

variable {option : String} (listed : option ∈ joinedOptions) (config : Config) (value : String)
  (rest : List String)
include listed

/-- An option and its value in two pieces. -/
theorem readArguments_cons_pair : readArguments config (option :: value :: rest) =
    config.assign option value >>= fun next => readArguments next rest := by
  rcases mem_joinedOptions_iff.mp listed with rfl | rfl
  · simp [readArguments, Config.assign, bind, Except.bind]
  · simp [readArguments, Config.assign]

theorem readOther_piece : config.readOther (option ++ "=" ++ value) =
    config.assign option (withoutRepeats (option ++ "=") value) := by
  have found := valueOf?_append (option ++ "=") value
  unfold Config.readOther
  rcases mem_joinedOptions_iff.mp listed with rfl | rfl
  · have joined : "--lang" ++ "=" = "--lang=" := by decide
    rw [joined] at found ⊢
    rw [found]
    rfl
  · have joined : "--max-depth" ++ "=" = "--max-depth=" := by decide
    rw [joined] at found ⊢
    have other : valueOf? "--lang=" ("--max-depth=" ++ value) = none := by
      rw [valueOf?, String.toList_append]
      rfl
    rw [other, found]
    rfl

/-- **An option and its value in one piece**: a beginning that is repeated is taken away. -/
theorem readArguments_cons_piece : readArguments config ((option ++ "=" ++ value) :: rest) =
    config.assign option (withoutRepeats (option ++ "=") value) >>= fun next => readArguments next rest := by
  have other : option ++ "=" ++ value ∉ optionWords := by
    intro among
    have no_sign : ∀ word ∈ optionWords, '=' ∉ word.toList := by decide
    exact no_sign _ among (by simp)
  rw [readArguments_cons_of_other other, readOther_piece listed]

/-- What is answered to an option whose value is refused. -/
def refusal (option value : String) : ArgumentError :=
  if option = "--max-depth" then .invalidDepth value else .unknownLanguage value

/-- A value that begins as an option does is refused. -/
theorem ofArguments_pair_of_dash (dash : value.toList.head? = some '-') :
    Request.ofArguments [option, value] = .error (refusal option value) := by
  obtain ⟨others, written⟩ : ∃ others, value.toList = '-' :: others := by
    cases characters : value.toList with
    | nil => rw [characters] at dash; cases dash
    | cons c others => rw [characters] at dash; exact ⟨others, by rw [Option.some.inj dash]⟩
  rw [Request.ofArguments, readArguments_cons_pair listed]
  rcases mem_joinedOptions_iff.mp listed with rfl | rfl
  · have unknown : Registry.builtins.find? value = none := by
      simp [Registry.find?, Registry.builtins, Java.language, Java.descriptor, Descriptor.answersTo, equalUpToCase,
        written]
    show (({} : Config).setLanguage value).check = _
    simp [Config.check, Config.setLanguage, unknown, refusal]
  · have no_number : depth? value = none := by simp [depth?, written]
    simp [Config.assign, Config.setDepth, no_number, refusal, bind, Except.bind]

/-- The refusal of a value is the answer to no other value. -/
theorem eq_of_refusal {other : String}
    (refused : (config.assign option value >>= fun next => readArguments next []) = .error (refusal option other)) :
    value = other := by
  rcases mem_joinedOptions_iff.mp listed with rfl | rfl
  · have refused : (config.setLanguage value).check = .error (.unknownLanguage other) := refused
    unfold Config.check Config.setLanguage at refused
    dsimp only at refused
    split at refused
    · cases refused
    · cases refused
      rfl
  · have refused : (config.setDepth value >>= fun next => next.check) = .error (.invalidDepth other) := refused
    unfold Config.setDepth at refused
    cases number : depth? value with
    | none =>
      rw [number] at refused
      cases refused
      rfl
    | some depth =>
      rw [number] at refused
      have refused : Config.check { config with options := { config.options with maxDepth := depth } } =
        .error (.invalidDepth other) := refused
      unfold Config.check at refused
      split at refused <;> split at refused <;> cases refused

/-! ### The two spellings -/

/-- **The two spellings agree unless the value begins with the option once more.** Wherever an option is read, one
piece does what two pieces do with the value without the repeated beginnings. So the two spellings of a value that does
not begin so give the same configuration or the same error, whatever stands around them; and they do not if the value
begins so and nothing stands around them. -/
theorem spellings_agree_unless_repeated {front : List String} (atOption : placeBehind front = .option) :
    let beginning := option ++ "="
    Request.ofArguments (front ++ (beginning ++ value) :: rest) =
        Request.ofArguments (front ++ option :: withoutRepeats beginning value :: rest) ∧
      (∃ times, value.toList = (List.replicate times beginning.toList).flatten ++
          (withoutRepeats beginning value).toList ∧ ¬ beginning.toList <+: (withoutRepeats beginning value).toList) ∧
      (¬ beginning.toList <+: value.toList →
        Request.ofArguments (front ++ (beginning ++ value) :: rest) =
          Request.ofArguments (front ++ option :: value :: rest)) ∧
      (Request.ofArguments [beginning ++ value] = Request.ofArguments [option, value] ↔
        ¬ beginning.toList <+: value.toList) := by
  intro beginning
  have some_char : beginning.toList ≠ [] := by simp [beginning]
  have agree (front : List String) (atOption : placeBehind front = .option) (rest : List String) :
      Request.ofArguments (front ++ (beginning ++ value) :: rest) =
        Request.ofArguments (front ++ option :: withoutRepeats beginning value :: rest) := by
    refine readArguments_append_congr (fun config => ?_) atOption {}
    rw [readArguments_cons_pair listed, readArguments_cons_piece listed]
  refine ⟨agree front atOption rest, exists_repeats some_char value, fun no_repeat => ?_, ?_, fun no_repeat => ?_⟩
  · rw [agree front atOption, (withoutRepeats_eq_self_iff some_char).mpr no_repeat]
  · intro same repeated
    have dash : value.toList.head? = some '-' := by
      obtain ⟨others, whole⟩ := repeated
      rw [← whole]
      rcases mem_joinedOptions_iff.mp listed with rfl | rfl <;> simp [beginning]
    rw [ofArguments_pair_of_dash listed value dash, Request.ofArguments, readArguments_cons_piece listed] at same
    have kept := eq_of_refusal listed {} _ same
    exact (withoutRepeats_eq_self_iff some_char).mp kept repeated
  · have alone := agree [] rfl []
    rw [(withoutRepeats_eq_self_iff some_char).mpr no_repeat] at alone
    exact alone

end Options

/-- The value may look like an option, and the value of an option before it like the mark for inputs. -/
theorem spellings_agree_unless_repeated_of_option_as_value :
    "--lang" ∈ joinedOptions ∧ placeBehind ["--trace", "-l", "--"] = .option ∧
      ¬ ("--lang" ++ "=").toList <+: "--stats".toList ∧
      Request.ofArguments ["--trace", "-l", "--", "--lang" ++ "=" ++ "--stats", "A.java"] =
        Request.ofArguments ["--trace", "-l", "--", "--lang", "--stats", "A.java"] := by
  have listed : "--lang" ∈ joinedOptions := by decide
  have atOption : placeBehind ["--trace", "-l", "--"] = .option := by decide
  have no_repeat : ¬ ("--lang" ++ "=").toList <+: "--stats".toList := by decide
  exact ⟨listed, atOption, no_repeat,
    (spellings_agree_unless_repeated listed "--stats" ["A.java"] atOption).2.2.1 no_repeat⟩

/-- In one piece the option is taken away from the value once more than in two. -/
theorem spellings_part_on_repetition :
    Request.ofArguments ["--lang=--lang=java"] = .ok (.run { language := some "java" }) ∧
      Request.ofArguments ["--lang", "--lang=java"] = .error (.unknownLanguage "--lang=java") ∧
      Request.ofArguments ["--max-depth=--max-depth=3", "A.java"] =
        .ok (.run { inputs := ["A.java"], options := { maxDepth := 3 } }) ∧
      Request.ofArguments ["--max-depth", "--max-depth=3", "A.java"] = .error (.invalidDepth "--max-depth=3") := by
  decide +kernel

end TableLexer.CommandLine
