/-
**Printed tokens can be read back.**

A reader goes over the bytes of a printed list of tokens without being told whether colours were used.

* `Reader.next`: what one character does to the reader.
* `kindShown?_label`: a kind is known from what its line shows before the colon.
* `foldlM_tokenLine`: the line of a token is read as that token, and the reader is at a new line.
* `foldlM_printed`: so the lines of any tokens are read as those tokens.
* `printed_tokens_read_back`: each token takes one line, and no two lists of tokens are printed alike.
-/

import TableLexer.Proofs.Text.Unquoted
import TableLexer.Report.Printer

namespace TableLexer.Report

open Text (Unquoting escape)

/-! ### What is printed -/

/-- The lines of the tokens. -/
def printed (palette : Palette) : List Token → String
  | [] => ""
  | token :: rest => tokenLine palette token ++ printed palette rest

/-- A paper without a limit takes the lines of all the tokens. -/
theorem printAll_tokens (palette : Palette) (tokens : List Token) (before : String) :
    printAll palette (tokens.map Item.token) { written := before } =
      .ok () { written := before ++ printed palette tokens } := by
  induction tokens generalizing before with
  | nil => simp [printAll, printed, pure, EStateM.pure]
  | cons token rest onwards =>
    simp [printAll, printed, Item.print, printer, Paper.write, bind, EStateM.bind, onwards,
      String.append_assoc]

/-! ### The kind of a line -/

/-- What a line shows before the colon. -/
def label (palette : Palette) (kind : Kind) : String :=
  "=== " ++ palette.paint kind.fullName (kindStyle kind)

/-- The kind whose line shows this before the colon, with or without colours. -/
def kindShown? (shown : String) : Option Kind :=
  Kind.all.find? fun kind => shown = label ⟨false⟩ kind ∨ shown = label ⟨true⟩ kind

theorem mem_all (kind : Kind) : kind ∈ Kind.all := by
  cases kind <;> decide

theorem kindShown?_label_of_mem :
    ∀ colored, ∀ kind ∈ Kind.all, kindShown? (label ⟨colored⟩ kind) = some kind := by
  decide +kernel

/-- **A kind is known from what its line shows before the colon.** -/
theorem kindShown?_label (palette : Palette) (kind : Kind) :
    kindShown? (label palette kind) = some kind :=
  kindShown?_label_of_mem palette.colored kind (mem_all kind)

/-- The name of a kind and the number of its style hold no colon and no line break. -/
theorem ne_of_mem_name {kind : Kind} {c : Char}
    (shown : c ∈ kind.fullName.toList ++ (kindStyle kind).number.toList) : c ≠ ':' ∧ c ≠ '\n' := by
  have all : (Kind.all.all fun kind =>
      (kind.fullName.toList ++ (kindStyle kind).number.toList).all fun c => c != ':' && c != '\n') = true := by
    decide +kernel
  have apart := List.all_eq_true.mp (List.all_eq_true.mp all kind (mem_all kind)) c shown
  simpa using apart

/-- Neither a colon nor a line break stands before the colon. -/
theorem ne_of_mem_label {palette : Palette} {kind : Kind} {c : Char}
    (shown : c ∈ (label palette kind).toList) : c ≠ ':' ∧ c ≠ '\n' := by
  have named := @ne_of_mem_name kind c
  rw [List.mem_append] at named
  by_cases colored : palette.colored
  · simp [label, Palette.paint, graphicCode, colored] at shown
    grind
  · simp [label, Palette.paint, colored] at shown
    grind

theorem toList_tokenLine (palette : Palette) (token : Token) :
    (tokenLine palette token).toList =
      (label palette token.kind).toList ++ ':' :: ' ' :: '"' ::
        (token.text.toList.flatMap escape ++ ['"', '\n']) := by
  simp [tokenLine, label, Text.quoted]

/-! ### The reader -/

/-- Where a reader is in a line. -/
inductive Place where
  /-- Before the colon, behind these characters. -/
  | label (shown : List Char)
  /-- Behind the colon. -/
  | colon (kind : Kind)
  /-- Behind the blank after the colon. -/
  | blank (kind : Kind)
  /-- Between the quotation marks. -/
  | quoted (kind : Kind) (reading : Unquoting)
  /-- Behind the second quotation mark. -/
  | closed
  deriving DecidableEq, Repr

/-- What a reader of printed tokens has made out. -/
structure Reader where
  tokens : List Token := []
  place : Place := .label []
  deriving DecidableEq, Repr

namespace Reader

/-- Reads one more character. -/
def next (reader : Reader) (c : Char) : Option Reader :=
  match reader.place with
  | .label shown =>
    if c = '\n' then none
    else if c = ':' then
      (kindShown? (String.ofList shown)).map fun kind => { reader with place := .colon kind }
    else some { reader with place := .label (shown ++ [c]) }
  | .colon kind => if c = ' ' then some { reader with place := .blank kind } else none
  | .blank kind => if c = '"' then some { reader with place := .quoted kind {} } else none
  | .quoted kind reading =>
    if c = '"' ∧ reading.complete then
      some { tokens := reader.tokens ++ [⟨kind, String.ofList reading.text⟩], place := .closed }
    else (reading.next c).map fun reading => { reader with place := .quoted kind reading }
  | .closed => if c = '\n' then some { reader with place := .label [] } else none

end Reader

/-- The tokens that the bytes show, one in each line. -/
def readTokens? (bytes : ByteArray) : Option (List Token) := do
  let written ← String.fromUTF8? bytes
  let reader ← written.toList.foldlM Reader.next {}
  if reader.place = .label [] then some reader.tokens else none

/-! ### A line is read -/

theorem foldlM_label (tokens : List Token) (shown more : List Char)
    (plain : ∀ c ∈ more, c ≠ ':' ∧ c ≠ '\n') :
    more.foldlM Reader.next ⟨tokens, .label shown⟩ = some ⟨tokens, .label (shown ++ more)⟩ := by
  induction more generalizing shown with
  | nil => simp
  | cons c rest onwards =>
    obtain ⟨no_colon, no_break⟩ := plain c List.mem_cons_self
    simp [Reader.next, no_colon, no_break,
      onwards (shown ++ [c]) fun other among => plain other (List.mem_cons_of_mem c among)]

/-- Between the quotation marks a line is read as the text alone is. -/
theorem foldlM_quoted (tokens : List Token) (kind : Kind) {written : List Char}
    {before after : Unquoting} (read : written.foldlM Unquoting.next before = some after) :
    written.foldlM Reader.next ⟨tokens, .quoted kind before⟩ =
      some ⟨tokens, .quoted kind after⟩ := by
  induction written generalizing before with
  | nil =>
    obtain rfl : before = after := by simpa using read
    rfl
  | cons c rest onwards =>
    rw [List.foldlM_cons] at read
    obtain ⟨between, one, others⟩ := Option.bind_eq_some_iff.mp read
    have open_still : ¬ (c = '"' ∧ before.complete) := by
      rintro ⟨rfl, complete⟩
      simp_all [Unquoting.complete, Unquoting.next]
    simp [Reader.next, open_still, one, onwards others]

/-- **The line of a token is read as that token**, and the reader is at a new line. -/
theorem foldlM_tokenLine (palette : Palette) (tokens : List Token) (token : Token) :
    (tokenLine palette token).toList.foldlM Reader.next ⟨tokens, .label []⟩ =
      some ⟨tokens ++ [token], .label []⟩ := by
  have text := foldlM_quoted tokens token.kind
    (Text.foldlM_flatMap_escape token.text.toList [])
  simp [toList_tokenLine, List.foldlM_append, List.foldlM_cons,
    foldlM_label tokens [] _ fun _ => ne_of_mem_label, Reader.next, kindShown?_label, text,
    Unquoting.complete]

/-- The lines of any tokens are read as those tokens. -/
theorem foldlM_printed (palette : Palette) (tokens before : List Token) :
    (printed palette tokens).toList.foldlM Reader.next ⟨before, .label []⟩ =
      some ⟨before ++ tokens, .label []⟩ := by
  induction tokens generalizing before with
  | nil => simp [printed]
  | cons token rest onwards =>
    simp [printed, List.foldlM_append, foldlM_tokenLine, onwards]

theorem readTokens?_printed (palette : Palette) (tokens : List Token) :
    readTokens? (printed palette tokens).toUTF8 = some tokens := by
  have decoded : String.fromUTF8? (printed palette tokens).toUTF8 = some (printed palette tokens) :=
    dif_pos (printed palette tokens).isValidUTF8
  have read : (printed palette tokens).toList.foldlM Reader.next {} = some ⟨tokens, .label []⟩ :=
    foldlM_printed palette tokens []
  rw [readTokens?, decoded]
  simp [read]

/-! ### Lines -/

/-- A line holds a single line break, at its end. -/
theorem exists_line (palette : Palette) (token : Token) :
    ∃ line : List Char, '\n' ∉ line ∧ (tokenLine palette token).toList = line ++ ['\n'] := by
  refine ⟨(label palette token.kind).toList ++ ':' :: ' ' :: '"' ::
    (token.text.toList.flatMap escape ++ ['"']), ?_, ?_⟩
  · have in_label : '\n' ∉ (label palette token.kind).toList :=
      fun among => (ne_of_mem_label among).2 rfl
    simpa [in_label] using Text.not_mem_flatMap_escape token.text.toList
  · simp [toList_tokenLine]

/-- **Each token takes one line.** -/
theorem exists_lines (palette : Palette) (tokens : List Token) :
    ∃ lines : List (List Char), lines.length = tokens.length ∧ (∀ line ∈ lines, '\n' ∉ line) ∧
      (printed palette tokens).toList = lines.flatMap (· ++ ['\n']) := by
  induction tokens with
  | nil => exact ⟨[], by simp [printed]⟩
  | cons token rest onwards =>
    obtain ⟨line, unbroken, whole⟩ := exists_line palette token
    obtain ⟨lines, as_many, each, others⟩ := onwards
    exact ⟨line :: lines, by simp [as_many], by simpa using ⟨unbroken, each⟩,
      by simp [printed, whole, others]⟩

/-! ### Reading back -/

/-- **Printed tokens can be read back.** On a paper without a limit every list of tokens, whatever their
texts, is printed as one line for each of them, with and without colours. The bytes give the tokens back
to a reader that is not told which of the two it was, so no two lists of tokens are printed alike. -/
theorem printed_tokens_read_back (palette : Palette) (tokens : List Token) :
    printAll palette (tokens.map Item.token) {} = .ok () { written := printed palette tokens } ∧
      (∃ lines : List (List Char), lines.length = tokens.length ∧ (∀ line ∈ lines, '\n' ∉ line) ∧
        (printed palette tokens).toList = lines.flatMap (· ++ ['\n'])) ∧
      readTokens? (printed palette tokens).toUTF8 = some tokens ∧
      Function.Injective fun others => (printed palette others).toUTF8 := by
  refine ⟨by simpa using printAll_tokens palette tokens "", exists_lines palette tokens,
    readTokens?_printed palette tokens, ?_⟩
  intro first second same
  have alike : (printed palette first).toUTF8 = (printed palette second).toUTF8 := same
  have read := readTokens?_printed palette first
  rw [alike, readTokens?_printed] at read
  exact (Option.some.inj read).symm

end TableLexer.Report
