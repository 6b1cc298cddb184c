/-
**Colours only add codes.**

Where colours are used, codes stand around some pieces of what is printed. A text is adorned if it gives a plain text
once its codes are deleted, whatever is printed behind it. Plain pieces and painted ones are adorned, and so is what
is made of such pieces: no code comes about where two of them meet.

* `withoutCodes`: a text without its codes.
* `Adorned.append`, `adorned_self`, `adorned_paint`: how adorned texts are put together.
* `adorned_tokenLine`, `adorned_metricsLine`: the lines that are printed, and the plain lines hold no code.
* `printAll_eq`: what is printed on a paper without a limit.
* `colors_add_codes_only`: the coloured output without its codes is the plain output.
-/

import TableLexer.Proofs.Report.ReadBack

namespace TableLexer.Report

/-! ### Codes -/

/-- The character with which codes begin. -/
def codeMark : Char := '\x1b'

/-- What is behind a code with which a text begins: the mark, a bracket, digits and `m`. -/
def behindCode? : List Char → Option (List Char)
  | '\x1b' :: '[' :: rest =>
    match rest.takeWhile Char.isDigit, rest.dropWhile Char.isDigit with
    | _ :: _, 'm' :: behind => some behind
    | _, _ => none
  | _ => none

theorem behindCode?_cons_of_ne {c : Char} (other : c ≠ codeMark) (rest : List Char) :
    behindCode? (c :: rest) = none := by
  unfold behindCode?
  split
  · rename_i same
    exact absurd (List.cons.inj same).1 other
  · rfl

/-- A code is behind nothing but its mark, its bracket, its digits and its `m`. -/
theorem behindCode?_eq_some_iff {text behind : List Char} :
    behindCode? text = some behind ↔ ∃ number : List Char, number ≠ [] ∧ (∀ c ∈ number, c.isDigit = true) ∧
      text = codeMark :: '[' :: (number ++ 'm' :: behind) := by
  constructor
  · intro found
    unfold behindCode? at found
    split at found
    · rename_i rest
      split at found
      · rename_i digit more _ digits left
        refine ⟨digit :: more, List.cons_ne_nil _ _, fun c among => ?_, ?_⟩
        · rw [← digits] at among
          exact List.all_eq_true.mp List.all_takeWhile c among
        · rw [← Option.some.inj found, ← digits, ← left, List.takeWhile_append_dropWhile]
          rfl
      · cases found
    · cases found
  · rintro ⟨number, some_digit, digits, rfl⟩
    obtain ⟨digit, more, rfl⟩ := List.exists_cons_of_ne_nil some_digit
    have taken : ((digit :: more) ++ 'm' :: behind).takeWhile Char.isDigit = digit :: more := by
      rw [List.takeWhile_append_of_pos digits]
      simp
    have dropped : ((digit :: more) ++ 'm' :: behind).dropWhile Char.isDigit = 'm' :: behind := by
      rw [List.dropWhile_append_of_pos digits]
      rfl
    simp only [codeMark, behindCode?, taken, dropped]

/-- A text without its codes, which are looked for from its start on. -/
def withoutCodes (text : List Char) : List Char :=
  match _found : behindCode? text with
  | some behind => withoutCodes behind
  | none =>
    match text with
    | [] => []
    | c :: rest => c :: withoutCodes rest
termination_by text.length
decreasing_by
  · obtain ⟨number, _, _, rfl⟩ := behindCode?_eq_some_iff.mp _found
    simp only [List.length_cons, List.length_append]
    omega
  · simp

theorem withoutCodes_of_some {text behind : List Char} (found : behindCode? text = some behind) :
    withoutCodes text = withoutCodes behind := by
  rw [withoutCodes]
  split
  · rename_i found_too
    rw [Option.some.inj (found.symm.trans found_too)]
  · rename_i not_found
    rw [found] at not_found
    cases not_found

theorem withoutCodes_cons_of_ne {c : Char} (other : c ≠ codeMark) (rest : List Char) :
    withoutCodes (c :: rest) = c :: withoutCodes rest := by
  have unfound := behindCode?_cons_of_ne other rest
  rw [withoutCodes]
  split
  · rename_i found
    rw [unfound] at found
    cases found
  · rfl

theorem withoutCodes_nil : withoutCodes [] = [] := by
  rw [withoutCodes]
  rfl

example : withoutCodes "\x1b[31m\x1b[m[0m\x1b[0m".toList = "\x1b[m[0m".toList := by
  cbv

/-! ### Adorned texts -/

/-- The text is the plain one, which holds no mark, with codes in it. -/
structure Adorned (shown plain : String) : Prop where
  /-- Without codes it is the plain text, whatever follows. -/
  without : ∀ rest, withoutCodes (shown.toList ++ rest) = plain.toList ++ withoutCodes rest
  unmarked : codeMark ∉ plain.toList

section Pieces

variable {shown plain more left text : String}

theorem Adorned.append (one : Adorned shown plain) (other : Adorned more left) :
    Adorned (shown ++ more) (plain ++ left) where
  without rest := by
    rw [String.toList_append, List.append_assoc, one.without, other.without, String.toList_append,
      List.append_assoc]
  unmarked := by
    rw [String.toList_append, List.mem_append]
    exact not_or.mpr ⟨one.unmarked, other.unmarked⟩

/-- A text without a mark is plain. -/
theorem adorned_self (unmarked : codeMark ∉ text.toList) : Adorned text text where
  without rest := by
    generalize text.toList = characters at unmarked
    induction characters with
    | nil => rfl
    | cons c characters ih =>
      obtain ⟨other, others⟩ := List.ne_and_not_mem_of_not_mem_cons unmarked
      rw [List.cons_append, withoutCodes_cons_of_ne other.symm, ih others, List.cons_append]
  unmarked

/-- Nothing is left of a code. -/
theorem adorned_graphicCode {number : String} (some_digit : number.toList ≠ [])
    (digits : ∀ c ∈ number.toList, c.isDigit = true) : Adorned (graphicCode number) "" where
  without rest := by
    refine withoutCodes_of_some (behindCode?_eq_some_iff.mpr ⟨number.toList, some_digit, digits, ?_⟩)
    simp [graphicCode, codeMark]
  unmarked := List.not_mem_nil

theorem Style.digits_number (style : Style) :
    style.number.toList ≠ [] ∧ ∀ c ∈ style.number.toList, c.isDigit = true := by
  rw [← List.all_eq_true]
  cases style <;> decide

/-- Nothing but the text is left of painted text. -/
theorem adorned_paint (palette : Palette) (style : Style) (unmarked : codeMark ∉ text.toList) :
    Adorned (palette.paint text style) text := by
  unfold Palette.paint
  split
  · obtain ⟨some_digit, digits⟩ := style.digits_number
    have on : Adorned (graphicCode style.number) "" := adorned_graphicCode some_digit digits
    have off : Adorned (graphicCode "0") "" := adorned_graphicCode (by decide) (List.all_eq_true.mp rfl)
    simpa using (on.append (adorned_self unmarked)).append off
  · exact adorned_self unmarked

end Pieces

/-! ### Marks -/

/-- No mark stands in the number of a character. -/
theorem codeMark_not_mem_escapeByNumber (c : Char) : codeMark ∉ Text.escapeByNumber c := by
  obtain ⟨digits, each, shown, _⟩ := Text.exists_toDigits_eq c.toNat
  have no_digit : ∀ digit < 16, codeMark ≠ Nat.digitChar digit := by decide
  have unmarked : codeMark ∉ Nat.toDigits 16 c.toNat := by
    rw [shown]
    intro among
    obtain ⟨digit, member, same⟩ := List.mem_map.mp among
    exact no_digit digit (each digit member) same.symm
  have signs : codeMark ≠ '\\' ∧ codeMark ≠ 'u' ∧ codeMark ≠ '{' ∧ codeMark ≠ '}' := by decide
  simp [Text.escapeByNumber, unmarked, signs]

/-- No mark stands in what is written for a character in quotation marks, not even for the mark itself. -/
theorem codeMark_not_mem_escape (c : Char) : codeMark ∉ Text.escape c := by
  unfold Text.escape
  split_ifs with mark backslash tab feed back nul unshown
  · decide
  · decide
  · decide
  · decide
  · decide
  · decide
  · exact codeMark_not_mem_escapeByNumber c
  · have hidden : Text.isUnshown codeMark = true := by decide +kernel
    rw [List.mem_singleton]
    rintro rfl
    exact unshown hidden

theorem codeMark_not_mem_quoted (text : List Char) : codeMark ∉ (Text.quoted text).toList := by
  have inside : codeMark ∉ text.flatMap Text.escape := by
    intro among
    obtain ⟨c, _, written⟩ := List.mem_flatMap.mp among
    exact codeMark_not_mem_escape c written
  have unlike : codeMark ≠ '"' := by decide
  simp [Text.quoted, inside, unlike]

/-- Digits are no marks. -/
theorem codeMark_not_mem_of_digits {text : List Char} (digits : ∀ c ∈ text, c.isDigit = true) : codeMark ∉ text :=
  fun among => absurd (digits codeMark among) (by decide)

theorem codeMark_not_mem_toString (n : Nat) : codeMark ∉ (toString n).toList := by
  rw [Nat.toString_eq_ofList_toDigits, String.toList_ofList]
  exact codeMark_not_mem_of_digits fun c among => Nat.isDigit_of_mem_toDigits (by decide) (by decide) among

theorem codeMark_not_mem_decimals (digits part : Nat) : codeMark ∉ (decimals digits part).toList := by
  have all_digits : ∀ c ∈ List.replicate (digits - (Nat.toDigits 10 part).length) '0' ++ Nat.toDigits 10 part,
      c.isDigit = true := by
    intro c among
    rcases List.mem_append.mp among with zero | digit
    · rw [List.eq_of_mem_replicate zero]
      decide
    · exact Nat.isDigit_of_mem_toDigits (by decide) (by decide) digit
  unfold decimals
  dsimp only
  generalize List.replicate _ '0' ++ Nat.toDigits 10 part = all at all_digits ⊢
  split
  · decide
  · have shown : codeMark ∉ (all.reverse.dropWhile (· == '0')).reverse := by
      refine codeMark_not_mem_of_digits fun c among => all_digits c ?_
      exact List.mem_reverse.mp ((List.dropWhile_sublist _).subset (List.mem_reverse.mp among))
    rw [String.toList_ofList]
    exact List.not_mem_cons_of_ne_of_not_mem (by decide) shown

theorem codeMark_not_mem_inUnit (whole digits part : Nat) {unit : String} (unmarked : codeMark ∉ unit.toList) :
    codeMark ∉ (Duration.inUnit whole digits part unit).toList :=
  (((adorned_self (codeMark_not_mem_toString whole)).append
    (adorned_self (codeMark_not_mem_decimals digits part))).append (adorned_self unmarked)).unmarked

theorem codeMark_not_mem_duration (elapsed : Duration) : codeMark ∉ elapsed.text.toList := by
  unfold Duration.text
  dsimp only
  split_ifs <;> exact codeMark_not_mem_inUnit _ _ _ (by decide)

theorem codeMark_not_mem_fullName (kind : Kind) : codeMark ∉ kind.fullName.toList := by
  have all : ∀ kind ∈ Kind.all, codeMark ∉ kind.fullName.toList := by decide +kernel
  exact all kind (mem_all kind)

/-! ### The lines -/

/-- The line of a token is adorned, whatever the text of the token. -/
theorem adorned_tokenLine (palette : Palette) (token : Token) :
    Adorned (tokenLine palette token) (tokenLine ⟨false⟩ token) := by
  have label := adorned_paint palette (kindStyle token.kind) (codeMark_not_mem_fullName token.kind)
  have text := adorned_self (codeMark_not_mem_quoted token.text.toList)
  have opening : Adorned "=== " "=== " := adorned_self (by decide)
  have colon : Adorned ": " ": " := adorned_self (by decide)
  have ending : Adorned "\n" "\n" := adorned_self (by decide)
  exact (((opening.append label).append colon).append text).append ending

/-- The line of a name is adorned if the name holds no mark. -/
theorem adorned_headerLine (palette : Palette) {name : String} (unmarked : codeMark ∉ name.toList) :
    Adorned (headerLine palette name) (headerLine ⟨false⟩ name) :=
  (adorned_paint palette .bold unmarked).append (adorned_self (by decide))

/-- The line of counters is adorned. -/
theorem adorned_metricsLine (palette : Palette) (metrics : Metrics) {elapsed : String}
    (unmarked : codeMark ∉ elapsed.toList) :
    Adorned (metricsLine palette metrics elapsed) (metricsLine ⟨false⟩ metrics elapsed) := by
  have bar : Adorned (palette.paint "│" .dim) ((⟨false⟩ : Palette).paint "│" .dim) :=
    adorned_paint palette .dim (by decide)
  have blank : Adorned " " " " := adorned_self (by decide)
  have word (written : String) (unmarked : codeMark ∉ written.toList) : Adorned written written :=
    adorned_self unmarked
  have number (value : Nat) (style : Style) :
      Adorned (palette.paint (toString value) style) ((⟨false⟩ : Palette).paint (toString value) style) :=
    adorned_paint palette style (codeMark_not_mem_toString value)
  -- Each counter stands behind a bar, and its name behind it.
  have column {shown plain : String} (before : Adorned shown plain) (value : Nat) (style : Style)
      (named : String) (unmarked : codeMark ∉ named.toList) :
      Adorned (shown ++ palette.paint "│" .dim ++ " " ++ palette.paint (toString value) style ++ named)
        (plain ++ (⟨false⟩ : Palette).paint "│" .dim ++ " " ++ (⟨false⟩ : Palette).paint (toString value) style ++
          named) :=
    (((before.append bar).append blank).append (number value style)).append (word named unmarked)
  have tokens := ((bar.append blank).append (number metrics.tokens .green)).append (word " tokens  " (by decide))
  have steps := column tokens metrics.steps .blue " steps  " (by decide)
  have delegations := column steps metrics.delegations .cyan " delegations (depth " (by decide)
  have depth := (delegations.append (word _ (codeMark_not_mem_toString metrics.maxDepth))).append (word ")  " (by decide))
  have fallbacks := column depth metrics.fallbacks (if 0 < metrics.fallbacks then .red else .gray)
    " fallbacks  " (by decide)
  exact (((fallbacks.append bar).append blank).append (word elapsed unmarked)).append (word "\n" (by decide))

/-! ### What is printed -/

/-- What an item prints. -/
def Item.shown (palette : Palette) : Item → String
  | token printed => tokenLine palette printed
  | header name => headerLine palette name
  | metrics counters elapsed => metricsLine palette counters elapsed.text
  | flush => ""

/-- What items print, one after another. -/
def output (palette : Palette) : List Item → String
  | [] => ""
  | item :: rest => item.shown palette ++ output palette rest

/-- A paper without a limit takes all that items print. -/
theorem printAll_eq (palette : Palette) (items : List Item) (before : String) :
    printAll palette items { written := before } = .ok () { written := before ++ output palette items } := by
  induction items generalizing before with
  | nil => simp [printAll, output, pure, EStateM.pure]
  | cons item rest onwards =>
    cases item <;>
      simp [printAll, output, Item.print, Item.shown, printer, Paper.write, bind, EStateM.bind, pure, EStateM.pure,
        onwards, String.append_assoc]

/-- The item holds no mark in the name of an input. -/
def Item.Unmarked : Item → Prop
  | header name => codeMark ∉ name.toList
  | _ => True

theorem Item.adorned_shown (palette : Palette) {item : Item} (unmarked : item.Unmarked) :
    Adorned (item.shown palette) (item.shown ⟨false⟩) := by
  cases item with
  | token printed => exact adorned_tokenLine palette printed
  | header name => exact adorned_headerLine palette unmarked
  | metrics counters elapsed => exact adorned_metricsLine palette counters (codeMark_not_mem_duration elapsed)
  | flush => exact adorned_self List.not_mem_nil

/-- The output of items is adorned. -/
theorem adorned_output (palette : Palette) {items : List Item} (unmarked : ∀ item ∈ items, item.Unmarked) :
    Adorned (output palette items) (output ⟨false⟩ items) := by
  induction items with
  | nil => exact adorned_self List.not_mem_nil
  | cons item rest onwards =>
    obtain ⟨first, others⟩ := List.forall_mem_cons.mp unmarked
    exact (item.adorned_shown palette first).append (onwards others)

/-- **Colours only add codes.** On papers without a limit all items are printed, with colours and without. Deleting the
codes from what is printed with colours gives just what is printed without, and that holds no mark of a code, even
where the texts of tokens do. Only the names of inputs are printed as they are, and must hold none. -/
theorem colors_add_codes_only (items : List Item)
    (unmarked : ∀ name, Item.header name ∈ items → codeMark ∉ name.toList) :
    ∃ colored plain : String,
      printAll ⟨true⟩ items {} = .ok () { written := colored } ∧
      printAll ⟨false⟩ items {} = .ok () { written := plain } ∧
      withoutCodes colored.toList = plain.toList ∧ codeMark ∉ plain.toList := by
  have each : ∀ item ∈ items, item.Unmarked := by
    intro item among
    cases item with
    | header name => exact unmarked name among
    | token | metrics | flush => trivial
  have adorned := adorned_output ⟨true⟩ each
  refine ⟨output ⟨true⟩ items, output ⟨false⟩ items, ?_, ?_, ?_, adorned.unmarked⟩
  · simpa using printAll_eq ⟨true⟩ items ""
  · simpa using printAll_eq ⟨false⟩ items ""
  · simpa [withoutCodes_nil] using adorned.without []

/-- The text of a token may itself be a code. -/
theorem colors_add_codes_only_of_code_in_text :
    let items : List Item :=
      [.header "A.java", .token ⟨.commentSingle, "// \x1b[31m"⟩, .metrics { tokens := 1, steps := 1 } ⟨0, 1500⟩, .flush]
    (∀ name, Item.header name ∈ items → codeMark ∉ name.toList) ∧
      ∃ colored plain : String,
        printAll ⟨true⟩ items {} = .ok () { written := colored } ∧
        printAll ⟨false⟩ items {} = .ok () { written := plain } ∧
        withoutCodes colored.toList = plain.toList ∧ codeMark ∉ plain.toList := by
  intro items
  have unmarked : ∀ name, Item.header name ∈ items → codeMark ∉ name.toList := by
    intro name among
    obtain rfl : name = "A.java" := by simpa [items] using among
    decide
  exact ⟨unmarked, colors_add_codes_only items unmarked⟩

end TableLexer.Report
