/-
**The patterns of the rules.**

The rules that are those of no vocabulary have their patterns here as trees, and for each of them the characters
with which a match can begin. So most rules are known to pass over a text by its first character, and what a rule
matches is a question about a tree.

* `patterns`, `compile?_patterns`: the patterns as trees.
* `starts`, `passesOver_of_starts`: rules that pass a text over because of its first character.
* `rootRules_eq`, `forall_rootRules_iff`: the order of the rules of the root state.
-/

import TableLexer.Proofs.Java.Lexemes

namespace TableLexer.Java

open Pattern (CharSet CharTest Node Regex)

/-! ### Characters -/

/-- A digit of a hexadecimal number. -/
def isHexDigit (c : Char) : Bool := "0123456789abcdefABCDEF".toList.contains c

/-- A character of punctuation. -/
def isPunctuation (c : Char) : Bool := "()\x7b\x7d[];,".toList.contains c

/-- An operator. -/
def isOperator (c : Char) : Bool := "~^*!%&<>|+=:./?-".toList.contains c

/-- All characters but a newline. -/
def noNewline : CharSet := ⟨[(0, 9), (11, 1114111)]⟩

/-- All characters. -/
def anyChar : CharSet := ⟨[(0, 1114111)]⟩

/-- The characters that stand for themselves in a string. -/
def inString : CharSet := ⟨[(0, 33), (35, 91), (93, 1114111)]⟩

/-- The characters that stand for themselves between the quotes of a character. -/
def inCharacter : CharSet := ⟨[(0, 38), (40, 91), (93, 1114111)]⟩

/-- The decimal digits. -/
def digits : CharSet := ⟨[(48, 57)]⟩

/-- The digits of hexadecimal numbers. -/
def hexDigits : CharSet := ⟨[(48, 57), (65, 70), (97, 102)]⟩

/-- The characters that are punctuation. -/
def punctuationMarks : CharSet := ⟨[(40, 41), (44, 44), (59, 59), (91, 91), (93, 93), (123, 123), (125, 125)]⟩

/-- The characters that are operators. -/
def operators : CharSet :=
  ⟨[(33, 33), (37, 38), (42, 43), (45, 47), (58, 58), (60, 63), (94, 94), (124, 124), (126, 126)]⟩

/-- The characters of the path of an import. -/
def importParts : CharSet := ⟨[(46, 46), (48, 57), (65, 90), (95, 95), (97, 122)]⟩

section Characters

variable {c : Char}

theorem toNat_le_lastCode (c : Char) : c.toNat ≤ CharSet.lastCode := by
  have valid : c.toNat < 0xD800 ∨ 0xDFFF < c.toNat ∧ c.toNat < 0x110000 := c.valid
  unfold CharSet.lastCode
  omega

theorem contains_noNewline : noNewline.contains c = true ↔ c ≠ '\n' := by
  have last := toNat_le_lastCode c
  simp [noNewline, CharSet.contains, CharSet.lastCode, Text.inRanges, ← Char.toNat_inj] at last ⊢
  omega

theorem contains_anyChar : anyChar.contains c = true := by
  have last := toNat_le_lastCode c
  simp [anyChar, CharSet.contains, CharSet.lastCode, Text.inRanges] at last ⊢
  omega

theorem contains_inString : inString.contains c = true ↔ c ≠ '"' ∧ c ≠ '\\' := by
  have last := toNat_le_lastCode c
  simp [inString, CharSet.contains, CharSet.lastCode, Text.inRanges, ← Char.toNat_inj] at last ⊢
  omega

theorem contains_inCharacter : inCharacter.contains c = true ↔ c ≠ '\'' ∧ c ≠ '\\' := by
  have last := toNat_le_lastCode c
  simp [inCharacter, CharSet.contains, CharSet.lastCode, Text.inRanges, ← Char.toNat_inj] at last ⊢
  omega

theorem contains_hexDigits : hexDigits.contains c = isHexDigit c := by
  rw [Bool.eq_iff_iff]
  simp [hexDigits, isHexDigit, CharSet.contains, Text.inRanges, ← Char.toNat_inj]
  omega

theorem contains_punctuationMarks : punctuationMarks.contains c = isPunctuation c := by
  rw [Bool.eq_iff_iff]
  simp [isPunctuation, punctuationMarks, CharSet.contains, Text.inRanges, ← Char.toNat_inj]
  omega

theorem contains_operators : operators.contains c = isOperator c := by
  rw [Bool.eq_iff_iff]
  simp [isOperator, operators, CharSet.contains, Text.inRanges, ← Char.toNat_inj]
  omega

theorem inWord_iff_begins : inWord c = true ↔ beginsWord c = true ∨ digits.contains c = true := by
  rw [inWord_iff, beginsWord_iff]
  simp [digits, CharSet.contains, Text.inRanges]
  omega

theorem contains_importParts : importParts.contains c = (inWord c || c == '.') := by
  rw [Bool.eq_iff_iff, Bool.or_eq_true, inWord_iff]
  simp [importParts, CharSet.contains, Text.inRanges, ← Char.toNat_inj]
  omega

end Characters

/-! ### Rules -/

/-- The rule for comments up to the end of the line. -/
def lineComment : RuleSource := ⟨"//.*?$", .emit .commentSingle⟩

/-- The rule for comments between marks. -/
def blockComment : RuleSource := ⟨"(?s:/\\*.*?\\*/)", .emit .commentMultiline⟩

/-- The rule for decorators. -/
def decorator : RuleSource := ⟨"@" ++ identifier, .emit .nameDecorator⟩

/-- The rule for strings. -/
def stringLiteral : RuleSource := ⟨"\"(?:\\\\.|[^\"\\\\])*\"", .emit .literalString⟩

/-- The rule for characters. -/
def characterLiteral : RuleSource :=
  ⟨"'(?:\\\\u[0-9a-fA-F]\x7b4\x7d|\\\\.|[^\\\\'])'", .emit .literalStringChar⟩

/-- The rule for an operator and an attribute. -/
def access : RuleSource := ⟨"(\\.)(" ++ identifier ++ ")", .composite [.emit 1 .operator, .emit 2 .nameAttribute]⟩

/-- The rule for labels. -/
def label : RuleSource := ⟨identifier ++ ":", .emit .nameLabel⟩

/-- The rule for names. -/
def name : RuleSource := ⟨"\\$?" ++ identifier, .emit .name⟩

/-- The rule for punctuation. -/
def punctuation : RuleSource := ⟨"[()\x7b\x7d\\[\\];,]", .emit .punctuation⟩

/-- The rule for operators. -/
def operator : RuleSource := ⟨"[~^*!%&<>|+=:./?-]", .emit .operator⟩

/-- The rule for numbers with a decimal point. -/
def fraction : RuleSource := ⟨"[0-9][0-9]*\\.[0-9]+(?:[eE][0-9]+)?[fd]?", .emit .literalNumber⟩

/-- The rule for hexadecimal numbers. -/
def hexadecimal : RuleSource := ⟨"0x[0-9a-fA-F]+", .emit .literalNumberHex⟩

/-- The rule for integers. -/
def integer : RuleSource := ⟨"[0-9]+L?", .emit .literalNumberInteger⟩

/-- The rule for the name of a class. -/
def className : RuleSource := ⟨identifier, .emitAndPop .nameClass⟩

/-- The rule for the path of an import. -/
def importPath : RuleSource := ⟨"[a-zA-Z0-9_.]+\\*?", .emitAndPop .nameNamespace⟩

/-! ### Trees -/

/-- The pattern of white space. -/
def blankNode : Node := .repeated 1 none true (.one blanks)

/-- The pattern of a comment up to the end of the line. -/
def lineNode : Node :=
  .seq (.literal ['/', '/']) (.seq (.repeated 0 none false (.one noNewline)) (.look .lineEnd))

/-- The pattern of a comment between marks. -/
def blockNode : Node :=
  .seq (.literal ['/', '*']) (.seq (.repeated 0 none false (.one anyChar)) (.literal ['*', '/']))

/-- The pattern of a decorator. -/
def decoratorNode : Node := .seq (.literal ['@']) nameNode

/-- The pattern of a string. -/
def stringNode : Node :=
  .seq (.literal ['"'])
    (.seq (.repeated 0 none true (.alt (.seq (.literal ['\\']) (.one noNewline)) (.one inString)))
      (.literal ['"']))

/-- The pattern of a character. -/
def characterNode : Node :=
  .seq (.literal ['\''])
    (.seq (.alt (.seq (.literal ['\\', 'u']) (.repeated 4 (some 4) true (.one hexDigits)))
      (.alt (.seq (.literal ['\\']) (.one noNewline)) (.one inCharacter)))
      (.literal ['\'']))

/-- The pattern of a label. -/
def labelNode : Node :=
  .seq (.one wordStarts) (.seq (.repeated 0 none true (.one wordParts)) (.literal [':']))

/-- The pattern of a name. -/
def dollarNode : Node := .seq (.repeated 0 (some 1) true (.literal ['$'])) nameNode

/-- The pattern of an integer. -/
def integerNode : Node :=
  .seq (.repeated 1 none true (.one digits)) (.repeated 0 (some 1) true (.literal ['L']))

/-- The pattern of the path of an import. -/
def importNode : Node :=
  .seq (.repeated 1 none true (.one importParts)) (.repeated 0 (some 1) true (.literal ['*']))

/-- Rules, and their patterns. -/
def patterns : List (RuleSource × Node) :=
  [(whiteSpace, blankNode), (lineComment, lineNode), (blockComment, blockNode), (decorator, decoratorNode),
    (stringLiteral, stringNode), (characterLiteral, characterNode), (label, labelNode), (name, dollarNode),
    (punctuation, .one punctuationMarks), (operator, .one operators), (integer, integerNode),
    (className, nameNode), (importPath, importNode)]

theorem compile?_patterns : ∀ entry ∈ patterns,
    Regex.compile? source.flags entry.1.pattern = some (.ofNode entry.2.atStart) := by
  decide +kernel

/-- A rule of the list is compiled to its pattern, which is tried at the start of the text only. -/
theorem compile?_of_getElem? {index : Nat} {described : RuleSource} {node : Node}
    (listed : patterns[index]? = some (described, node)) :
    Regex.compile? source.flags described.pattern = some (.ofNode node.atStart) := by
  have compiled := compile?_patterns (described, node) (List.mem_of_getElem? listed)
  exact compiled

theorem compile?_whiteSpace :
    Regex.compile? source.flags whiteSpace.pattern = some (.ofNode blankNode.atStart) :=
  compile?_of_getElem? (show patterns[0]? = some (whiteSpace, blankNode) from rfl)

theorem compile?_lineComment :
    Regex.compile? source.flags lineComment.pattern = some (.ofNode lineNode.atStart) :=
  compile?_of_getElem? (show patterns[1]? = some (lineComment, lineNode) from rfl)

theorem compile?_blockComment :
    Regex.compile? source.flags blockComment.pattern = some (.ofNode blockNode.atStart) :=
  compile?_of_getElem? (show patterns[2]? = some (blockComment, blockNode) from rfl)

theorem compile?_decorator :
    Regex.compile? source.flags decorator.pattern = some (.ofNode decoratorNode.atStart) :=
  compile?_of_getElem? (show patterns[3]? = some (decorator, decoratorNode) from rfl)

theorem compile?_stringLiteral :
    Regex.compile? source.flags stringLiteral.pattern = some (.ofNode stringNode.atStart) :=
  compile?_of_getElem? (show patterns[4]? = some (stringLiteral, stringNode) from rfl)

theorem compile?_characterLiteral :
    Regex.compile? source.flags characterLiteral.pattern = some (.ofNode characterNode.atStart) :=
  compile?_of_getElem? (show patterns[5]? = some (characterLiteral, characterNode) from rfl)

theorem compile?_label :
    Regex.compile? source.flags label.pattern = some (.ofNode labelNode.atStart) :=
  compile?_of_getElem? (show patterns[6]? = some (label, labelNode) from rfl)

theorem compile?_name :
    Regex.compile? source.flags name.pattern = some (.ofNode dollarNode.atStart) :=
  compile?_of_getElem? (show patterns[7]? = some (name, dollarNode) from rfl)

theorem compile?_punctuation :
    Regex.compile? source.flags punctuation.pattern = some (.ofNode (Node.one punctuationMarks).atStart) :=
  compile?_of_getElem? (show patterns[8]? = some (punctuation, .one punctuationMarks) from rfl)

theorem compile?_operator :
    Regex.compile? source.flags operator.pattern = some (.ofNode (Node.one operators).atStart) :=
  compile?_of_getElem? (show patterns[9]? = some (operator, .one operators) from rfl)

theorem compile?_integer :
    Regex.compile? source.flags integer.pattern = some (.ofNode integerNode.atStart) :=
  compile?_of_getElem? (show patterns[10]? = some (integer, integerNode) from rfl)

theorem compile?_className :
    Regex.compile? source.flags className.pattern = some (.ofNode nameNode.atStart) :=
  compile?_of_getElem? (show patterns[11]? = some (className, nameNode) from rfl)

theorem compile?_importPath :
    Regex.compile? source.flags importPath.pattern = some (.ofNode importNode.atStart) :=
  compile?_of_getElem? (show patterns[12]? = some (importPath, importNode) from rfl)

/-! ### First characters -/

/-- One character. -/
def only (c : Char) : CharTest :=
  .ofSpans [(c.toNat, c.toNat)] (· == c) <| by
    intro span listed code within
    rw [List.mem_singleton.mp listed, List.mem_range'_1] at within
    have same : code = c.toNat := by omega
    rw [same, Char.ofNat_toNat, beq_self_eq_true]

/-- The characters that begin a word. -/
def letters : CharTest := .ofSpans wordStarts.ranges beginsWord (by decide)

/-- The characters that begin a name. -/
def nameStarts : CharTest :=
  .ofSpans ((36, 36) :: wordStarts.ranges) (fun c => beginsWord c || c == '$') (by decide)

/-- The characters that begin the head of a method. -/
def headStarts : CharTest :=
  .ofSpans (wordStarts.ranges ++ blanks.ranges) (fun c => Text.isBlank c || beginsWord c) (by decide)

/-- The characters that are punctuation. -/
def punctuationStarts : CharTest := .ofSpans punctuationMarks.ranges isPunctuation (by decide)

/-- The characters that are operators. -/
def operatorStarts : CharTest := .ofSpans operators.ranges isOperator (by decide)

/-- The characters that begin a number. -/
def numberStarts : CharTest := .ofSpans digits.ranges digits.contains (by decide)

/-- The characters that begin the path of an import. -/
def pathStarts : CharTest := .ofSpans importParts.ranges (fun c => inWord c || c == '.') (by decide)

/-- The rules of the root state that are those of no vocabulary, with the characters with which what they match
begins. -/
def rootStarts : List (RuleSource × CharTest) :=
  [(signature, headStarts), (whiteSpace, .blank), (lineComment, only '/'), (blockComment, only '/'),
    (decorator, only '@'), (stringLiteral, only '"'), (characterLiteral, only '\''), (access, only '.'),
    (label, letters), (name, nameStarts), (punctuation, punctuationStarts), (operator, operatorStarts),
    (fraction, numberStarts), (hexadecimal, numberStarts), (integer, numberStarts)]

/-- The same for the state that names a class. -/
def classStarts : List (RuleSource × CharTest) := [(whiteSpace, .blank), (className, letters)]

/-- The same for the state that names what is imported. -/
def importStarts : List (RuleSource × CharTest) := [(whiteSpace, .blank), (importPath, pathStarts)]

/-- Rules of all states, with the characters with which what they match begins. -/
def starts : List (RuleSource × CharTest) := rootStarts ++ classStarts ++ importStarts

theorem rootStarts_subset : rootStarts ⊆ starts := fun _ listed =>
  List.mem_append_left _ (List.mem_append_left _ listed)

theorem classStarts_subset : classStarts ⊆ starts := fun _ listed =>
  List.mem_append_left _ (List.mem_append_right _ listed)

theorem importStarts_subset : importStarts ⊆ starts := fun _ => List.mem_append_right _

theorem opensWith_starts : ∀ entry ∈ starts, opensWith entry.2 entry.1 = true := by
  decide +kernel

/-- Rules pass over a text that begins with another character than what they match. -/
theorem passesOver_of_starts {entries : List (RuleSource × CharTest)} {c : Char} (known : entries ⊆ starts)
    (others : ∀ entry ∈ entries, entry.2.passes c = false) (rest : List Char) :
    ∀ described ∈ entries.map Prod.fst, described.PassesOver source.flags (c :: rest) := by
  intro described member
  obtain ⟨entry, listed, rfl⟩ := List.mem_map.mp member
  exact passesOver_of_opensWith (opensWith_starts entry (known listed)) (others entry listed)

/-- Rules of the root state pass over a text that begins with another character than what they match. -/
theorem passesOver_of_rootStarts {entries : List (RuleSource × CharTest)} {c : Char} (known : entries ⊆ rootStarts)
    (others : ∀ entry ∈ entries, entry.2.passes c = false) (rest : List Char) :
    ∀ described ∈ entries.map Prod.fst, described.PassesOver source.flags (c :: rest) :=
  passesOver_of_starts (List.Subset.trans known rootStarts_subset) others rest

/-! ### The order of the rules -/

/-- The rules between the one for heads and the vocabularies. -/
def openers : List RuleSource := [whiteSpace, lineComment, blockComment, decorator]

/-- The rules between the vocabularies and the one for labels. -/
def literals : List RuleSource := [stringLiteral, characterLiteral, access]

/-- The rules behind the one for names. -/
def closers : List RuleSource := [punctuation, operator, fraction, hexadecimal, integer]

/-- In the root state, the rules are described in this order. -/
theorem rootRules_eq : rootRules =
    signature :: (openers ++ (vocabularyRules ++ (literals ++ (label :: name :: closers)))) :=
  rfl

/-- The rules of the root state are those of the vocabularies and those whose first characters are known. -/
theorem forall_rootRules_iff {p : RuleSource → Prop} : (∀ described ∈ rootRules, p described) ↔
    (∀ described ∈ vocabularyRules, p described) ∧ ∀ described ∈ rootStarts.map Prod.fst, p described := by
  have order : rootStarts.map Prod.fst =
      signature :: (openers ++ (literals ++ (label :: name :: closers))) := rfl
  rw [rootRules_eq, order]
  simp only [List.forall_mem_cons, List.forall_mem_append]
  tauto

end TableLexer.Java
