/-
**Java.**

Three states:

* `root` holds everything, in order of priority;
* `class`, entered after `class` and `interface`, takes white space and one name and leaves;
* `import`, entered after `import`, takes white space and one dotted path, which may end in `*`, and
  leaves.

The first rule of `root` recognises the head of a method: modifiers and a type, a name, `(`. It hands
the words before the name to a nested run instead of repeating the rules for them.
-/

import TableLexer.Language

namespace TableLexer.Java

/-- The facts about the language. -/
def descriptor : Descriptor where
  name := "Java"
  aliases := ["java"]
  filenames := ["*.java"]
  mimetypes := ["text/x-java"]
  description := "The Java programming language (java.com)"

/-- The state that names a class. -/
def classState : String := "class"

/-- The state that names what is imported. -/
def importState : String := "import"

/-- The pattern of identifiers. -/
def identifier : String := "[a-zA-Z_][a-zA-Z0-9_]*"

/-- Words that steer the flow of control, and the like. -/
def keywords : List String :=
  ["assert", "break", "case", "catch", "continue", "default", "do", "else", "finally", "for", "if",
    "goto", "instanceof", "new", "return", "switch", "this", "throw", "try", "while"]

/-- Words of declarations. -/
def declarations : List String :=
  ["abstract", "const", "enum", "extends", "final", "implements", "native", "private", "protected",
    "public", "static", "strictfp", "super", "synchronized", "throws", "transient", "volatile"]

/-- Names of the primitive types, and `void`. -/
def types : List String :=
  ["boolean", "byte", "char", "double", "float", "int", "long", "short", "void"]

/-- The head of a method: the words before the name, the name, white space, the parenthesis. -/
def signature : RuleSource where
  pattern :=
    "^(\\s*(?:[A-Za-z_][0-9A-Za-z_.\\[\\]]*\\s+)+?)([A-Za-z_][0-9A-Za-z_]*)(\\s*)(\\()"
  behavior := .composite
    [.delegate 1 .current, .emit 2 .nameFunction, .emit 3 .text, .emit 4 .punctuation]

/-- White space. -/
def whiteSpace : RuleSource := ⟨"\\s+", .emit .text⟩

/-- The rules of the state `root`. -/
def rootRules : List RuleSource :=
  [signature,
    whiteSpace,
    ⟨"//.*?$", .emit .commentSingle⟩,
    ⟨"(?s:/\\*.*?\\*/)", .emit .commentMultiline⟩,
    ⟨"@" ++ identifier, .emit .nameDecorator⟩,
    ⟨wholeWords keywords, .emit .keyword⟩,
    ⟨wholeWords declarations, .emit .keywordDeclaration⟩,
    ⟨wholeWords types, .emit .keywordType⟩,
    ⟨"package\\b", .emit .keywordNamespace⟩,
    ⟨"(?:true|false|null)\\b", .emit .keywordConstant⟩,
    ⟨"(?:class|interface)\\b", .emitAndPush .keywordDeclaration classState⟩,
    ⟨"import\\b", .emitAndPush .keywordNamespace importState⟩,
    ⟨"\"(?:\\\\.|[^\"\\\\])*\"", .emit .literalString⟩,
    ⟨"'(?:\\\\u[0-9a-fA-F]\x7b4\x7d|\\\\.|[^\\\\'])'", .emit .literalStringChar⟩,
    ⟨"(\\.)(" ++ identifier ++ ")", .composite [.emit 1 .operator, .emit 2 .nameAttribute]⟩,
    ⟨identifier ++ ":", .emit .nameLabel⟩,
    ⟨"\\$?" ++ identifier, .emit .name⟩,
    ⟨"[()\x7b\x7d\\[\\];,]", .emit .punctuation⟩,
    ⟨"[~^*!%&<>|+=:./?-]", .emit .operator⟩,
    ⟨"[0-9][0-9]*\\.[0-9]+(?:[eE][0-9]+)?[fd]?", .emit .literalNumber⟩,
    ⟨"0x[0-9a-fA-F]+", .emit .literalNumberHex⟩,
    ⟨"[0-9]+L?", .emit .literalNumberInteger⟩]

/-- The rules of the state that names a class. -/
def classRules : List RuleSource := [whiteSpace, ⟨identifier, .emitAndPop .nameClass⟩]

/-- The rules of the state that names what is imported. -/
def importRules : List RuleSource :=
  [whiteSpace, ⟨"[a-zA-Z0-9_.]+\\*?", .emitAndPop .nameNamespace⟩]

/-- The lexical grammar. -/
def source : TableSource where
  states := [(rootName, rootRules), (classState, classRules), (importState, importRules)]

/-- The language. -/
def language : Language where
  descriptor := descriptor
  source := source
  builtin := true

/-- The table of the language. -/
def table : Except BuildError Table := language.build

end TableLexer.Java
