/-
**Kinds of tokens.**

The kinds form a forest of at most three levels: a kind may specialise a more general one, as
`Literal.Number.Hex` specialises `Literal.Number`.

* `Kind.lineage`: a kind with everything that it specialises.
* `Kind.fullName`: the dotted name, the most general part first.
* `Kind.isA`: a kind is another one or specialises it.
-/

namespace TableLexer

/-- What a token is. -/
inductive Kind where
  | text
  /-- Input that no rule covers. -/
  | error
  | keyword
  | keywordConstant
  | keywordDeclaration
  | keywordNamespace
  | keywordType
  | name
  | nameAttribute
  | nameClass
  | nameDecorator
  | nameFunction
  | nameLabel
  | nameNamespace
  | literal
  | literalString
  | literalStringChar
  | literalNumber
  | literalNumberHex
  | literalNumberInteger
  | comment
  | commentSingle
  | commentMultiline
  | operator
  | punctuation
  deriving DecidableEq, Repr

namespace Kind

/-- Every kind. -/
def all : List Kind :=
  [text, error, keyword, keywordConstant, keywordDeclaration, keywordNamespace, keywordType, name,
    nameAttribute, nameClass, nameDecorator, nameFunction, nameLabel, nameNamespace, literal,
    literalString, literalStringChar, literalNumber, literalNumberHex, literalNumberInteger, comment,
    commentSingle, commentMultiline, operator, punctuation]

/-- The kind that this one specialises directly. -/
def parent? : Kind → Option Kind
  | text | error | keyword | name | literal | comment | operator | punctuation => none
  | keywordConstant | keywordDeclaration | keywordNamespace | keywordType => some keyword
  | nameAttribute | nameClass | nameDecorator | nameFunction | nameLabel | nameNamespace => some name
  | literalString | literalNumber => some literal
  | literalStringChar => some literalString
  | literalNumberHex | literalNumberInteger => some literalNumber
  | commentSingle | commentMultiline => some comment

/-- The kind and the kinds above it, the kind itself first, up to `levels` of them. -/
def lineageUpTo : Nat → Kind → List Kind
  | 0, _ => []
  | levels + 1, kind =>
    match kind.parent? with
    | none => [kind]
    | some parent => kind :: lineageUpTo levels parent

/-- The kind and everything that it specialises. No lineage is longer than three. -/
def lineage (kind : Kind) : List Kind := lineageUpTo 3 kind

/-- The last part of the dotted name. -/
def leaf : Kind → String
  | text => "Text"
  | error => "Error"
  | keyword => "Keyword"
  | keywordConstant => "Constant"
  | keywordDeclaration => "Declaration"
  | keywordNamespace | nameNamespace => "Namespace"
  | keywordType => "Type"
  | name => "Name"
  | nameAttribute => "Attribute"
  | nameClass => "Class"
  | nameDecorator => "Decorator"
  | nameFunction => "Function"
  | nameLabel => "Label"
  | literal => "Literal"
  | literalString => "String"
  | literalStringChar => "Char"
  | literalNumber => "Number"
  | literalNumberHex => "Hex"
  | literalNumberInteger => "Integer"
  | comment => "Comment"
  | commentSingle => "Single"
  | commentMultiline => "Multiline"
  | operator => "Operator"
  | punctuation => "Punctuation"

/-- The dotted name, such as `Literal.Number.Hex`. -/
def fullName (kind : Kind) : String := ".".intercalate (kind.lineage.reverse.map leaf)

/-- The kind is `ancestor` or specialises it. -/
def isA (kind ancestor : Kind) : Bool := kind.lineage.contains ancestor

/-- A lineage goes on from each kind to the one that it specialises. -/
theorem lineage_eq (kind : Kind) :
    kind.lineage = kind :: (kind.parent?.map lineage).getD [] := by
  cases kind <;> rfl

end Kind

/-- A classified piece of text. -/
structure Token where
  kind : Kind
  text : String
  deriving DecidableEq, Repr

end TableLexer
