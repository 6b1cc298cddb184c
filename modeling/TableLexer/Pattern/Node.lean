/-
**Patterns as trees.**

A tree says what a pattern matches, with all its flags resolved, and in a simplified form. The forms
that may hold a pattern again are built by functions that keep it simplified:

* `sequence` drops empty parts and joins literals that meet;
* `alternatives` makes one set of single characters or of sets, and puts the parts with which all
  alternatives begin before them, which lets every alternative have a try after each way to match
  the common parts;
* `times` never repeats what takes no character more than once.
-/

import TableLexer.Pattern.Assertion
import TableLexer.Pattern.CharSet
import TableLexer.Text.Utf8Length

namespace TableLexer.Pattern

/-- A pattern. -/
inductive Node where
  /-- Matches the empty text. -/
  | empty
  /-- Takes the characters of a text. -/
  | literal (text : List Char)
  /-- Takes one character of the set. -/
  | one (set : CharSet)
  | look (assertion : Assertion)
  | seq (first second : Node)
  /-- The first alternative is preferred. -/
  | alt (first second : Node)
  /-- Takes the body at least so many times and, if there is such a bound, at most so many times; the
  greedy form prefers to go on. -/
  | repeated (least : Nat) (most : Option Nat) (greedy : Bool) (body : Node)
  /-- Remembers which part of the text the body matched. -/
  | group (index : Nat) (body : Node)
  deriving DecidableEq, Repr

namespace Node

/-! ### Measures of a pattern -/

/-- The number of forms in the tree. -/
def size : Node → Nat
  | empty | literal _ | one _ | look _ => 1
  | seq first second | alt first second => first.size + second.size + 1
  | repeated _ _ _ body | group _ body => body.size + 1

/-- The highest number of a group in the pattern, 0 when there is none. -/
def groupCount : Node → Nat
  | empty | literal _ | one _ | look _ => 0
  | seq first second | alt first second => max first.groupCount second.groupCount
  | repeated _ _ _ body => body.groupCount
  | group index body => max index body.groupCount

/-- The number of bytes of the character with the code point. -/
def codeLength (code : Nat) : Nat :=
  if code < 0x80 then 1 else if code < 0x800 then 2 else if code < 0x10000 then 3 else 4

/-- The number of bytes of the shortest match. It is not known, `none`, as soon as some part is a set
without members. -/
def minLength? : Node → Option Nat
  | empty | look _ => some 0
  | literal text => some (Text.byteLength text)
  | one set => set.ranges.head?.map fun range => codeLength range.1
  | seq first second => do return (← first.minLength?) + (← second.minLength?)
  | alt first second => do return min (← first.minLength?) (← second.minLength?)
  | repeated least _ _ body => body.minLength?.map (· * least)
  | group _ body => body.minLength?

/-- The number of bytes of the longest match, if there is a bound. It is not known as soon as some part
is a set without members. -/
def maxLength? : Node → Option Nat
  | empty | look _ => some 0
  | literal text => some (Text.byteLength text)
  | one set => set.ranges.getLast?.map fun range => codeLength range.2
  | seq first second => do return (← first.maxLength?) + (← second.maxLength?)
  | alt first second => do return max (← first.maxLength?) (← second.maxLength?)
  | repeated _ most _ body => do return (← body.maxLength?) * (← most)
  | group _ body => body.maxLength?

/-- The pattern can match without taking a character, assertions apart. -/
def nullable : Node → Bool
  | empty | look _ => true
  | literal text => text.isEmpty
  | one _ => false
  | seq first second => first.nullable && second.nullable
  | alt first second => first.nullable || second.nullable
  | repeated least _ _ body => least == 0 || body.nullable
  | group _ body => body.nullable

/-- Every match begins with the assertion, as the form of the pattern shows. -/
def startsWith (assertion : Assertion) : Node → Bool
  | empty | literal _ | one _ => false
  | look other => other == assertion
  | seq first second =>
    first.startsWith assertion || (first.maxLength? == some 0 && second.startsWith assertion)
  | alt first second => first.startsWith assertion && second.startsWith assertion
  | repeated least _ _ body => decide (0 < least) && body.startsWith assertion
  | group _ body => body.startsWith assertion

/-- Every match ends with the assertion, as the form of the pattern shows. -/
def endsWith (assertion : Assertion) : Node → Bool
  | empty | literal _ | one _ => false
  | look other => other == assertion
  | seq first second =>
    second.endsWith assertion || (second.maxLength? == some 0 && first.endsWith assertion)
  | alt first second => first.endsWith assertion && second.endsWith assertion
  | repeated least _ _ body => decide (0 < least) && body.endsWith assertion
  | group _ body => body.endsWith assertion

/-! ### Sequences -/

/-- The parts of a sequence. -/
def parts : Node → List Node
  | empty => []
  | seq first second => first.parts ++ second.parts
  | node => [node]

/-- Puts a part before a sequence. -/
def consPart : Node → Node → Node
  | node, empty => node
  | literal text, literal more => literal (text ++ more)
  | literal text, seq (literal more) rest => seq (literal (text ++ more)) rest
  | node, rest => seq node rest

/-- The patterns one after another. -/
def sequence (nodes : List Node) : Node := (nodes.flatMap parts).foldr consPart empty

/-! ### Alternatives -/

/-- The alternatives of a pattern. -/
def branches : Node → List Node
  | alt first second => first.branches ++ second.branches
  | node => [node]

/-- The pattern that takes one character of the set. -/
def ofSet (set : CharSet) : Node :=
  match set.ranges with
  | [(first, last)] => if first = last then literal [Char.ofNat first] else one set
  | _ => one set

/-- The character that the pattern takes, if it takes a single one. -/
def char? : Node → Option Char
  | literal [c] => some c
  | _ => none

/-- The set of which the pattern takes a character. -/
def set? : Node → Option CharSet
  | one set => some set
  | _ => none

/-- The parts with which two lists begin. -/
def commonParts : List Node → List Node → List Node
  | first :: firsts, second :: seconds =>
    if first = second then first :: commonParts firsts seconds else []
  | _, _ => []

/-- The parts with which all the sequences begin; a pattern that is no sequence shares nothing. -/
def commonFront : List Node → List Node
  | [] => []
  | first :: rest =>
    if (first :: rest).all fun node => match node with | seq _ _ => true | _ => false then
      rest.foldl (fun front node => commonParts front node.parts) first.parts
    else []

/-- The patterns as alternatives, with nothing simplified. -/
def alternation : List Node → Node
  | [] => one {}
  | [node] => node
  | node :: next :: rest => alt node (alternation (next :: rest))

/-- The patterns as alternatives, the preferred one first. Each turn that takes out a common front
leaves less of every alternative, so `fuel` turns are enough when no alternative is larger. -/
def alternativesWithin : Nat → List Node → Node
  | 0, nodes => alternation nodes
  | fuel + 1, nodes =>
    let nodes := nodes.flatMap branches
    match nodes.mapM char?, nodes.mapM set? with
    | some chars, _ => ofSet (.ofList chars)
    | _, some sets => ofSet (.unions sets)
    | _, _ =>
      match commonFront nodes with
      | [] => alternation nodes
      | front =>
        let rests := nodes.map fun node => sequence (node.parts.drop front.length)
        sequence (front ++ [alternativesWithin fuel rests])

/-- The patterns as alternatives, the preferred one first. -/
def alternatives : List Node → Node
  | [node] => node
  | nodes => alternativesWithin (nodes.foldl (fun total node => total + node.size) 1) nodes

/-! ### Repetition -/

/-- The pattern from `least` times on, up to `most` times if there is such a bound. -/
def times (body : Node) (least : Nat) (most : Option Nat) (greedy : Bool) : Node :=
  let atMostOnce := body.maxLength? == some 0
  let least := if atMostOnce then min least 1 else least
  let most := if atMostOnce then some (min (most.getD 1) 1) else most
  match least, most with
  | 0, some 0 => empty
  | 1, some 1 => body
  | least, most => repeated least most greedy body

/-! ### Single characters -/

/-- The pattern that takes the character, or any of its case variants if case does not count. -/
def ofChar (ignoreCase : Bool) (c : Char) : Node :=
  if ignoreCase then ofSet (.ofList (Text.caseVariants c)) else literal [c]

end Node

end TableLexer.Pattern
