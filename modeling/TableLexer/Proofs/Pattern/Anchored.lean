/-
**Where wrapped patterns match.**

A pattern is compiled behind an assertion and between brackets, so that it matches at the start of the
text. The brackets are only text: a pattern may close them, and a bar behind that begins an alternative
without the assertion.

* `escapes`: a bar of the wrapped pattern lies outside all groups.
* `startsWith_of_parse?`: a pattern that does not escape begins with the assertion.
* `Regex.atCursor_iff`: when the match in a text lies at its start.
-/

import TableLexer.Proofs.Pattern.Complete

namespace TableLexer.Pattern

/-! ### Patterns that begin at the start of the text -/

namespace Node

variable {node : Node} {place ended : Place}

theorem Leads.offset_le (leads : node.Leads place ended) : place.offset ≤ ended.offset := by
  obtain ⟨taken, takes⟩ := (leads_plan.mpr leads).takes
  rw [takes.offset]
  exact Nat.le_add_right _ _

/-- A pattern that begins with the assertion leads on from the start of a text only. -/
theorem offset_of_startsWith (starts : node.startsWith .textStart = true)
    (leads : node.Leads place ended) : place.offset = 0 := by
  induction node generalizing place ended with
  | empty | literal | one => cases starts
  | look assertion =>
    have same : assertion = .textStart := eq_of_beq starts
    subst same
    exact eq_of_beq leads.1
  | seq first second first_ih second_ih =>
    obtain ⟨middle, front, back⟩ := leads
    rcases (Bool.or_eq_true _ _).mp starts with starts | starts
    · exact first_ih starts front
    · have middle_start := second_ih ((Bool.and_eq_true _ _).mp starts).2 back
      exact Nat.le_zero.mp (middle_start ▸ front.offset_le)
  | alt first second first_ih second_ih =>
    obtain ⟨first_starts, second_starts⟩ := (Bool.and_eq_true _ _).mp starts
    exact leads.elim (first_ih first_starts) (second_ih second_starts)
  | repeated least most greedy body ih =>
    obtain ⟨some_rounds, starts⟩ := (Bool.and_eq_true _ _).mp starts
    obtain ⟨more, _, rounds⟩ := leads
    cases least with
    | zero => cases of_decide_eq_true some_rounds
    | succ least =>
      rw [Nat.add_right_comm] at rounds
      obtain ⟨middle, round, _⟩ := rounds
      exact ih starts round
  | group index body ih =>
    obtain ⟨inner, leads, _⟩ := leads
    exact ih starts leads

/-- A sequence that begins with the assertion is written as one. -/
theorem startsWith_sequence (assertion : Assertion) (nodes : List Node) :
    (sequence (look assertion :: nodes)).startsWith assertion = true := by
  show (consPart (look assertion)
    ((nodes.flatMap parts).foldr consPart empty)).startsWith assertion = true
  generalize (nodes.flatMap parts).foldr consPart empty = rest
  cases rest <;> simp [consPart, startsWith]

end Node

/-! ### Bars outside of groups -/

/-- In how many groups lies what stands behind the part, if the part lies in so many. -/
def Lexeme.depthBehind (depth : Nat) : Lexeme → Nat
  | openGroup _ | openPlain _ => depth + 1
  | close => depth - 1
  | _ => depth

/-- Of parts the first of which lies in so many groups, some bar lies outside all groups. -/
def Lexeme.barOutside : Nat → List Lexeme → Bool
  | _, [] => false
  | depth, lexeme :: rest =>
    (lexeme == .bar && depth == 0) || barOutside (lexeme.depthBehind depth) rest

/-- A bar of the pattern lies outside the brackets into which it is put, and outside its own. -/
def escapes (source : String) : Bool :=
  (Lexeme.readAll? (anchoredText source).toList).any (Lexeme.barOutside 0)

example : escapes "a|b" = false ∧ escapes "a)|(?:b" = true := by decide +kernel

namespace Lexeme

theorem readMany?_cons {fuel : Nat} {text rest : List Char} {lexeme : Lexeme}
    {lexemes : List Lexeme} (one : read? text = some (lexeme, rest))
    (read : readMany? (fuel + 1) text = some lexemes) :
    ∃ others, lexemes = lexeme :: others ∧ readMany? fuel rest = some others := by
  cases text with
  | nil => cases one
  | cons c text =>
    simp only [readMany?, one, Option.bind_eq_bind, Option.bind_some, Option.bind_eq_some_iff,
      Option.pure_def, Option.some.injEq] at read
    obtain ⟨others, read, same⟩ := read
    exact ⟨others, same.symm, read⟩

/-- A wrapped pattern begins with the assertion and an open bracket. -/
theorem readAll?_anchoredText {source : String} {lexemes : List Lexeme}
    (read : readAll? (anchoredText source).toList = some lexemes) :
    ∃ rest, lexemes = .look .textStart :: .openPlain {} :: rest := by
  generalize wrapped : source.toList ++ [')'] = text
  have whole : (anchoredText source).toList = '\\' :: 'A' :: '(' :: '?' :: ':' :: text := by
    simp [anchoredText, String.toList_append, ← wrapped]
  rw [readAll?, whole] at read
  have assertion : read? ('\\' :: 'A' :: '(' :: '?' :: ':' :: text) =
      some (.look .textStart, '(' :: '?' :: ':' :: text) := rfl
  have bracket : read? ('(' :: '?' :: ':' :: text) = some (.openPlain {}, text) := rfl
  obtain ⟨others, first, behind⟩ := readMany?_cons assertion read
  obtain ⟨rest, second, _⟩ := readMany?_cons bracket behind
  exact ⟨rest, by rw [first, second]⟩

end Lexeme

/-! ### What stands behind the assertion -/

/-- The group holds one alternative so far, which begins with the part. -/
def OpenGroup.BeginsWith (part : Part) (group : OpenGroup) : Prop :=
  group.branches = [] ∧ ∃ more, group.items = more ++ [part]

namespace Assembly

/-- The whole pattern begins with the part, to which no alternative has begun, and something stands
behind it: an item, or the groups that are open. -/
def Behind (part : Part) (assembly : Assembly) : Prop :=
  (assembly.outer = [] ∧ assembly.current.branches = [] ∧
    ∃ item more, assembly.current.items = item :: (more ++ [part])) ∨
  ∃ inner whole, assembly.outer = inner ++ [whole] ∧ whole.BeginsWith part

variable {part item : Part} {assembly ended : Assembly}

theorem Behind.add (behind : assembly.Behind part) (item : Part) :
    (assembly.add item).Behind part := by
  rcases behind with ⟨outside, alone, latest, more, items⟩ | inside
  · refine .inl ⟨outside, alone, item, latest :: more, ?_⟩
    show item :: assembly.current.items = _
    rw [items]
    rfl
  · exact .inr inside

theorem Behind.openGroup (behind : assembly.Behind part) (index : Option Nat) (flags : Flags) :
    (assembly.openGroup index flags).Behind part := by
  rcases behind with ⟨outside, alone, latest, more, items⟩ | ⟨inner, whole, outer, begins⟩
  · refine .inr ⟨[], assembly.current, ?_, alone, latest :: more, items⟩
    show assembly.current :: assembly.outer = _
    rw [outside]
    rfl
  · refine .inr ⟨assembly.current :: inner, whole, ?_, begins⟩
    show assembly.current :: assembly.outer = _
    rw [outer]
    rfl

theorem Behind.repeatLast? (behind : assembly.Behind part) {least : Nat} {most : Option Nat}
    {greedy : Bool} (taken : assembly.repeatLast? least most greedy = some ended) :
    ended.Behind part ∧ ended.outer = assembly.outer := by
  unfold Assembly.repeatLast? at taken
  split at taken
  · cases taken
  · rename_i latest items ahead
    split at taken
    · cases taken
      refine ⟨?_, rfl⟩
      rcases behind with ⟨outside, alone, item, more, whole⟩ | inside
      · rw [ahead] at whole
        cases whole
        exact .inl ⟨outside, alone, _, more, rfl⟩
      · exact .inr inside
    · cases taken

theorem Behind.close (behind : assembly.Behind part) (taken : assembly.take? .close = some ended) :
    ended.Behind part ∧ ended.outer.length = assembly.outer.length - 1 := by
  simp only [take?] at taken
  split at taken
  · cases taken
  · rename_i parent outer around
    cases taken
    refine ⟨?_, by rw [around]; rfl⟩
    rcases behind with ⟨outside, _⟩ | ⟨inner, whole, split, alone, more, items⟩
    · rw [around] at outside
      cases outside
    · rw [around] at split
      cases inner with
      | nil =>
        cases split
        exact .inl ⟨rfl, alone, _, more, congrArg _ items⟩
      | cons group inner =>
        cases split
        exact .inr ⟨inner, whole, rfl, alone, more, items⟩

/-- One part more: the pattern begins with the part still, unless a bar begins an alternative to it. -/
theorem Behind.take? (behind : assembly.Behind part) {lexeme : Lexeme}
    (inside : lexeme = .bar → assembly.outer.length ≠ 0)
    (taken : assembly.take? lexeme = some ended) :
    ended.Behind part ∧ ended.outer.length = lexeme.depthBehind assembly.outer.length := by
  cases lexeme with
  | literal | anyChar | oneOf | look | caret | dollar =>
    cases taken
    exact ⟨behind.add _, rfl⟩
  | setFlags change =>
    cases taken
    exact ⟨behind.add _, rfl⟩
  | bar =>
    cases taken
    rcases behind with ⟨outside, _⟩ | enclosed
    · exact absurd (by rw [outside]; rfl) (inside rfl)
    · exact ⟨.inr enclosed, rfl⟩
  | openPlain change =>
    cases taken
    exact ⟨behind.openGroup _ _, rfl⟩
  | openGroup name =>
    simp only [Assembly.take?] at taken
    split at taken
    · cases taken
    · cases taken
      have named : Behind part { assembly with
          groupCount := assembly.groupCount + 1
          names := name.toList ++ assembly.names } := behind
      exact ⟨named.openGroup _ _, rfl⟩
  | close => exact behind.close taken
  | times least most greedy =>
    obtain ⟨still, outer⟩ := behind.repeatLast? taken
    exact ⟨still, congrArg List.length outer⟩

/-- All parts, none of them a bar outside of all groups. -/
theorem Behind.takeAll {lexemes : List Lexeme} (behind : assembly.Behind part)
    (inside : Lexeme.barOutside assembly.outer.length lexemes = false)
    (taken : lexemes.foldlM Assembly.take? assembly = some ended) : ended.Behind part := by
  induction lexemes generalizing assembly with
  | nil =>
    cases taken
    exact behind
  | cons lexeme lexemes ih =>
    rw [List.foldlM_cons, Option.bind_eq_bind, Option.bind_eq_some_iff] at taken
    obtain ⟨middle, one, others⟩ := taken
    unfold Lexeme.barOutside at inside
    rw [Bool.or_eq_false_iff, Bool.and_eq_false_imp] at inside
    have enclosed (bar : lexeme = .bar) : assembly.outer.length ≠ 0 := by
      simpa using inside.1 (beq_iff_eq.mpr bar)
    obtain ⟨still, depth⟩ := behind.take? enclosed one
    exact ih still (depth ▸ inside.2) others

/-- A finished pattern begins as the one alternative does that it has. -/
theorem Behind.finish? {assertion : Assertion} {node : Node}
    (behind : assembly.Behind { node := .look assertion })
    (finished : assembly.finish? = some node) :
    node.startsWith assertion = true := by
  unfold Assembly.finish? at finished
  split at finished
  · rename_i outside
    rcases behind with ⟨_, alone, item, more, items⟩ | ⟨inner, whole, outer, _⟩
    · have whole : assembly.current.body.node = Node.sequence
          (.look assertion :: (more.reverse ++ [item]).map Part.node) := by
        simp [OpenGroup.body, OpenGroup.branch, Part.alternatives, Part.sequence, Node.alternatives,
          alone, items]
      dsimp only at finished
      split at finished
      · cases finished
        rw [whole]
        exact Node.startsWith_sequence assertion _
      · cases finished
    · rw [outside] at outer
      simp at outer
  · cases finished

end Assembly

/-- A wrapped pattern that does not escape begins at the start of the text. -/
theorem startsWith_of_parse? {flags : Flags} {source : String} {node : Node}
    (parsed : Node.parse? flags (anchoredText source).toList = some node)
    (kept : escapes source = false) : node.startsWith .textStart = true := by
  unfold Node.parse? at parsed
  rw [Option.bind_eq_bind, Option.bind_eq_some_iff] at parsed
  obtain ⟨lexemes, read, parsed⟩ := parsed
  rw [Option.bind_eq_bind, Option.bind_eq_some_iff] at parsed
  obtain ⟨ended, taken, finished⟩ := parsed
  rw [escapes, read, Option.any_some] at kept
  obtain ⟨rest, rfl⟩ := Lexeme.readAll?_anchoredText read
  -- The bracket is open, and the assertion stands before it in the whole pattern.
  let opened := ((Assembly.start flags).add { node := .look .textStart }).openGroup none flags
  have behind : opened.Behind { node := .look .textStart } := .inr ⟨[], _, rfl, rfl, [], rfl⟩
  exact (behind.takeAll kept taken).finish? finished

/-! ### Matches at the cursor -/

/-- The match begins where the text begins, so that a cursor which moves on by the length of the match
moves over what was matched. -/
def Match.AtCursor (text : List Char) (found : Match) : Prop :=
  found.span.start = 0 ∧
    Text.takeBytes text found.length = Text.slice text found.span.start found.span.stop

theorem Match.atCursor_iff {text : List Char} {found : Match} :
    found.AtCursor text ↔ found.span.start = 0 := by
  refine ⟨And.left, fun start => ⟨start, ?_⟩⟩
  have whole : Text.dropBytes? text 0 = some text := by cases text <;> rfl
  unfold Text.slice Match.length
  rw [start, whole]
  rfl

/-- A pattern matches nowhere before the match that is found in a text. -/
theorem Node.leads_none_before {node : Node} {text : List Char} {place : Place}
    (within : Plan.Within text place)
    (ahead : ∀ found, (Regex.ofNode node).find? text = some found → place.offset < found.span.start)
    (ended : Place) : ¬ node.Leads place ended := by
  intro leads
  have tried (starts : node.startsWith .textStart = true) := offset_of_startsWith starts leads
  exact leads_none_of_find? within tried ahead ended leads

/-- The pattern matches at the start of the text, or nowhere in it but there. -/
def Node.StartFirst (node : Node) (text : List Char) : Prop :=
  (∃ ended, node.Leads (.start text) ended) ∨
    ∀ place ended, Plan.Within text place → node.Leads place ended → place.offset = 0

/-- The match in a text lies at its start exactly if the pattern matches there, or nowhere else. -/
theorem Regex.atCursor_iff {node : Node} {text : List Char} :
    (∀ found, (ofNode node).find? text = some found → found.AtCursor text) ↔
      node.StartFirst text := by
  constructor
  · intro atCursor
    cases outcome : (ofNode node).find? text with
    | none =>
      refine .inr fun place ended within leads => ?_
      refine absurd leads (Node.leads_none_before within (fun found same => ?_) ended)
      rw [outcome] at same
      cases same
    | some found =>
      obtain ⟨start, ended, within, groups, _, leads, same⟩ := Plan.leads_of_find? outcome
      have offset : start.offset = 0 := by
        have begins := (atCursor found outcome).1
        rw [same] at begins
        exact begins
      have here := within.samePosition Plan.within_start offset
      have from_start : start = .start text := by
        obtain ⟨_, before, rest⟩ := here
        cases start
        cases offset
        cases groups
        cases before
        cases rest
        rfl
      exact .inl ⟨ended, from_start ▸ Node.leads_plan.mp leads⟩
  · intro matching found outcome
    obtain ⟨start, ended, within, groups, _, leads, same⟩ := Plan.leads_of_find? outcome
    rw [Match.atCursor_iff]
    rcases matching with ⟨other, from_start⟩ | nowhere
    · rcases Nat.eq_zero_or_pos found.span.start with start | later
      · exact start
      · have ahead (another : Match) (same : (ofNode node).find? text = some another) :
            0 < another.span.start := by
          rw [outcome] at same
          cases same
          exact later
        exact absurd from_start (Node.leads_none_before Plan.within_start ahead other)
    · rw [same]
      exact nowhere start ended within (Node.leads_plan.mp leads)

/-- A pattern that does not escape matches at the start of a text only. -/
theorem startFirst_of_parse? {flags : Flags} {source : String} {node : Node}
    (parsed : Node.parse? flags (anchoredText source).toList = some node)
    (kept : escapes source = false) (text : List Char) : node.StartFirst text :=
  .inr fun _ _ _ leads => Node.offset_of_startsWith (startsWith_of_parse? parsed kept) leads

end TableLexer.Pattern
