/-
**Choices between words.**

A pattern that is written as words with bars between them is simplified: a word alone is that word, words of one
letter each are a set of characters, and other words are alternatives in the order in which they were written.
Whatever it is simplified to, the pattern spells the words and no other text.

* `Chooses`: the pattern spells these words.
* `chooses_alternation`, `spells_ofSet`: alternatives in their order, and sets.
* `alternatives_words`: the three forms.
* `chooses_alternatives`: each of them is a choice between the words.
-/

import TableLexer.Proofs.Pattern.Spelled
import TableLexer.Proofs.Pattern.Unions

namespace TableLexer.Pattern.Node

/-- The pattern is a single part without conditions and groups, and spells the words and nothing else. -/
structure Chooses (node : Node) (words : List (List Char)) : Prop where
  single : node.parts = [node]
  plain : node.plain = true
  spells : ∀ taken, node.Spells taken ↔ taken ∈ words

variable {words : List (List Char)} {word taken : List Char}

/-- Letters one after another are a word. -/
theorem sequence_letters (some_letter : word ≠ []) :
    sequence (word.map fun c => literal [c]) = literal word := by
  obtain ⟨c, rest, rfl⟩ := List.exists_cons_of_ne_nil some_letter
  induction rest generalizing c with
  | nil => rfl
  | cons d rest ih =>
    have behind : sequence ((c :: d :: rest).map fun c => literal [c]) =
        consPart (literal [c]) (sequence ((d :: rest).map fun c => literal [c])) := rfl
    rw [behind, ih d (List.cons_ne_nil _ _)]
    rfl

/-! ### Alternatives in their order -/

/-- Alternatives spell what any of them spells. -/
theorem spells_alternation {nodes : List Node} :
    (alternation nodes).Spells taken ↔ ∃ node ∈ nodes, node.Spells taken := by
  fun_induction alternation nodes with
  | case1 => simp [Spells, CharSet.contains, Text.inRanges]
  | case2 node => simp
  | case3 node next rest ih => simp only [Spells, ih, List.exists_mem_cons_iff]

theorem plain_alternation {nodes : List Node} (plain : ∀ node ∈ nodes, node.plain = true) :
    (alternation nodes).plain = true := by
  fun_induction alternation nodes with
  | case1 => rfl
  | case2 node => simpa using plain
  | case3 node next rest ih =>
    rw [List.forall_mem_cons] at plain
    rw [Node.plain, plain.1, ih plain.2]
    rfl

/-- Words as alternatives, however many they are, are a choice between these words. -/
theorem chooses_alternation (words : List (List Char)) : Chooses (alternation (words.map literal)) words where
  single := by
    obtain _ | ⟨word, _ | ⟨next, rest⟩⟩ := words <;> rfl
  plain := plain_alternation (by simp [Node.plain])
  spells taken := by simp [spells_alternation, Spells]

/-! ### Sets -/

/-- The pattern for a set with members spells these. -/
theorem spells_ofSet {set : CharSet} {c : Char} (member : set.contains c = true) :
    (ofSet set).Spells taken ↔ ∃ d, set.contains d = true ∧ taken = [d] := by
  unfold ofSet
  split
  · rename_i first last only
    split
    · rename_i same
      -- Of the only range nothing but the member is left, which is the character that is taken.
      have holds (d : Char) : set.contains d = true ↔ d.toNat = first := by
        simp only [CharSet.contains, only, ← same, Text.inRanges]
        simp
        omega
      have alone (d : Char) : set.contains d = true ↔ d = c := by
        rw [holds, ← (holds c).mp member, Char.toNat_inj]
      rw [← (holds c).mp member, Char.ofNat_toNat]
      simp [Spells, alone]
    · simp [Spells]
  · simp [Spells]

theorem single_ofSet (set : CharSet) : (ofSet set).parts = [ofSet set] := by
  unfold ofSet
  split
  · split <;> rfl
  · rfl

theorem plain_ofSet (set : CharSet) : (ofSet set).plain = true := by
  unfold ofSet
  split
  · split <;> rfl
  · rfl

/-! ### Words -/

/-- Words of which each is a single character are taken by these characters. -/
theorem mapM_char?_words {chars : List Char} (each : (words.map literal).mapM char? = some chars) :
    words = chars.map fun c => [c] := by
  induction words generalizing chars with
  | nil =>
    cases each
    rfl
  | cons word rest ih =>
    simp only [List.map_cons, List.mapM_cons, Option.bind_eq_bind, Option.bind_eq_some_iff,
      Option.pure_def, Option.some.injEq] at each
    obtain ⟨c, one, others, more, rfl⟩ := each
    have letter : word = [c] := by
      unfold char? at one
      split at one <;> simp_all
    rw [letter, ih more, List.map_cons]

/-- Words are no sets and share no parts, so that one turn is enough for them. -/
theorem alternativesWithin_words (some_word : words ≠ []) (fuel : Nat) :
    alternativesWithin (fuel + 1) (words.map literal) =
      match (words.map literal).mapM char? with
      | some chars => ofSet (.ofList chars)
      | none => alternation (words.map literal) := by
  have flat : (words.map literal).flatMap branches = words.map literal := by
    simp [List.flatMap_map, branches, ← List.map_eq_flatMap]
  obtain ⟨word, rest, rfl⟩ := List.exists_cons_of_ne_nil some_word
  have unlike_sets : ((word :: rest).map literal).mapM set? = none := by
    simp [List.mapM_cons, set?]
  have nothing_shared : commonFront ((word :: rest).map literal) = [] := by
    simp [commonFront]
  rw [alternativesWithin, flat, unlike_sets, nothing_shared]
  cases ((word :: rest).map literal).mapM char? <;> rfl

/-- Of several alternatives, at least one turn is taken. -/
theorem exists_alternatives_eq (first second : Node) (rest : List Node) :
    ∃ fuel, alternatives (first :: second :: rest) = alternativesWithin (fuel + 1) (first :: second :: rest) := by
  have grows (nodes : List Node) (start : Nat) :
      start ≤ nodes.foldl (fun total node => total + node.size) start := by
    induction nodes generalizing start with
    | nil => exact Nat.le_refl _
    | cons node rest ih => exact Nat.le_trans (Nat.le_add_right _ _) (ih _)
  obtain ⟨fuel, turns⟩ := Nat.exists_eq_add_of_le' (grows (first :: second :: rest) 1)
  refine ⟨fuel, ?_⟩
  rw [← turns]
  rfl

/-- **What becomes of words with bars between them.** -/
theorem alternatives_words (some_word : words ≠ []) :
    (∃ word, words = [word] ∧ alternatives (words.map literal) = literal word) ∨
    (∃ chars, words = chars.map (fun c => [c]) ∧ alternatives (words.map literal) = ofSet (.ofList chars)) ∨
    ∃ word next rest, words = word :: next :: rest ∧
      alternatives (words.map literal) = alternation (words.map literal) := by
  obtain _ | ⟨word, _ | ⟨next, rest⟩⟩ := words
  · exact absurd rfl some_word
  · exact .inl ⟨word, rfl, rfl⟩
  · right
    obtain ⟨fuel, begun⟩ := exists_alternatives_eq (literal word) (literal next) (rest.map literal)
    have turned := begun.trans (alternativesWithin_words some_word fuel)
    cases each : ((word :: next :: rest).map literal).mapM char? with
    | some chars =>
      rw [each] at turned
      exact .inl ⟨chars, mapM_char?_words each, turned⟩
    | none =>
      rw [each] at turned
      exact .inr ⟨word, next, rest, rfl, turned⟩

/-- **Words with bars between them** are a choice between these words. -/
theorem chooses_alternatives (some_word : words ≠ []) : Chooses (alternatives (words.map literal)) words := by
  rcases alternatives_words some_word with
    ⟨word, rfl, simplified⟩ | ⟨chars, rfl, simplified⟩ | ⟨word, next, rest, rfl, simplified⟩
  · rw [simplified]
    exact chooses_alternation [word]
  · obtain ⟨c, member⟩ : ∃ c, c ∈ chars := List.exists_mem_of_ne_nil _ (by simpa using some_word)
    rw [simplified]
    exact {
      single := single_ofSet _
      plain := plain_ofSet _
      spells := fun taken => by
        simp only [spells_ofSet (CharSet.contains_ofList.mpr member), CharSet.contains_ofList, List.mem_map]
        exact exists_congr fun d => and_congr_right fun _ => eq_comm }
  · rw [simplified]
    exact chooses_alternation _

end TableLexer.Pattern.Node
