/-
**The room that the automaton of a choice between words takes.**

A pattern is refused only where its automaton takes more than `Tally.bound` bytes. For a choice between words
there is a bound that does not depend on how much of their beginnings they share: each letter takes 80 bytes at
most, and each word another 4.

* `Tally.Spends`: what a count takes at most, and how the bounds of its steps add up.
* `room`, `spends_countNode`, `spends_countWords`: the tree by which words are read.
* `room_byFirstByte_le`, `room_stretches_le`: the branches of a node leave a byte of each word to pay for the node.
* `fits_of_spends`, `spends_alternatives`: patterns, and among them choices between words.
-/

import Mathlib.Algebra.Ring.Nat
import Mathlib.Data.List.Basic
import TableLexer.Pattern.Size.OfNode
import TableLexer.Proofs.Pattern.Choices

namespace TableLexer.Pattern

/-! ### What a count takes -/

namespace Tally

/-- The count takes no more than so many bytes, and succeeds where there are as many left. -/
def Spends (count : Tally → Option Tally) (bytes : Nat) : Prop :=
  ∀ tally : Tally, tally.bytes + bytes ≤ bound →
    ∃ next, count tally = some next ∧ next.bytes ≤ tally.bytes + bytes

variable {one other : Tally → Option Tally} {bytes more : Nat}

theorem spends_none : Spends some 0 := fun tally _ => ⟨tally, rfl, Nat.le_refl _⟩

theorem Spends.mono (spends : Spends one bytes) (less : bytes ≤ more) : Spends one more := by
  intro tally enough
  obtain ⟨next, counted, taken⟩ := spends tally (by omega)
  exact ⟨next, counted, by omega⟩

/-- One count after another. -/
theorem Spends.bind (first : Spends one bytes) (second : Spends other more) :
    Spends (fun tally => (one tally).bind other) (bytes + more) := by
  intro tally enough
  obtain ⟨middle, counted, taken⟩ := first tally (by omega)
  obtain ⟨next, counted_then, taken_then⟩ := second middle (by omega)
  refine ⟨next, ?_, by omega⟩
  show (one tally).bind other = some next
  rw [counted, Option.bind_some, counted_then]

theorem spends_addStates (count : Nat) : Spends (addStates count) (count * stateBytes) := fun _ enough =>
  ⟨_, if_pos enough, Nat.le_refl _⟩

theorem spends_addRanges (count : Nat) : Spends (addRanges count) (stateBytes + count * rangeBytes) :=
  fun _ enough => ⟨_, if_pos enough, Nat.le_refl _⟩

theorem spends_addLinks (count : Nat) : Spends (addLinks count) (stateBytes + count * linkBytes) :=
  fun _ enough => ⟨_, if_pos enough, Nat.le_refl _⟩

/-- A count for each element of a list. -/
theorem spends_forEach {α : Type} {count : α → Tally → Option Tally} {cost : α → Nat} {list : List α}
    (each : ∀ a ∈ list, Spends (count a) (cost a)) : Spends (forEach count list) (list.map cost).sum := by
  induction list with
  | nil => exact spends_none
  | cons a rest ih =>
    obtain ⟨first, others⟩ := List.forall_mem_cons.mp each
    rw [List.map_cons, List.sum_cons]
    exact first.bind (ih others)

end Tally

open Tally (Spends)

/-! ### The tree of words -/

/-- The room for words that are read by a tree. -/
def room {α : Type} (words : List (List α)) : Nat := (words.map fun word => 80 * word.length + 4).sum

section Tree

variable {α : Type} {words : List (List Nat)} {lists : List (List (List Nat))} {byte : Nat}

@[simp] theorem room_nil : room ([] : List (List α)) = 0 := rfl

@[simp] theorem room_cons (word : List α) (words : List (List α)) :
    room (word :: words) = 80 * word.length + 4 + room words := rfl

@[simp] theorem room_append (words others : List (List α)) : room (words ++ others) = room words + room others := by
  simp [room]

/-- The room depends on the words by their lengths. -/
theorem room_map {β : Type} {change : List α → List β} {words : List (List α)}
    (same : ∀ word ∈ words, (change word).length = word.length) : room (words.map change) = room words := by
  rw [room, room, List.map_map]
  exact congrArg List.sum (List.map_congr_left fun word member => by simp [same word member])

/-- What is left of the word behind the byte, if it begins with it. -/
def behind? (byte : Nat) : List Nat → Option (List Nat)
  | [] => none
  | first :: rest => if first = byte then some rest else none

theorem byFirstByte_eq :
    byFirstByte words = (words.filterMap List.head?).eraseDups.map fun byte => words.filterMap (behind? byte) :=
  rfl

/-- Words that do not begin with a byte make no difference to those that do. -/
theorem filterMap_behind?_filter {first : Nat} (other : byte ≠ first) (words : List (List Nat)) :
    (words.filter fun word => word.head? != some first).filterMap (behind? byte) =
      words.filterMap (behind? byte) := by
  induction words with
  | nil => rfl
  | cons word rest ih =>
    cases word with
    | nil => simpa [List.filter_cons, List.filterMap_cons, behind?] using ih
    | cons c more =>
      by_cases same : c = first
      · have apart : c ≠ byte := fun equal => other (equal.symm.trans same)
        simpa [List.filter_cons, List.filterMap_cons, behind?, same, other.symm] using ih
      · simp [List.filter_cons, List.filterMap_cons, behind?, same, ih]

/-- The first branch is for the byte with which the first word begins. -/
theorem byFirstByte_cons (first : Nat) (rest : List Nat) (words : List (List Nat)) :
    byFirstByte ((first :: rest) :: words) =
      (rest :: words.filterMap (behind? first)) ::
        byFirstByte (words.filter fun word => word.head? != some first) := by
  have others : (words.filterMap List.head?).filter (fun byte => !byte == first) =
      (words.filter fun word => word.head? != some first).filterMap List.head? := by
    induction words with
    | nil => rfl
    | cons word rest ih =>
      cases word with
      | nil => simpa [List.filter_cons, List.filterMap_cons] using ih
      | cons c more => by_cases same : c = first <;> simp [List.filter_cons, same, ih]
  have leaves : ((first :: rest) :: words).filterMap (behind? first) = rest :: words.filterMap (behind? first) := by
    simp [behind?]
  have begins : ((first :: rest) :: words).filterMap List.head? = first :: words.filterMap List.head? := rfl
  rw [byFirstByte_eq, begins, List.eraseDups_cons, List.map_cons, leaves, others, byFirstByte_eq]
  congr 1
  refine List.map_congr_left fun byte member => ?_
  have other : byte ≠ first := by
    rw [List.mem_eraseDups, ← others] at member
    simpa using (List.mem_filter.mp member).2
  rw [filterMap_behind?_filter other]
  simp [behind?, other.symm]

/-- The words that begin with a byte leave it. -/
theorem room_behind (byte : Nat) (words : List (List Nat)) :
    room (words.filterMap (behind? byte)) + 80 * (words.filter fun word => word.head? == some byte).length +
      room (words.filter fun word => word.head? != some byte) = room words := by
  induction words with
  | nil => rfl
  | cons word rest ih =>
    cases word with
    | nil =>
      simp [List.filter_cons, List.filterMap_cons, behind?]
      omega
    | cons first more =>
      by_cases same : first = byte
      · simp [behind?, same]
        omega
      · simp [List.filter_cons, behind?, same]
        omega

/-- The branches of a node leave a byte of each word, and are no more than the words. -/
theorem room_byFirstByte_le (some_byte : ∀ word ∈ words, word ≠ []) :
    ((byFirstByte words).map room).sum + 80 * words.length ≤ room words ∧
      (byFirstByte words).length ≤ words.length := by
  -- The recursion is on the number of words: those with another first byte are fewer.
  induction size : words.length using Nat.strongRecOn generalizing words with
  | ind size ih =>
    obtain _ | ⟨word, words⟩ := words
    · simp [← size, byFirstByte_eq]
    · obtain ⟨here, later⟩ := List.forall_mem_cons.mp some_byte
      obtain ⟨first, rest, rfl⟩ := List.exists_cons_of_ne_nil here
      have count : words.length = (words.filter fun word => word.head? == some first).length +
          (words.filter fun word => word.head? != some first).length := List.length_eq_length_filter_add _
      have left := room_behind first words
      obtain ⟨others, branches⟩ := ih (words.filter fun word => word.head? != some first).length
        (by rw [← size]; exact Nat.lt_succ_of_le (List.length_filter_le _ _))
        (fun word member => later word (List.mem_filter.mp member).1) rfl
      rw [byFirstByte_cons]
      simp only [List.map_cons, List.sum_cons, room_cons, List.length_cons] at *
      constructor
      · omega
      · omega

/-- Between the empty words stand the others. -/
theorem flatten_betweenEmpty (words : List (List Nat)) :
    (betweenEmpty words).flatten = words.filter (!·.isEmpty) := by
  fun_induction betweenEmpty words with
  | case1 => rfl
  | case2 rest ih => simpa using ih
  | case3 word rest some_byte none_between ih =>
    have kept : word.isEmpty = false := by simpa using some_byte
    simp [kept, ← ih, none_between]
  | case4 word rest some_byte words more between ih =>
    have kept : word.isEmpty = false := by simpa using some_byte
    simp [kept, ← ih, between]

/-- The room for the branches of a node that stand together, and for what is behind them. -/
def roomOfBranches (branches : List (List (List Nat))) : Nat :=
  (branches.map room).sum + Tally.stateBytes + branches.length * Tally.rangeBytes

/-- The branches of a node leave half a byte of each word to pay for the node. -/
theorem room_stretches_le (some_byte : ∀ word ∈ lists.flatten, word ≠ []) :
    (((lists.map byFirstByte).filter (!·.isEmpty)).map roomOfBranches).sum + 40 * lists.flatten.length ≤
        room lists.flatten ∧
      ((lists.map byFirstByte).filter (!·.isEmpty)).length ≤ lists.flatten.length := by
  induction lists with
  | nil => exact ⟨Nat.le_refl _, Nat.le_refl _⟩
  | cons words rest ih =>
    simp only [List.flatten_cons, List.mem_append, or_imp, forall_and] at some_byte
    obtain ⟨behind, fewer⟩ := room_byFirstByte_le some_byte.1
    obtain ⟨others, fewer_others⟩ := ih some_byte.2
    rw [List.flatten_cons, List.map_cons, room_append, List.length_append]
    by_cases none_here : byFirstByte words = []
    · rw [List.filter_cons_of_neg (by simp [none_here])]
      omega
    · have some_branch : 0 < (byFirstByte words).length := List.length_pos_of_ne_nil none_here
      rw [List.filter_cons_of_pos (by simpa using none_here), List.map_cons, List.sum_cons, List.length_cons]
      simp only [roomOfBranches, Tally.stateBytes, Tally.rangeBytes]
      omega

/-- A node keeps no more ends than words end there. -/
theorem keptEnds_le (words : List (List Nat)) : keptEnds words ≤ words.countP List.isEmpty := by
  have early : (words.takeWhile List.isEmpty).length ≤ words.countP List.isEmpty := by
    have all : (words.takeWhile List.isEmpty).countP List.isEmpty = (words.takeWhile List.isEmpty).length :=
      List.countP_eq_length.mpr (List.all_eq_true.mp List.all_takeWhile)
    exact all ▸ (List.takeWhile_sublist _).countP_le
  simp only [keptEnds]
  omega

/-- Words that are empty need room for their ends. -/
theorem room_filter (words : List (List Nat)) :
    room (words.filter (!·.isEmpty)) + 4 * words.countP List.isEmpty = room words := by
  induction words with
  | nil => rfl
  | cons word rest ih =>
    cases word with
    | nil =>
      simp
      omega
    | cons byte rest =>
      simp
      omega

/-- Counts the branches of a node that stand together. -/
def countBranches (levels : Nat) (branches : List (List (List Nat))) (tally : Tally) : Option Tally :=
  (Tally.forEach (countNode levels) branches tally).bind fun tally =>
    if branches.length = 1 then tally.addStates 1 else tally.addRanges branches.length

theorem spends_countBranches {levels : Nat} (below : ∀ words, Spends (countNode levels words) (room words))
    (branches : List (List (List Nat))) : Spends (countBranches levels branches) (roomOfBranches branches) := by
  have each : Spends (Tally.forEach (countNode levels) branches) (branches.map room).sum :=
    Tally.spends_forEach fun words _ => below words
  have joined : Spends
      (fun tally => if branches.length = 1 then tally.addStates 1 else tally.addRanges branches.length)
      (Tally.stateBytes + branches.length * Tally.rangeBytes) := by
    split
    · exact (Tally.spends_addStates 1).mono (by simp)
    · exact Tally.spends_addRanges _
  rw [roomOfBranches, Nat.add_assoc]
  exact each.bind joined

/-- **A node of the tree** and what is behind it take no more than the room for their words. -/
theorem spends_countNode (levels : Nat) (words : List (List Nat)) : Spends (countNode levels words) (room words) := by
  induction levels generalizing words with
  | zero => exact Tally.spends_none.mono (Nat.zero_le _)
  | succ levels ih =>
    generalize listed : ((betweenEmpty words).map byFirstByte).filter (!·.isEmpty) = stretches
    have node : countNode (levels + 1) words = fun tally =>
        if stretches.isEmpty then some tally
        else (Tally.forEach (countBranches levels) stretches tally).bind fun tally =>
          tally.addLinks (stretches.length + keptEnds words) := by
      funext tally
      rw [← listed]
      rfl
    have some_byte : ∀ word ∈ (betweenEmpty words).flatten, word ≠ [] := by
      simp [flatten_betweenEmpty]
    obtain ⟨enough, fewer⟩ := room_stretches_le some_byte
    have ends := keptEnds_le words
    have whole := room_filter words
    rw [← flatten_betweenEmpty] at whole
    rw [listed] at enough fewer
    rw [node]
    split
    · exact Tally.spends_none.mono (Nat.zero_le _)
    · rename_i some_stretch
      have some_length : 0 < stretches.length := List.length_pos_of_ne_nil (by simpa using some_stretch)
      have branches : Spends (Tally.forEach (countBranches levels) stretches) (stretches.map roomOfBranches).sum :=
        Tally.spends_forEach fun branches _ => spends_countBranches ih branches
      refine (branches.bind (Tally.spends_addLinks _)).mono ?_
      simp only [Tally.stateBytes, Tally.linkBytes]
      omega

/-- **The tree of some words** takes 80 bytes at most for each byte of them, and 4 for each word. -/
theorem spends_countWords (words : List (List Nat)) : Spends (countWords words) (Tally.stateBytes + room words) := by
  have start : Spends (Tally.addStates 1) Tally.stateBytes := (Tally.spends_addStates 1).mono (by simp)
  exact start.bind (spends_countNode _ words)

end Tree

/-! ### Patterns -/

namespace Node

variable {first second node : Node} {backward : Bool} {bytes more : Nat}

theorem spends_look (assertion : Assertion) : Spends ((look assertion).count backward 0) Tally.stateBytes := by
  have one : Spends (fun tally => (tally.addStates 1).bind some) (1 * Tally.stateBytes + 0) :=
    (Tally.spends_addStates 1).bind Tally.spends_none
  exact one

theorem spends_literal (text : List Char) :
    Spends ((literal text).count backward 0) (Text.byteLength text * Tally.stateBytes) := by
  have one : Spends (fun tally => (tally.addStates (Text.byteLength text)).bind some) _ :=
    (Tally.spends_addStates _).bind Tally.spends_none
  exact one

/-- A set of ASCII characters is read by one state, which has its ranges. -/
theorem spends_one {set : CharSet} (ascii : set.isAscii = true) :
    Spends ((one set).count backward 0) (2 * Tally.stateBytes + set.ranges.length * Tally.rangeBytes) := by
  have ranges : Spends (set.count backward) (1 * Tally.stateBytes +
      (Tally.stateBytes + set.ranges.length * Tally.rangeBytes)) := by
    have both := (Tally.spends_addStates 1).bind (Tally.spends_addRanges set.ranges.length)
    have read : set.count backward = fun tally => (tally.addStates 1).bind (·.addRanges set.ranges.length) := by
      funext tally
      simp [CharSet.count, ascii]
    rwa [read]
  exact (ranges.bind Tally.spends_none).mono (by simp only [Tally.stateBytes]; omega)

/-- Parts one after another, in the order in which they are read. -/
theorem spends_seq (front : Spends (first.count backward 0) bytes) (back : Spends (second.count backward 0) more) :
    Spends ((seq first second).count backward 0) (bytes + more) := by
  cases backward with
  | false =>
    have read : (seq first second).count false 0 = fun tally =>
        (first.count false 0 tally).bind (second.count false 0) := by
      funext tally
      simp [count, countJoin]
    exact read ▸ front.bind back
  | true =>
    have read : (seq first second).count true 0 = fun tally =>
        (second.count true 0 tally).bind (first.count true 0) := by
      funext tally
      simp [count, countJoin]
    exact read ▸ (back.bind front).mono (Nat.le_of_eq (Nat.add_comm _ _))

/-- The states that note where a group starts and ends. -/
theorem spends_group {body : Node} (index : Nat) (inside : Spends (body.count false 0) bytes) :
    Spends ((group index body).count false 0) (bytes + 2 * Tally.stateBytes) := by
  have read : (group index body).count false 0 = fun tally =>
      ((tally.addStates 1).bind (body.count false 0)).bind (·.addStates 1) := by
    funext tally
    simp [count, countJoin, Option.bind_assoc]
  rw [read]
  exact (((Tally.spends_addStates 1).bind inside).bind (Tally.spends_addStates 1)).mono (by omega)

/-- Counts what stands before a whole pattern: one that may start anywhere has a loop there. -/
def countStart (anchored : Bool) (tally : Tally) : Option Tally :=
  if anchored then tally.addStates 1
  else ((tally.addLinks 2).bind (·.addStates 1)).bind (·.addRanges 1)

theorem spends_countStart (anchored : Bool) : Spends (countStart anchored) 112 := by
  cases anchored with
  | true => exact (Tally.spends_addStates 1).mono (by decide)
  | false =>
    exact (((Tally.spends_addLinks 2).bind (Tally.spends_addStates 1)).bind (Tally.spends_addRanges 1)).mono
      (by decide)

/-- The automaton of a whole pattern is what stands before it, the pattern, and a last state. -/
theorem countWhole_eq (node : Node) (backward : Bool) :
    node.countWhole backward =
      ((countStart (if backward then node.endsWith .textEnd else node.startsWith .textStart) {}).bind
        ((if backward then node else group 0 node).count backward 0)).bind (·.addStates 1) := by
  simp only [countWhole, countStart]
  split <;> split <;> simp [Option.bind_assoc]

/-- **A pattern fits** if there is room for its parts and for what stands around them. -/
theorem fits_of_spends (each : ∀ backward, Spends (node.count backward 0) bytes)
    (enough : bytes + 256 ≤ Tally.bound) : node.fits = true := by
  have whole (backward : Bool) : (node.countWhole backward).isSome = true := by
    have inside : Spends ((if backward then node else group 0 node).count backward 0)
        (bytes + 2 * Tally.stateBytes) := by
      cases backward with
      | true => exact (each true).mono (Nat.le_add_right _ _)
      | false => exact spends_group 0 (each false)
    obtain ⟨tally, counted, _⟩ := (((spends_countStart _).bind inside).bind (Tally.spends_addStates 1)) {}
      (by simp only [Tally.stateBytes]; omega)
    rw [countWhole_eq, Option.isSome_iff_exists]
    exact ⟨tally, counted⟩
  simp [fits, whole]

/-! ### Choices between words -/

variable {words : List (List Char)} {text : List Char}

/-- Of ASCII characters, each takes one byte. -/
theorem byteLength_of_ascii (ascii : ∀ c ∈ text, c.toNat < 0x80) : Text.byteLength text = text.length := by
  induction text with
  | nil => rfl
  | cons c rest ih =>
    rw [List.forall_mem_cons] at ascii
    have low : c.val ≤ 0x7F := UInt32.le_iff_toNat_le.mpr (Nat.le_of_lt_succ ascii.1)
    have one : c.utf8Size = 1 := if_pos low
    rw [Text.byteLength, one, ih ascii.2, List.length_cons, Nat.add_comm]

theorem length_wordBytes_of_ascii (ascii : ∀ c ∈ text, c.toNat < 0x80) :
    (wordBytes backward text).length = text.length := by
  have forward : (text.flatMap fun c => Text.utf8Bytes c.toNat).length = text.length := by
    induction text with
    | nil => rfl
    | cons c rest ih =>
      rw [List.forall_mem_cons] at ascii
      have one : Text.utf8Bytes c.toNat = [c.toNat] := if_pos ascii.1
      rw [List.flatMap_cons, one, List.length_append, ih ascii.2, List.length_cons, Nat.add_comm]
      rfl
  cases backward <;> simpa [wordBytes] using forward

/-- The words of a choice between these, in their order. -/
theorem words?_alternation (word next : List Char) (rest : List (List Char)) :
    (alternation ((word :: next :: rest).map literal)).words? = some (word :: next :: rest) := by
  induction rest generalizing word next with
  | nil => rfl
  | cons another rest ih =>
    have others := ih next another
    have first : (alternation ((word :: next :: another :: rest).map literal)).words? =
        (alternation ((next :: another :: rest).map literal)).words?.map (word :: ·) := rfl
    rw [first, others, Option.map_some]

/-- A choice between words is read by their tree. -/
theorem count_of_words? (listed : (alt first second).words? = some words) :
    (alt first second).count backward 0 = countWords (words.map (wordBytes backward)) := by
  funext tally
  rw [count]
  exact listed

/-- A set of ASCII characters that is given by its members. -/
theorem spends_ofSet_ofList {chars : List Char} (ascii : ∀ c ∈ chars, c.toNat < 0x80) :
    Spends ((ofSet (.ofList chars)).count backward 0) (128 + chars.length * Tally.rangeBytes) := by
  have few := CharSet.length_ranges_ofList chars
  have set : Spends ((one (.ofList chars)).count backward 0) (128 + chars.length * Tally.rangeBytes) :=
    (spends_one (CharSet.isAscii_ofList ascii)).mono (by simp only [Tally.stateBytes, Tally.rangeBytes]; omega)
  unfold ofSet
  split
  · rename_i first last only
    split
    · have size : Text.byteLength [Char.ofNat first] ≤ 4 := by
        have := (Char.ofNat first).utf8Size_le_four
        simpa [Text.byteLength] using this
      exact (spends_literal _).mono (by simp only [Tally.stateBytes, Tally.rangeBytes]; omega)
    · exact set
  · exact set

/-- **A choice between words** needs little more than the room for them. -/
theorem spends_alternatives (some_word : words ≠ []) (ascii : ∀ word ∈ words, ∀ c ∈ word, c.toNat < 0x80)
    (backward : Bool) : Spends ((alternatives (words.map literal)).count backward 0) (room words + 128) := by
  rcases alternatives_words some_word with
    ⟨word, rfl, simplified⟩ | ⟨chars, rfl, simplified⟩ | ⟨word, next, rest, rfl, simplified⟩
  · rw [simplified]
    refine (spends_literal word).mono ?_
    rw [byteLength_of_ascii (ascii word List.mem_cons_self)]
    simp only [room_cons, room_nil, Tally.stateBytes]
    omega
  · rw [simplified]
    have letters : ∀ c ∈ chars, c.toNat < 0x80 := by simpa using ascii
    have each : room (chars.map fun c => [c]) = chars.length * 84 := by
      simp [room, Function.comp_def]
    refine (spends_ofSet_ofList letters).mono ?_
    simp only [each, Tally.rangeBytes]
    omega
  · rw [simplified]
    have read : (alternation ((word :: next :: rest).map literal)).count backward 0 =
        countWords ((word :: next :: rest).map (wordBytes backward)) :=
      count_of_words? (words?_alternation word next rest)
    have same : room ((word :: next :: rest).map (wordBytes backward)) = room (word :: next :: rest) :=
      room_map fun word member => length_wordBytes_of_ascii (ascii word member)
    rw [read, ← same]
    exact (spends_countWords _).mono (by simp only [Tally.stateBytes]; omega)

end Node

end TableLexer.Pattern
