/-
**Unions of sets of characters.**

A union merges two lists of ranges by where these begin, and makes one range of those that touch. While the lists
ascend, no character is gained or lost by it.

* `Ascends`, `Covers`: the order of ranges, and what they hold together.
* `covers_joinFront`, `covers_merge`: joining and merging keep what ranges hold.
* `contains_unions`, `contains_ofList`: what is in a union, and in a set that is given by its members.
* `length_ranges_ofList`, `isAscii_ofList`: how many ranges such a set has, and where they end.
-/

import Mathlib.Data.List.Basic
import TableLexer.Pattern.Size.OfSet

namespace TableLexer.Pattern.CharSet

/-- The ranges are in the order of their beginnings. -/
def Ascends (ranges : List (Nat × Nat)) : Prop := ranges.Pairwise fun one other => one.1 ≤ other.1

/-- The code point is in one of the ranges. -/
def Covers (ranges : List (Nat × Nat)) (code : Nat) : Prop :=
  ∃ range ∈ ranges, range.1 ≤ code ∧ code ≤ range.2

section Ranges

variable {ranges others : List (Nat × Nat)} {range : Nat × Nat} {first last code : Nat}

@[simp] theorem covers_nil : ¬Covers [] code := by simp [Covers]

@[simp] theorem covers_cons :
    Covers (range :: ranges) code ↔ (range.1 ≤ code ∧ code ≤ range.2) ∨ Covers ranges code := by
  simp [Covers]

/-- Looking for a code point in ranges that ascend may stop where the next one begins behind it. -/
theorem inRanges_iff (ascends : Ascends ranges) : Text.inRanges code ranges = true ↔ Covers ranges code := by
  induction ranges with
  | nil => simp [Text.inRanges]
  | cons range rest ih =>
    obtain ⟨lowest, ascends⟩ := List.pairwise_cons.mp ascends
    rw [Text.inRanges, covers_cons]
    split
    · rename_i before
      have behind : ¬Covers rest code := by
        rintro ⟨other, member, low, _⟩
        have := lowest other member
        omega
      simp [behind]
      omega
    · rename_i begun
      simp [ih ascends, Nat.le_of_not_lt begun]

/-! ### Joining -/

/-- What stands behind the first two of ranges that ascend may follow the first, whatever its end. -/
theorem Ascends.skip {next : Nat × Nat} {other : Nat} (ascends : Ascends ((first, last) :: next :: ranges)) :
    Ascends ((first, other) :: ranges) := by
  obtain ⟨lowest, later⟩ := List.pairwise_cons.mp ascends
  exact List.pairwise_cons.mpr
    ⟨fun range member => lowest range (List.mem_cons_of_mem _ member), (List.pairwise_cons.mp later).2⟩

/-- Joined ranges begin no earlier than the first. -/
theorem le_of_mem_joinFront (ascends : Ascends ((first, last) :: ranges)) :
    ∀ range ∈ joinFront first last ranges, first ≤ range.1 := by
  fun_induction joinFront first last ranges with
  | case1 => simp
  | case2 first last nextFirst nextLast rest touches ih => exact ih ascends.skip
  | case3 first last nextFirst nextLast rest apart ih =>
    obtain ⟨lowest, later⟩ := List.pairwise_cons.mp ascends
    have next : first ≤ nextFirst := lowest _ List.mem_cons_self
    exact List.forall_mem_cons.mpr
      ⟨Nat.le_refl _, fun other member => Nat.le_trans next (ih later other member)⟩

/-- Joined ranges ascend. -/
theorem ascends_joinFront (ascends : Ascends ((first, last) :: ranges)) :
    Ascends (joinFront first last ranges) := by
  fun_induction joinFront first last ranges with
  | case1 => simp [Ascends]
  | case2 first last nextFirst nextLast rest touches ih => exact ih ascends.skip
  | case3 first last nextFirst nextLast rest apart ih =>
    obtain ⟨lowest, later⟩ := List.pairwise_cons.mp ascends
    have next : first ≤ nextFirst := lowest _ List.mem_cons_self
    exact List.pairwise_cons.mpr
      ⟨fun other member => Nat.le_trans next (le_of_mem_joinFront later other member), ih later⟩

/-- Ranges hold the same when they are joined. -/
theorem covers_joinFront (ascends : Ascends ((first, last) :: ranges)) :
    Covers (joinFront first last ranges) code ↔ Covers ((first, last) :: ranges) code := by
  fun_induction joinFront first last ranges with
  | case1 => rfl
  | case2 first last nextFirst nextLast rest touches ih =>
    have next : first ≤ nextFirst := (List.pairwise_cons.mp ascends).1 _ List.mem_cons_self
    -- Nothing lies between two ranges that touch, so one range from end to end holds what they hold.
    have both : (first ≤ code ∧ code ≤ max last nextLast) ↔
        (first ≤ code ∧ code ≤ last) ∨ (nextFirst ≤ code ∧ code ≤ nextLast) := by omega
    rw [ih ascends.skip]
    simp only [covers_cons, both, or_assoc]
  | case3 first last nextFirst nextLast rest apart ih =>
    simp only [covers_cons, ih (List.pairwise_cons.mp ascends).2]

/-- Where a joined range ends, one of the ranges ends. -/
theorem exists_end_of_mem_joinFront :
    ∀ range ∈ joinFront first last ranges, ∃ other ∈ (first, last) :: ranges, range.2 = other.2 := by
  fun_induction joinFront first last ranges with
  | case1 => simp
  | case2 first last nextFirst nextLast rest touches ih =>
    intro range member
    obtain ⟨other, listed, same⟩ := ih range member
    rcases List.mem_cons.mp listed with rfl | later
    · rcases Nat.le_total last nextLast with longer | longer
      · exact ⟨(nextFirst, nextLast), by simp, same.trans (Nat.max_eq_right longer)⟩
      · exact ⟨(first, last), by simp, same.trans (Nat.max_eq_left longer)⟩
    · exact ⟨other, by simp [later], same⟩
  | case3 first last nextFirst nextLast rest apart ih =>
    intro range member
    rcases List.mem_cons.mp member with rfl | later
    · exact ⟨_, List.mem_cons_self, rfl⟩
    · obtain ⟨other, listed, same⟩ := ih range later
      exact ⟨other, List.mem_cons_of_mem _ listed, same⟩

theorem length_joinFront_le : (joinFront first last ranges).length ≤ ranges.length + 1 := by
  fun_induction joinFront first last ranges with
  | case1 => exact Nat.le_refl _
  | case2 first last nextFirst nextLast rest touches ih => exact Nat.le_succ_of_le ih
  | case3 first last nextFirst nextLast rest apart ih => exact Nat.succ_le_succ ih

theorem exists_end_of_mem_join : ∀ range ∈ join ranges, ∃ other ∈ ranges, range.2 = other.2 := by
  cases ranges with
  | nil => simp [join]
  | cons range rest => exact exists_end_of_mem_joinFront

theorem length_join_le : (join ranges).length ≤ ranges.length := by
  cases ranges with
  | nil => exact Nat.le_refl _
  | cons range rest => exact length_joinFront_le

theorem ascends_join (ascends : Ascends ranges) : Ascends (join ranges) := by
  cases ranges with
  | nil => exact ascends
  | cons range rest => exact ascends_joinFront ascends

theorem covers_join (ascends : Ascends ranges) : Covers (join ranges) code ↔ Covers ranges code := by
  cases ranges with
  | nil => rfl
  | cons range rest => exact covers_joinFront ascends

/-! ### Merging -/

/-- The earlier one of two ranges. -/
def beginsFirst (one other : Nat × Nat) : Bool := decide (one.1 ≤ other.1)

/-- Ranges are merged by where they begin. -/
theorem merge_eq : merge ranges others = ranges.merge others beginsFirst := by
  induction ranges generalizing others with
  | nil => simp [merge]
  | cons range rest ih =>
    rw [merge]
    induction others with
    | nil => simp [mergeFront, ih]
    | cons other more further =>
      rw [mergeFront, List.cons_merge_cons, ih, further]
      simp only [beginsFirst, decide_eq_true_eq]

theorem ascends_merge (one : Ascends ranges) (other : Ascends others) : Ascends (merge ranges others) := by
  have sorted {ranges : List (Nat × Nat)} :
      Ascends ranges ↔ ranges.Pairwise fun one other => beginsFirst one other = true := by
    simp [Ascends, beginsFirst]
  rw [merge_eq, sorted]
  refine List.pairwise_merge ?_ ?_ _ _ (sorted.mp one) (sorted.mp other)
  · simp only [beginsFirst, decide_eq_true_eq]
    omega
  · simp only [beginsFirst, Bool.or_eq_true, decide_eq_true_eq]
    omega

theorem covers_merge : Covers (merge ranges others) code ↔ Covers ranges code ∨ Covers others code := by
  simp only [Covers, merge_eq, List.mem_merge, or_and_right, exists_or]

end Ranges

/-! ### Unions -/

variable {left right : CharSet} {sets : List CharSet} {chars : List Char} {c : Char}

/-- A character is in a set whose ranges ascend if one of these holds it. -/
theorem contains_iff (ascends : Ascends left.ranges) : left.contains c = true ↔ Covers left.ranges c.toNat :=
  inRanges_iff ascends

theorem ascends_union (one : Ascends left.ranges) (other : Ascends right.ranges) :
    Ascends (left.union right).ranges :=
  ascends_join (ascends_merge one other)

/-- A union holds what either set holds. -/
theorem contains_union (one : Ascends left.ranges) (other : Ascends right.ranges) :
    (left.union right).contains c = true ↔ left.contains c = true ∨ right.contains c = true := by
  rw [contains_iff (ascends_union one other), contains_iff one, contains_iff other]
  exact (covers_join (ascends_merge one other)).trans covers_merge

theorem ascends_unions (ascends : ∀ set ∈ sets, Ascends set.ranges) : Ascends (unions sets).ranges := by
  induction sets with
  | nil => exact .nil
  | cons set rest ih =>
    rw [List.forall_mem_cons] at ascends
    exact ascends_union ascends.1 (ih ascends.2)

/-- A union of sets holds what any of them holds. -/
theorem contains_unions (ascends : ∀ set ∈ sets, Ascends set.ranges) :
    (unions sets).contains c = true ↔ ∃ set ∈ sets, set.contains c = true := by
  induction sets with
  | nil => simp [unions, contains, Text.inRanges]
  | cons set rest ih =>
    rw [List.forall_mem_cons] at ascends
    have apart : (unions (set :: rest)).contains c = true ↔
        set.contains c = true ∨ (unions rest).contains c = true :=
      contains_union ascends.1 (ascends_unions ascends.2)
    rw [apart, ih ascends.2, List.exists_mem_cons_iff]

/-- **A set that is given by its members** holds these. -/
theorem contains_ofList : (ofList chars).contains c = true ↔ c ∈ chars := by
  have ascends : ∀ set ∈ chars.map single, Ascends set.ranges := by
    simp [Ascends, single, ofRange]
  rw [ofList, contains_unions ascends]
  simp

/-- Such a set has no more ranges than members. -/
theorem length_ranges_ofList (chars : List Char) : (ofList chars).ranges.length ≤ chars.length := by
  induction chars with
  | nil => exact Nat.le_refl _
  | cons c rest ih =>
    have joined : (ofList (c :: rest)).ranges = join (merge (single c).ranges (ofList rest).ranges) := rfl
    have merged : (merge (single c).ranges (ofList rest).ranges).length = 1 + (ofList rest).ranges.length := by
      rw [merge_eq, List.length_merge]
      rfl
    have shorter : (join (merge (single c).ranges (ofList rest).ranges)).length ≤ _ := length_join_le
    rw [joined, List.length_cons]
    omega

/-- The ranges of such a set end at members. -/
theorem exists_end_of_mem_ofList : ∀ range ∈ (ofList chars).ranges, ∃ c ∈ chars, range.2 = c.toNat := by
  induction chars with
  | nil => exact fun _ member => by cases member
  | cons c rest ih =>
    intro range member
    obtain ⟨other, listed, same⟩ := exists_end_of_mem_join range member
    rw [merge_eq, List.mem_merge] at listed
    rcases listed with first | later
    · obtain rfl : other = (c.toNat, c.toNat) := List.mem_singleton.mp first
      exact ⟨c, List.mem_cons_self, same⟩
    · obtain ⟨d, among, ends⟩ := ih other later
      exact ⟨d, List.mem_cons_of_mem _ among, same.trans ends⟩

/-- A set of ASCII characters needs no more than one state with ranges. -/
theorem isAscii_ofList (ascii : ∀ c ∈ chars, c.toNat < 0x80) : (ofList chars).isAscii = true := by
  rw [isAscii, Option.all_eq_true]
  intro range last
  obtain ⟨c, member, ends⟩ := exists_end_of_mem_ofList range (List.mem_of_getLast? last)
  simpa [ends] using ascii c member

end TableLexer.Pattern.CharSet
