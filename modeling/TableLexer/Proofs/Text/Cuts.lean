/-
**Where a text can be cut.**

A text is cut by giving its first part, or by giving the bytes of that part, or behind its first characters of a
kind.

* `eq_of_byteLength_eq`: two first parts of a text with as many bytes are the same.
* `exists_append_of_byteLength_le`: the first part with the fewer bytes is the beginning of the other.
* `cut_unique`: two first parts of a text that have all its first characters of a kind are the same.
-/

import TableLexer.Text.Utf8Length

namespace TableLexer.Text

/-- Only the empty text has no bytes. -/
theorem byteLength_eq_zero {text : List Char} : byteLength text = 0 ↔ text = [] := by
  constructor
  · intro zero
    cases text with
    | nil => rfl
    | cons c rest =>
      have := c.utf8Size_pos
      rw [byteLength] at zero
      omega
  · rintro rfl
    rfl

theorem byteLength_pos {text : List Char} (some_char : text ≠ []) : 0 < byteLength text :=
  Nat.pos_of_ne_zero fun zero => some_char (byteLength_eq_zero.mp zero)

/-- Two first parts of a text with as many bytes are the same, and so are the parts behind them. -/
theorem eq_of_byteLength_eq {first second other rest : List Char}
    (same : first ++ second = other ++ rest) (bytes : byteLength first = byteLength other) :
    first = other ∧ second = rest := by
  have one := takeBytes_byteLength_append first second
  have two := takeBytes_byteLength_append other rest
  rw [same, bytes] at one
  have fronts : first = other := one.symm.trans two
  subst fronts
  exact ⟨rfl, List.append_cancel_left same⟩

/-- The first part of a text with the fewer bytes is the beginning of the other one. -/
theorem exists_append_of_byteLength_le {first second other rest : List Char}
    (same : first ++ second = other ++ rest) (bytes : byteLength first ≤ byteLength other) :
    ∃ more, other = first ++ more ∧ second = more ++ rest := by
  rcases List.append_eq_append_iff.mp same with ⟨more, longer, tail⟩ | ⟨more, longer, tail⟩
  · exact ⟨more, longer, tail⟩
  · have none_more : more = [] := by
      rw [longer, byteLength_append] at bytes
      exact byteLength_eq_zero.mp (by omega)
    subst none_more
    rw [List.append_nil] at longer
    exact ⟨[], by simp [longer], by simpa using tail.symm⟩

/-- A text is cut in one way only behind its first characters of a kind. -/
theorem cut_unique {kind : Char → Bool} {first second other rest : List Char}
    (same : first ++ second = other ++ rest) (inside : ∀ c ∈ first, kind c = true)
    (insideOther : ∀ c ∈ other, kind c = true) (behind : second.head?.any kind = false)
    (behindOther : rest.head?.any kind = false) : first = other ∧ second = rest := by
  have taken {front back : List Char} (inside : ∀ c ∈ front, kind c = true)
      (behind : back.head?.any kind = false) : (front ++ back).takeWhile kind = front := by
    rw [List.takeWhile_append_of_pos inside]
    cases back with
    | nil => simp
    | cons c more => simp_all
  have fronts : first = other := by
    rw [← taken inside behind, same, taken insideOther behindOther]
  subst fronts
  exact ⟨rfl, List.append_cancel_left same⟩

end TableLexer.Text
