/-
**What a search has learned.**

A memo holds pairs of a point and a position that need not be tried. It notes failures only after a
number of them went by, because a short search comes nowhere twice.

A set of positions is kept by bits, and a memo is such a set for every point.

* `BitSet.contains_insert`: a set with a number holds that number and what it held before.
* `Memo.knows_insert`: a memo with a note knows of that pair and of what it knew before.
-/

namespace TableLexer.Pattern

/-- A set of numbers. The number `n` belongs to it when bit `n % 8` of byte `n / 8` is set. -/
structure BitSet where
  bytes : ByteArray

namespace BitSet

instance : EmptyCollection BitSet := ⟨⟨.empty⟩⟩

/-- The number belongs to the set. -/
def contains (set : BitSet) (n : Nat) : Bool :=
  if n / 8 < set.bytes.size then (set.bytes.get! (n / 8)).toNat.testBit (n % 8) else false

/-- Zeros behind the bytes, so many of them. -/
def pad (bytes : ByteArray) : Nat → ByteArray
  | 0 => bytes
  | count + 1 => pad (bytes.push 0) count

/-- The byte with one more bit. -/
def withBit (byte : UInt8) (bit : Nat) : UInt8 := byte ||| (1 <<< bit.toUInt8)

/-- The set together with a number. -/
def insert (set : BitSet) (n : Nat) : BitSet :=
  let bytes := pad set.bytes (n / 8 + 1 - set.bytes.size)
  ⟨bytes.set! (n / 8) (withBit (bytes.get! (n / 8)) (n % 8))⟩

theorem pad_data (bytes : ByteArray) (count : Nat) :
    (pad bytes count).data = bytes.data ++ Array.replicate count 0 := by
  induction count generalizing bytes with
  | zero => simp [pad]
  | succ count ih =>
    rw [pad, ih]
    show bytes.data.push 0 ++ Array.replicate count 0 = _
    rw [Array.replicate_succ', Array.push_eq_append, Array.append_assoc]

theorem testBit_withBit (byte : UInt8) {bit other : Nat} (inByte : bit < 8) (otherInByte : other < 8) :
    (withBit byte bit).toNat.testBit other = (decide (other = bit) || byte.toNat.testBit other) := by
  rw [withBit, UInt8.toNat_or, Nat.testBit_or, Bool.or_comm]
  congr 1
  have single : ∀ bit other : Fin 8,
      ((1 : UInt8) <<< bit.val.toUInt8).toNat.testBit other.val = decide (other = bit) := by decide
  simpa using single ⟨bit, inByte⟩ ⟨other, otherInByte⟩

theorem contains_mk (data : Array UInt8) (n : Nat) :
    (⟨⟨data⟩⟩ : BitSet).contains n = (data.getD (n / 8) 0).toNat.testBit (n % 8) := by
  show (if n / 8 < data.size then (data[n / 8]!).toNat.testBit (n % 8) else false) = _
  split
  · rename_i inside
    simp [inside, getElem!_pos]
  · simp

/-- Nothing belongs to the empty set. -/
theorem contains_empty (n : Nat) : (∅ : BitSet).contains n = false := by
  show (⟨⟨#[]⟩⟩ : BitSet).contains n = false
  rw [contains_mk]
  simp

/-- A set with a number holds that number and what it held before. -/
theorem contains_insert (set : BitSet) (n m : Nat) :
    (set.insert n).contains m = (decide (m = n) || set.contains m) := by
  obtain ⟨⟨data⟩⟩ := set
  generalize padded : data ++ Array.replicate (n / 8 + 1 - data.size) (0 : UInt8) = wide
  have filled : pad ⟨data⟩ (n / 8 + 1 - (⟨data⟩ : ByteArray).size) = ⟨wide⟩ := by
    rw [← padded]
    exact congrArg ByteArray.mk (pad_data ⟨data⟩ _)
  have inserted : (⟨⟨data⟩⟩ : BitSet).insert n =
      ⟨⟨wide.set! (n / 8) (withBit wide[n / 8]! (n % 8))⟩⟩ := by
    simp only [insert, filled]
    rfl
  have room : n / 8 < wide.size := by
    rw [← padded, Array.size_append, Array.size_replicate]
    omega
  have same (i : Nat) : wide.getD i 0 = data.getD i 0 := by
    rw [← padded, Array.getD_eq_getD_getElem?, Array.getD_eq_getD_getElem?, Array.getElem?_append]
    split
    · rfl
    · rename_i beyond
      rw [Array.getElem?_replicate, Array.getElem?_eq_none (by omega)]
      split <;> rfl
  rw [inserted, contains_mk, contains_mk]
  by_cases here : m / 8 = n / 8
  · have changed : (wide.set! (n / 8) (withBit wide[n / 8]! (n % 8))).getD (m / 8) 0 =
        withBit (data.getD (m / 8) 0) (n % 8) := by
      rw [here, ← same]
      simp [room]
    have numbers : (m % 8 = n % 8) = (m = n) := propext (by omega)
    rw [changed, testBit_withBit _ (by omega) (by omega), decide_eq_decide.mpr (iff_of_eq numbers)]
  · have kept : (wide.set! (n / 8) (withBit wide[n / 8]! (n % 8))).getD (m / 8) 0 =
        data.getD (m / 8) 0 := by
      rw [← same, Array.getD_eq_getD_getElem?, Array.getD_eq_getD_getElem?,
        Array.set!_eq_setIfInBounds, Array.getElem?_setIfInBounds_ne (by omega)]
    have apart : m ≠ n := by omega
    rw [kept, decide_eq_false apart, Bool.false_or]

end BitSet

/-- What a search has learned: where it need not go. -/
structure Memo where
  /-- How many failures go by without a note. -/
  spare : Nat
  /-- For every point the positions where it need not be tried. -/
  closed : Array BitSet := #[]

namespace Memo

/-- A memo that knows nothing. -/
def blank : Memo := { spare := 65536 }

/-- The point need not be tried at the position. -/
def knows (memo : Memo) (point offset : Nat) : Bool := (memo.closed.getD point ∅).contains offset

/-- Empty sets behind the others, so many of them. -/
def pad (sets : Array BitSet) : Nat → Array BitSet
  | 0 => sets
  | count + 1 => pad (sets.push ∅) count

/-- Notes that the point need not be tried at the position. -/
def insert (memo : Memo) (point offset : Nat) : Memo :=
  let closed := pad memo.closed (point + 1 - memo.closed.size)
  { memo with closed := closed.modify point (·.insert offset) }

/-- Notes that the search failed from the point at the position, once enough failures went by. -/
def noteFailure (memo : Memo) (point offset : Nat) : Memo :=
  match memo.spare with
  | 0 => memo.insert point offset
  | spare + 1 => { memo with spare }

theorem pad_eq (sets : Array BitSet) (count : Nat) :
    pad sets count = sets ++ Array.replicate count ∅ := by
  induction count generalizing sets with
  | zero => simp [pad]
  | succ count ih =>
    rw [pad, ih]
    simp [Array.replicate_succ']

theorem getD_pad (sets : Array BitSet) (count point : Nat) :
    (pad sets count).getD point ∅ = sets.getD point ∅ := by
  rw [pad_eq, Array.getD_eq_getD_getElem?, Array.getD_eq_getD_getElem?, Array.getElem?_append]
  split
  · rfl
  · rename_i beyond
    rw [Array.getElem?_replicate, Array.getElem?_eq_none (by omega)]
    split <;> rfl

/-- A memo knows nothing at first. -/
theorem knows_blank (point offset : Nat) : blank.knows point offset = false := by
  simp [knows, blank, BitSet.contains_empty]

/-- A memo with a note knows of that pair and of what it knew before. -/
theorem knows_insert (memo : Memo) (point offset other position : Nat) :
    (memo.insert point offset).knows other position =
      (decide (other = point ∧ position = offset) || memo.knows other position) := by
  generalize padded : pad memo.closed (point + 1 - memo.closed.size) = wide
  have room : point < wide.size := by
    rw [← padded, pad_eq, Array.size_append, Array.size_replicate]
    omega
  have same : wide.getD other ∅ = memo.closed.getD other ∅ := by
    rw [← padded, getD_pad]
  have inserted : (memo.insert point offset).knows other position =
      ((wide.modify point (·.insert offset)).getD other ∅).contains position := by
    rw [← padded]
    rfl
  rw [inserted, knows, ← same]
  by_cases here : other = point
  · subst here
    have changed : (wide.modify other (·.insert offset)).getD other ∅ =
        (wide.getD other ∅).insert offset := by
      simp [Array.getD_eq_getD_getElem?, Array.getElem_modify, room]
    simp [changed, BitSet.contains_insert]
  · have kept : (wide.modify point (·.insert offset)).getD other ∅ = wide.getD other ∅ := by
      simp [Array.getD_eq_getD_getElem?, Array.getElem?_modify, Ne.symm here]
    simp [kept, here]

end Memo

end TableLexer.Pattern
