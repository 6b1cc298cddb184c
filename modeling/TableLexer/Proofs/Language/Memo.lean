/-
**What a cache of tables keeps.**

A cache keeps what was built first under each key, whether that succeeded or failed. What is asked for under
other keys, or later, changes nothing of it.

* `slot?_getOrBuild`: what is kept after one call.
* `language_after`, `slot?_after_append`: what is kept after calls.
* `outcome_of_after`: what a call answers.
-/

import TableLexer.Proofs.Language.Constructors

namespace TableLexer

/-- The slot holds what the description of its language gives. -/
def Slot.Honest (slot : Slot) : Prop := slot.outcome.map SharedTable.table = slot.language.build

namespace TableCache

/-! ### One call -/

section Call

variable (cache : TableCache) (key : String) (language : Language)

/-- What is built under the key when nothing is kept under it. -/
def newSlot : Slot := ⟨key, language, language.build.map (⟨cache.slots.length, ·⟩)⟩

variable {cache key}

theorem getOrBuild_of_some {slot : Slot} (kept : cache.slot? key = some slot) :
    cache.getOrBuild key language = { outcome := slot.outcome, cache, records := [] } := by
  unfold getOrBuild
  rw [kept]

theorem getOrBuild_of_none (unbuilt : cache.slot? key = none) :
    cache.getOrBuild key language =
      { outcome := (cache.newSlot key language).outcome
        cache := { slots := cache.slots ++ [cache.newSlot key language] }
        records := buildRecords key language language.build } := by
  unfold getOrBuild
  rw [unbuilt]
  rfl

variable (cache key)

/-- To ask with a language is to make a call. -/
theorem getOrBuild_eq_on :
    (cache.getOrBuild key language).outcome = ((Call.ofLanguage key language).on { cache, world := () }).1 ∧
      (cache.getOrBuild key language).cache =
        ((Call.ofLanguage key language).on { cache, world := () }).2.cache := by
  rw [Call.on_ofLanguage]
  exact ⟨rfl, rfl⟩

/-- What is kept stays, and where nothing was kept under the key of the call there is what it built. -/
theorem slot?_getOrBuild (other : String) :
    (cache.getOrBuild key language).cache.slot? other =
      (cache.slot? other).or (if key = other then some (cache.newSlot key language) else none) := by
  rw [(cache.getOrBuild_eq_on key language).2]
  exact Call.slot?_on other

/-- A call answers with what is kept under its key afterwards. -/
theorem exists_of_getOrBuild :
    ∃ slot, (cache.getOrBuild key language).cache.slot? key = some slot ∧
      (cache.getOrBuild key language).outcome = slot.outcome := by
  obtain ⟨outcome, after⟩ := cache.getOrBuild_eq_on key language
  rw [outcome, after]
  exact Call.exists_of_on _ _

end Call

/-! ### Calls -/

theorem honest_newSlot (cache : TableCache) (key : String) (language : Language) :
    (cache.newSlot key language).Honest := by
  unfold Slot.Honest newSlot
  cases language.build <;> rfl

/-- The cache after calls, each of a key and a language, on a cache that was empty. -/
def after (calls : List (String × Language)) : TableCache :=
  calls.foldl (fun cache call => (cache.getOrBuild call.1 call.2).cache) {}

theorem after_concat (calls : List (String × Language)) (key : String) (language : Language) :
    after (calls ++ [(key, language)]) = ((after calls).getOrBuild key language).cache :=
  List.foldl_append

/-- What is kept under a key is of the language of the first call with that key. -/
theorem language_after (calls : List (String × Language)) (key : String) :
    ((after calls).slot? key).map Slot.language = (calls.find? (·.1 == key)).map Prod.snd := by
  induction calls using List.reverseRecOn with
  | nil => rfl
  | append_singleton calls call ih =>
    obtain ⟨used, language⟩ := call
    rw [after_concat, slot?_getOrBuild, List.find?_append, Option.map_or, Option.map_or, ih]
    refine congrArg (Option.or _) ?_
    by_cases same : used = key
    · rw [if_pos same, List.find?_cons_of_pos (by simpa using same)]
      rfl
    · rw [if_neg same, List.find?_cons_of_neg (by simpa using same)]
      rfl

theorem honest_after (calls : List (String × Language)) :
    ∀ slot ∈ (after calls).slots, slot.Honest := by
  induction calls using List.reverseRecOn with
  | nil => exact List.forall_mem_nil _
  | append_singleton calls call ih =>
    rw [after_concat]
    cases found : (after calls).slot? call.1 with
    | some slot =>
      rw [getOrBuild_of_some call.2 found]
      exact ih
    | none =>
      rw [getOrBuild_of_none call.2 found]
      refine List.forall_mem_append.mpr ⟨ih, ?_⟩
      exact List.forall_mem_singleton.mpr (honest_newSlot _ _ _)

/-- Later calls change nothing of what is kept. -/
theorem slot?_after_append {calls : List (String × Language)} {key : String} {slot : Slot}
    (kept : (after calls).slot? key = some slot) (more : List (String × Language)) :
    (after (calls ++ more)).slot? key = some slot := by
  induction more using List.reverseRecOn with
  | nil => rwa [List.append_nil]
  | append_singleton more call ih =>
    rw [← List.append_assoc, after_concat, slot?_getOrBuild, ih]
    rfl

/-- A call answers what the language of the first call with its key gives, be that an earlier call or
itself. -/
theorem outcome_of_after (calls : List (String × Language)) (key : String) (language : Language) :
    ∃ slot first, (after (calls ++ [(key, language)])).slot? key = some slot ∧
      ((after calls).getOrBuild key language).outcome = slot.outcome ∧
      (calls ++ [(key, language)]).find? (·.1 == key) = some first ∧
      slot.outcome.map SharedTable.table = first.2.build := by
  obtain ⟨slot, kept, outcome⟩ := exists_of_getOrBuild (after calls) key language
  rw [← after_concat] at kept
  have first := language_after (calls ++ [(key, language)]) key
  rw [kept] at first
  obtain ⟨call, found, same⟩ := Option.map_eq_some_iff.mp first.symm
  have honest := honest_after _ slot (List.mem_of_find?_eq_some kept)
  exact ⟨slot, call, kept, outcome, found, same ▸ honest⟩

end TableCache

end TableLexer
