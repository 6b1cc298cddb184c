/-
**Tables from any constructor.**

A cache can be asked with any constructor of tables. A constructor may succeed or fail, it may look at the world and
change it, and it need not do the same twice. It is run where nothing is kept under the key yet, and what it comes to
is kept. A language is the constructor that builds its description and does nothing else.

* `TableCache.getOrRun`, `Call.on`: the call with a constructor.
* `Call.on_of_some`, `Call.on_of_none`: what one call does.
* `Call.on_ofLanguage`: the call with a language is a case of it.
* `slot?_on`, `slot?_after_append`, `isBuilt_after_iff`: what is kept after one call, and after calls.
* `first_constructor_is_kept`: which constructors are run, and what calls answer.
-/

import Mathlib.Data.List.Induction
import TableLexer.Language

namespace TableLexer

variable {σ : Type}

namespace TableCache

/-- One more slot is what is kept under its key, unless something else is. -/
theorem slot?_concat (cache : TableCache) (slot : Slot) (key : String) :
    ({ slots := cache.slots ++ [slot] } : TableCache).slot? key =
      (cache.slot? key).or (if slot.key = key then some slot else none) := by
  show (cache.slots ++ [slot]).find? (·.key == key) = _
  rw [List.find?_append]
  refine congrArg (Option.or _) ?_
  by_cases same : slot.key = key
  · rw [if_pos same]
    exact List.find?_cons_of_pos (beq_iff_eq.mpr same)
  · rw [if_neg same]
    exact List.find?_cons_of_neg (by simpa using same)

/-- The table kept under the key. Where none is kept yet, the constructor is run and what it comes to is kept. -/
def getOrRun (cache : TableCache) (key : String) (language : Language)
    (construct : StateM σ (Except BuildError Table)) :
    StateM σ (Except BuildError SharedTable × TableCache) :=
  match cache.slot? key with
  | some slot => pure (slot.outcome, cache)
  | none => do
    let built ← construct
    let outcome := built.map (⟨cache.slots.length, ·⟩)
    return (outcome, { slots := cache.slots ++ [⟨key, language, outcome⟩] })

end TableCache

/-! ### One call -/

/-- A call of a cache: the key, the constructor, and the language that it is for. -/
structure Call (σ : Type) where
  key : String
  language : Language
  construct : StateM σ (Except BuildError Table)

/-- A cache and the world in which constructors are run. -/
structure Scene (σ : Type) where
  cache : TableCache := {}
  world : σ

namespace Call

variable (call : Call σ) (scene : Scene σ)

/-- What the call answers, and what it leaves behind. -/
def on : Except BuildError SharedTable × Scene σ :=
  let ((outcome, cache), world) :=
    (scene.cache.getOrRun call.key call.language call.construct).run scene.world
  (outcome, { cache, world })

/-- What the constructor of the call comes to. -/
def built : Except BuildError Table := (call.construct.run scene.world).1

/-- What is kept when the constructor of the call is run. -/
def newSlot : Slot :=
  ⟨call.key, call.language, (call.built scene).map (⟨scene.cache.slots.length, ·⟩)⟩

variable {call scene}

/-- Where something is kept, it is the answer, and nothing happens. -/
theorem on_of_some {slot : Slot} (kept : scene.cache.slot? call.key = some slot) :
    call.on scene = (slot.outcome, scene) := by
  unfold on TableCache.getOrRun
  rw [kept]
  rfl

/-- Where nothing is kept, the constructor is run once. -/
theorem on_of_none (unbuilt : scene.cache.slot? call.key = none) :
    call.on scene = ((call.newSlot scene).outcome,
      { cache := { slots := scene.cache.slots ++ [call.newSlot scene] }
        world := (call.construct.run scene.world).2 }) := by
  unfold on TableCache.getOrRun
  rw [unbuilt]
  rfl

/-- What is kept stays, and where nothing was kept under the key of the call there is what it built. -/
theorem slot?_on (key : String) :
    (call.on scene).2.cache.slot? key =
      (scene.cache.slot? key).or (if call.key = key then some (call.newSlot scene) else none) := by
  cases found : scene.cache.slot? call.key with
  | some slot =>
    rw [on_of_some found]
    by_cases same : call.key = key
    · rw [← same, found]
      rfl
    · rw [if_neg same, Option.or_none]
  | none =>
    rw [on_of_none found]
    exact scene.cache.slot?_concat (call.newSlot scene) key

/-- A table that is built is numbered after all that are kept. -/
theorem serial_of_newSlot {shared : SharedTable} (same : (call.newSlot scene).outcome = .ok shared) :
    shared.serial = scene.cache.slots.length := by
  unfold newSlot at same
  cases outcome : call.built scene with
  | error => rw [outcome] at same; cases same
  | ok table =>
    rw [outcome] at same
    cases same
    rfl

variable (call scene)

/-- A call answers with what is kept under its key afterwards. -/
theorem exists_of_on :
    ∃ slot, (call.on scene).2.cache.slot? call.key = some slot ∧ (call.on scene).1 = slot.outcome := by
  rw [slot?_on, if_pos rfl]
  cases found : scene.cache.slot? call.key with
  | some slot => exact ⟨slot, rfl, by rw [on_of_some found]⟩
  | none => exact ⟨call.newSlot scene, rfl, by rw [on_of_none found]⟩

/-- The call that builds the description of a language. -/
def ofLanguage (key : String) (language : Language) : Call σ :=
  { key, language, construct := pure language.build }

/-- **To ask with a language** is to make the call that builds its description. -/
theorem on_ofLanguage (cache : TableCache) (world : σ) (key : String) (language : Language) :
    (ofLanguage key language).on { cache, world } =
      ((cache.getOrBuild key language).outcome, { cache := (cache.getOrBuild key language).cache, world }) := by
  unfold TableCache.getOrBuild
  cases kept : cache.slot? key with
  | some slot => exact on_of_some kept
  | none => exact on_of_none kept

end Call

/-! ### Calls -/

namespace Scene

/-- The scene after calls, on a cache that was empty. -/
def after (world : σ) (calls : List (Call σ)) : Scene σ :=
  calls.foldl (fun scene call => (call.on scene).2) { world }

variable {world : σ} {calls : List (Call σ)} {key : String} {slot : Slot}

theorem after_concat (world : σ) (calls : List (Call σ)) (call : Call σ) :
    after world (calls ++ [call]) = (call.on (after world calls)).2 :=
  List.foldl_append

/-- Later calls change nothing of what is kept. -/
theorem slot?_after_append (kept : (after world calls).cache.slot? key = some slot) (more : List (Call σ)) :
    (after world (calls ++ more)).cache.slot? key = some slot := by
  induction more using List.reverseRecOn with
  | nil => rwa [List.append_nil]
  | append_singleton more call ih =>
    rw [← List.append_assoc, after_concat, Call.slot?_on, ih]
    rfl

/-- Calls with other keys keep nothing under a key. -/
theorem slot?_after_of_others (calls : List (Call σ)) {more : List (Call σ)}
    (others : ∀ call ∈ more, call.key ≠ key) :
    (after world (calls ++ more)).cache.slot? key = (after world calls).cache.slot? key := by
  induction more using List.reverseRecOn with
  | nil => rw [List.append_nil]
  | append_singleton more call ih =>
    obtain ⟨earlier, other⟩ := List.forall_mem_append.mp others
    rw [← List.append_assoc, after_concat, Call.slot?_on, ih earlier,
      if_neg (other call List.mem_cons_self), Option.or_none]

/-- Under the key of a call that was made there is what it answered. -/
theorem exists_slot?_after (world : σ) (front : List (Call σ)) (call : Call σ) (back : List (Call σ)) :
    ∃ slot, (after world (front ++ call :: back)).cache.slot? call.key = some slot ∧
      (call.on (after world front)).1 = slot.outcome := by
  obtain ⟨slot, kept, answered⟩ := call.exists_of_on (after world front)
  rw [← after_concat] at kept
  have still := slot?_after_append kept back
  rw [List.append_assoc, List.singleton_append] at still
  exact ⟨slot, still, answered⟩

/-- **Something was built under a key** exactly if there was a call with it, whatever came of that. -/
theorem isBuilt_after_iff :
    (after world calls).cache.isBuilt key = true ↔ ∃ call ∈ calls, call.key = key := by
  unfold TableCache.isBuilt
  constructor
  · contrapose!
    intro others
    have unbuilt : (after world calls).cache.slot? key = none := slot?_after_of_others [] others
    rw [unbuilt]
    exact Bool.false_ne_true
  · rintro ⟨call, made, rfl⟩
    obtain ⟨front, back, rfl⟩ := List.append_of_mem made
    obtain ⟨slot, kept, _⟩ := exists_slot?_after world front call back
    rw [kept]
    rfl

/-- Shared tables that are kept have numbers below that of the next one. -/
theorem serial_lt_after : ∀ slot ∈ (after world calls).cache.slots, ∀ shared, slot.outcome = .ok shared →
    shared.serial < (after world calls).cache.slots.length := by
  induction calls using List.reverseRecOn with
  | nil => exact List.forall_mem_nil _
  | append_singleton calls call ih =>
    rw [after_concat]
    cases found : (after world calls).cache.slot? call.key with
    | some slot =>
      rw [Call.on_of_some found]
      exact ih
    | none =>
      rw [Call.on_of_none found, List.forall_mem_append, List.forall_mem_singleton, List.length_append]
      refine ⟨fun slot kept shared same => Nat.lt_succ_of_lt (ih slot kept shared same), ?_⟩
      intro shared same
      rw [Call.serial_of_newSlot same]
      exact Nat.lt_succ_self _

end Scene

/-! ### What calls answer -/

/-- **The first constructor is kept.** After any calls on a new cache, each with any key and any constructor:

* a call whose key is new runs its constructor, once, and answers what that comes to; if it is a table, it is shared
  with no key before;
* a call whose key was used runs nothing, changes nothing and answers just what the earlier ones with the key did;
* calls with other keys change nothing of what is kept under a key;
* something is built under a key exactly if there was a call with it.

To ask with a language is the case of a constructor that builds the description of the language. -/
theorem first_constructor_is_kept (world : σ) (earlier : List (Call σ)) (call : Call σ) :
    let scene := Scene.after world earlier
    ((∀ other ∈ earlier, other.key ≠ call.key) →
      (call.on scene).1.map SharedTable.table = call.built scene ∧
      (call.on scene).2.world = (call.construct.run scene.world).2 ∧
      ∀ shared, (call.on scene).1 = .ok shared → ∀ slot ∈ scene.cache.slots, ∀ kept,
        slot.outcome = .ok kept → kept.serial ≠ shared.serial) ∧
    (∀ front other back, earlier = front ++ other :: back → other.key = call.key →
      call.on scene = ((other.on (Scene.after world front)).1, scene)) ∧
    (∀ others key, (∀ other ∈ others, other.key ≠ key) →
      (Scene.after world (earlier ++ others)).cache.slot? key = scene.cache.slot? key) ∧
    (∀ key, scene.cache.isBuilt key = true ↔ ∃ other ∈ earlier, other.key = key) ∧
    ∀ (cache : TableCache) (world : σ) (key : String) (language : Language),
      (Call.ofLanguage key language).on { cache, world } =
        ((cache.getOrBuild key language).outcome, { cache := (cache.getOrBuild key language).cache, world }) := by
  intro scene
  refine ⟨fun unused => ?first, fun front other back split same => ?later,
    fun others key apart => Scene.slot?_after_of_others earlier apart, fun key => Scene.isBuilt_after_iff,
    Call.on_ofLanguage⟩
  case first =>
    have unbuilt : scene.cache.slot? call.key = none := by
      rw [← Option.not_isSome_iff_eq_none]
      intro built
      obtain ⟨other, made, same⟩ := Scene.isBuilt_after_iff.mp built
      exact unused other made same
    rw [Call.on_of_none unbuilt]
    refine ⟨?_, rfl, ?_⟩
    · show ((call.built scene).map _).map SharedTable.table = _
      cases call.built scene <;> rfl
    · intro shared same slot kept_slot kept same_kept
      rw [Call.serial_of_newSlot same]
      exact Nat.ne_of_lt (Scene.serial_lt_after slot kept_slot kept same_kept)
  case later =>
    obtain ⟨slot, kept, answered⟩ := Scene.exists_slot?_after world front other back
    rw [← split, same] at kept
    rw [Call.on_of_some kept, answered]

/-- Of calls with one key, a constructor that fails and counts how often it is run is run once. -/
example :
    let failing : Call Nat :=
      { key := "X"
        language := { descriptor := { name := "X" }, source := { states := [] } }
        construct := fun count => (.error (.unknownLanguage "X"), count + 1) }
    (Scene.after 0 [failing, failing, failing]).world = 1 := by
  decide

end TableLexer
