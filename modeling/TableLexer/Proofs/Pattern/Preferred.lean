/-
**Which of its matches a pattern prefers.**

A pattern whose loops take a character finds what a run of its plan finds. In a run, a set that is repeated
greedily takes all of its characters that stand there, if nothing that follows can fail; a set that is repeated
lazily stops at the first place from which what follows goes on.

* `Regex.find?_eq_run`: the match that an anchored pattern finds is that of a run.
* `Plan.runThrough_greedy`, `Plan.runThrough_lazy`: how many characters of a set a run takes.
* `Regex.find?_lazily`: the match of a mark, and then lazily up to what comes last.
-/

import TableLexer.Pattern.Explained
import TableLexer.Proofs.Pattern.Openings

namespace TableLexer.Pattern

/-- A pattern that is tried at the start of the text only finds what a run of its plan finds. -/
theorem Regex.find?_eq_run {body : Node} (takes : body.atStart.loopsTakeChars = true) (text : List Char) :
    (ofNode body.atStart).find? text = (body.atStart.plan.run some (.start text)).map (.upTo 0) :=
  (Node.find?_plan takes true text).trans rfl

namespace Plan

variable {set : CharSet} {next : Place → Option Place} {place ended : Place} {text : List Char}

/-- Where nothing that follows can fail, a set that is repeated greedily takes all its characters. -/
theorem runThrough_greedy (set : CharSet) (ahead : place.rest = text) :
    runThrough true set some text place =
      some (place.past (text.takeWhile set.contains) (text.dropWhile set.contains)) := by
  induction text generalizing place with
  | nil => exact congrArg some (ahead ▸ place.past_nil).symm
  | cons c rest ih =>
    rw [runThrough]
    by_cases inside : set.contains c
    · have further : (place.advance c rest).rest = rest := rfl
      have whole := List.takeWhile_append_dropWhile (p := set.contains) (l := rest)
      rw [if_pos inside, ih further, List.takeWhile_cons_of_pos inside, List.dropWhile_cons_of_pos inside,
        ← place.past_advance, whole]
      rfl
    · rw [if_neg inside, List.takeWhile_cons_of_neg inside, List.dropWhile_cons_of_neg inside, ← ahead]
      exact congrArg some place.past_nil.symm

/-- A set that is repeated lazily stops at the first place from which what follows goes on. -/
theorem runThrough_lazy {front back : List Char} (ahead : place.rest = front ++ back)
    (inside : ∀ c ∈ front, set.contains c = true)
    (earlier : ∀ less more, front = less ++ more → more ≠ [] →
      next (place.past less (more ++ back)) = none)
    (goes_on : next (place.past front back) = some ended) :
    runThrough false set next (front ++ back) place = some ended := by
  induction front generalizing place with
  | nil =>
    have here : next place = some ended := by
      rw [← goes_on, ← place.past_nil, ahead]
      rfl
    cases back with
    | nil => exact here
    | cons c rest =>
      rw [List.nil_append, runThrough, here]
      split <;> rfl
  | cons c more ih =>
    obtain ⟨first, others⟩ := List.forall_mem_cons.mp inside
    have not_here : next place = none := by
      rw [← earlier [] (c :: more) rfl (List.cons_ne_nil c more), ← ahead, place.past_nil]
    have later : runThrough false set next (more ++ back) (place.advance c (more ++ back)) = some ended := by
      refine ih rfl others (fun less rest split some_rest => ?_) (by rwa [place.past_advance])
      have further := earlier (c :: less) rest (congrArg (c :: ·) split) some_rest
      rwa [← place.past_advance, ← List.append_assoc, ← split] at further
    rw [List.cons_append, runThrough, if_pos first, later, not_here]
    rfl

end Plan

/-- Behind a mark at the start of the text, a set that is repeated lazily stops at the first place from which the
last part of the pattern goes on. -/
theorem Regex.find?_lazily {body : Node} {mark front closing rest text : List Char} {set : CharSet} {point : Nat}
    {last : Plan} (takes : body.atStart.loopsTakeChars = true)
    (form : body.atStart.plan =
      .seq (.look .textStart) (.seq (.literal mark) (.seq (.many point false set) last)))
    (whole : text = mark ++ (front ++ (closing ++ rest))) (inside : ∀ c ∈ front, set.contains c = true)
    (earlier : ∀ less more, front = less ++ more → more ≠ [] →
      last.run some ((Place.start text).past (mark ++ less) (more ++ (closing ++ rest))) = none)
    (goes_on : last.run some ((Place.start text).past (mark ++ front) (closing ++ rest)) =
      some ((Place.start text).past (mark ++ (front ++ closing)) rest)) :
    (ofNode body.atStart).find? text = some (.ofFirst (mark ++ (front ++ closing))) := by
  have behind : (Place.start text).after? mark =
      some ((Place.start text).past mark (front ++ (closing ++ rest))) :=
    Place.after?_eq_some_iff.mpr ⟨_, whole, rfl⟩
  have run : (Plan.seq (.look .textStart) (.seq (.literal mark) (.seq (.many point false set) last))).run some
      (.start text) = some ((Place.start text).past (mark ++ (front ++ closing)) rest) := by
    show (((Place.start text).after? mark).bind fun place =>
      Plan.runThrough false set (last.run some) place.rest place) = _
    rw [behind, Option.bind_some]
    refine Plan.runThrough_lazy rfl inside (fun less more split some_more => ?_) (by rwa [Place.past_past])
    have there := earlier less more split some_more
    have parts : front ++ (closing ++ rest) = less ++ (more ++ (closing ++ rest)) := by
      rw [split, List.append_assoc]
    rwa [parts, Place.past_past]
  rw [find?_eq_run takes, form, run, Option.map_some]
  exact congrArg some (upTo_past ..)

end TableLexer.Pattern
