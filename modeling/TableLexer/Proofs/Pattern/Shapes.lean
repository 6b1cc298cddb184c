/-
**Which texts a pattern takes.**

More about what a pattern matches can be read off its plan: where the plan takes one of a few words, those
words; whether what it takes ends in a character of a kind; what holds behind it; and for a set that is
repeated greedily, all of the match.

* `Leads.mem_of_words?`: what a plan takes is one of its words.
* `Leads.endsIn`: what a plan takes ends in a character of a kind.
* `Regex.leads_over`: an anchored pattern leads from the start of the text to the end of the match.
* `Regex.forall_passes`, `Regex.mem_of_words?`, `Regex.not_word_behind`: what is matched at the start of a
  text, and what stands behind it.
* `Regex.find?_of_greedySet?`: a set that is repeated greedily takes all of its characters.
-/

import TableLexer.Proofs.Pattern.Chars
import TableLexer.Proofs.Text.Cuts

namespace TableLexer.Pattern

namespace Plan

variable {plan : Plan} {place ended : Place}

/-! ### Words -/

/-- The words that the plan takes, if it takes no others. -/
def words? : Plan → Option (List (List Char))
  | empty | look _ | gate _ => some [[]]
  | literal text => some [text]
  | seq first second =>
    match first.words?, second.words? with
    | some front, some back => some (front.flatMap fun word => back.map (word ++ ·))
    | _, _ => none
  | alt _ first second =>
    match first.words?, second.words? with
    | some words, some others => some (words ++ others)
    | _, _ => none
  | group _ body => body.words?
  | one _ | many _ _ _ | loop _ _ _ => none

theorem Leads.mem_of_words? {words : List (List Char)} (known : plan.words? = some words)
    (leads : plan.Leads place ended) : ∃ taken ∈ words, place.Takes taken ended := by
  induction leads generalizing words with
  | empty | gate | look =>
    cases known
    exact ⟨[], List.mem_cons_self, .refl _⟩
  | literal found =>
    cases known
    exact ⟨_, List.mem_cons_self, (Place.Takes.after? found).1⟩
  | seq _ _ front_ih back_ih =>
    rw [words?] at known
    split at known
    · rename_i front back front_words back_words
      cases known
      obtain ⟨taken, member, one⟩ := front_ih front_words
      obtain ⟨more, other_member, other⟩ := back_ih back_words
      exact ⟨taken ++ more, List.mem_flatMap.mpr ⟨taken, member, List.mem_map_of_mem other_member⟩,
        one.trans other⟩
    · cases known
  | altFirst _ ih =>
    rw [words?] at known
    split at known
    · rename_i first_words _
      cases known
      obtain ⟨taken, member, takes⟩ := ih first_words
      exact ⟨taken, List.mem_append_left _ member, takes⟩
    · cases known
  | altSecond _ ih =>
    rw [words?] at known
    split at known
    · rename_i _ second_words
      cases known
      obtain ⟨taken, member, takes⟩ := ih second_words
      exact ⟨taken, List.mem_append_right _ member, takes⟩
    · cases known
  | group _ ih =>
    obtain ⟨taken, member, takes⟩ := ih known
    exact ⟨taken, member, takes.close ..⟩
  | _ => cases known

/-! ### Ends -/

/-- What was taken ends in a character of the kind, or nothing was, and this held before. -/
def endsAfter (test : CharTest) (already : Bool) (taken : List Char) : Bool :=
  (taken.getLast?.map test.passes).getD already

theorem endsAfter_false (test : CharTest) (taken : List Char) :
    endsAfter test false taken = taken.getLast?.any test.passes := by
  unfold endsAfter
  cases taken.getLast? <;> rfl

theorem endsAfter_append (test : CharTest) (already : Bool) (taken more : List Char) :
    endsAfter test already (taken ++ more) = endsAfter test (endsAfter test already taken) more := by
  unfold endsAfter
  rw [List.getLast?_append]
  cases more.getLast? <;> rfl

/-- Whatever the plan takes ends in a character of the kind, or nothing is taken, and this held before. -/
def endsIn (test : CharTest) : Plan → Bool → Bool
  | empty, already | look _, already | gate _, already => already
  | literal text, already => endsAfter test already text
  | one set, _ => test.admits set
  | many _ _ set, already => already && test.admits set
  | seq first second, already => second.endsIn test (first.endsIn test already)
  | alt _ first second, already => first.endsIn test already && second.endsIn test already
  | loop _ _ body, already => already && body.endsIn test already
  | group _ body, already => body.endsIn test already

theorem Leads.endsIn {test : CharTest} {known already : Bool} (here : known = true → already = true)
    (ends : plan.endsIn test known = true) (leads : plan.Leads place ended) :
    ∃ taken, place.Takes taken ended ∧ endsAfter test already taken = true := by
  have single {set : CharSet} {d : Char} (before : Bool) (admitted : test.admits set = true)
      (inside : set.contains d = true) : endsAfter test before [d] = true :=
    test.sound set admitted d inside
  induction leads generalizing known already with
  | empty place | gate _ place => exact ⟨[], .refl place, here ends⟩
  | look => exact ⟨[], .refl _, here ends⟩
  | manyStop _ _ _ place | loopStop _ _ _ place =>
    exact ⟨[], .refl place, here ((Bool.and_eq_true _ _).mp ends).1⟩
  | @literal text _ _ found =>
    refine ⟨text, (Place.Takes.after? found).1, ?_⟩
    have ends : endsAfter test known text = true := ends
    unfold endsAfter at ends ⊢
    cases last : text.getLast? with
    | none => rw [last] at ends; exact here ends
    | some => rw [last] at ends; exact ends
  | one found =>
    obtain ⟨d, inside, takes, _⟩ := Place.Takes.afterOne? found
    exact ⟨[d], takes, single already ends inside⟩
  | @seq first second _ _ _ front _ front_ih back_ih =>
    have ends : second.endsIn test (first.endsIn test known) = true := ends
    -- If nothing is known behind the first part, what the second takes does not depend on it.
    cases middle : first.endsIn test known with
    | true =>
      obtain ⟨taken, one, passes⟩ := front_ih here middle
      obtain ⟨more, other, further⟩ := back_ih (fun _ => passes) ends
      exact ⟨taken ++ more, one.trans other, (endsAfter_append ..).trans further⟩
    | false =>
      obtain ⟨taken, one⟩ := front.takes
      rw [middle] at ends
      obtain ⟨more, other, further⟩ := back_ih (fun known => absurd known Bool.false_ne_true) ends
      exact ⟨taken ++ more, one.trans other, (endsAfter_append ..).trans further⟩
  | altFirst _ ih => exact ih here ((Bool.and_eq_true _ _).mp ends).1
  | altSecond _ ih => exact ih here ((Bool.and_eq_true _ _).mp ends).2
  | manyMore found _ ih =>
    obtain ⟨d, inside, one, _⟩ := Place.Takes.afterOne? found
    have passes := single already ((Bool.and_eq_true _ _).mp ends).2 inside
    obtain ⟨more, other, further⟩ := ih (fun _ => passes) ends
    exact ⟨[d] ++ more, one.trans other, (endsAfter_append ..).trans further⟩
  | loopMore _ _ round_ih more_ih =>
    obtain ⟨held, body⟩ := (Bool.and_eq_true _ _).mp ends
    obtain ⟨taken, one, passes⟩ := round_ih here body
    obtain ⟨more, other, further⟩ := more_ih (fun _ => passes) ends
    exact ⟨taken ++ more, one.trans other, (endsAfter_append ..).trans further⟩
  | group _ ih =>
    obtain ⟨taken, takes, passes⟩ := ih here ends
    exact ⟨taken, takes.close .., passes⟩

/-! ### What holds at the end -/

/-- The assertion that the plan tests last, if it ends in one. -/
def lastLook? : Plan → Option Assertion
  | look assertion => some assertion
  | seq _ second => second.lastLook?
  | _ => none

theorem Leads.holds_of_lastLook? {assertion : Assertion} (known : plan.lastLook? = some assertion)
    (leads : plan.Leads place ended) : assertion.holds ended = true := by
  induction leads with
  | look holds =>
    cases known
    exact holds
  | seq _ _ _ back_ih => exact back_ih known
  | _ => cases known

/-! ### Greedy sets -/

/-- The set of which the plan takes as many characters as it can, and one at least. -/
def greedySet? : Plan → Option CharSet
  | seq (look .textStart) (seq empty (seq (one set) (many _ true more))) =>
    if set = more then some set else none
  | _ => none

theorem exists_of_greedySet? {set : CharSet} (known : plan.greedySet? = some set) :
    ∃ point, plan = seq (look .textStart) (seq empty (seq (one set) (many point true set))) := by
  unfold greedySet? at known
  split at known
  · rename_i first point more
    split at known
    · rename_i same
      cases same
      cases known
      exact ⟨point, rfl⟩
    · cases known
  · cases known

/-- Where nothing that follows can fail, all characters of a set are taken. -/
theorem exists_found_of_through (point : Nat) (set : CharSet) {rest : List Char} {memo : Memo}
    (here : place.rest = rest) (fresh : ∀ offset, memo.knows point offset = false) :
    ∃ ended, through point true set (fun ended _ => .found ended) rest place memo = .found ended ∧
      place.Takes (rest.takeWhile set.contains) ended := by
  induction rest generalizing place with
  | nil =>
    refine ⟨place, ?_, .refl place⟩
    rw [through, Outcome.fromPoint, fresh]
    rfl
  | cons c rest ih =>
    rw [through, Outcome.fromPoint, fresh]
    by_cases inside : set.contains c
    · have further : (place.advance c rest).rest = rest := rfl
      obtain ⟨ended, found, takes⟩ := ih further
      refine ⟨ended, ?_, ?_⟩
      · simp [inside, Outcome.inOrder, found, Outcome.orElse]
      · rw [List.takeWhile_cons_of_pos inside]
        exact (Place.Takes.advance here).trans takes
    · refine ⟨place, ?_, ?_⟩
      · simp [inside]
      · rw [List.takeWhile_cons_of_neg inside]
        exact .refl place

end Plan

namespace Regex

variable {regex : Regex}

/-- A set that is repeated greedily takes all of its characters that stand at the start of the text. -/
theorem find?_of_greedySet? {set : CharSet} (anchored : regex.anchored = true)
    (greedy : regex.plan.greedySet? = some set) (text : List Char) :
    (regex.find? text).map Match.span =
      let taken := text.takeWhile set.contains
      if taken.isEmpty then none else some ⟨0, Text.byteLength taken⟩ := by
  obtain ⟨point, shape⟩ := Plan.exists_of_greedySet? greedy
  show (regex.plan.find? regex.anchored text).map Match.span = _
  rw [shape, anchored, Plan.find?, if_pos rfl]
  cases text with
  | nil => rfl
  | cons c rest =>
    -- The first character is taken by itself, and then all others that belong to the set.
    have explored :
        (Plan.seq (.look .textStart) (.seq .empty (.seq (.one set) (.many point true set)))).matchFrom
          (.start (c :: rest)) .blank =
        if set.contains c then
          Plan.through point true set (fun ended _ => .found ended) rest
            ((Place.start (c :: rest)).advance c rest) .blank
        else .failed .blank := by
      show Plan.goOn _ (if set.contains c then _ else none) _ = _
      split <;> rfl
    rw [explored]
    by_cases inside : set.contains c
    · have further : ((Place.start (c :: rest)).advance c rest).rest = rest := rfl
      obtain ⟨ended, found, takes⟩ :=
        Plan.exists_found_of_through point set further (Memo.knows_blank point)
      rw [if_pos inside, found, List.takeWhile_cons_of_pos inside]
      show some (Span.mk 0 ended.offset) = some ⟨0, _⟩
      rw [takes.offset]
      show some (Span.mk 0 (0 + c.utf8Size + _)) = _
      rw [Nat.zero_add]
      rfl
    · rw [if_neg inside, List.takeWhile_cons_of_neg inside]
      rfl

/-- A set that is repeated greedily is matched where one of its characters stands first. -/
theorem exists_find?_of_greedySet? {set : CharSet} (anchored : regex.anchored = true)
    (greedy : regex.plan.greedySet? = some set) {c : Char} (inside : set.contains c = true)
    (rest : List Char) : ∃ found, regex.find? (c :: rest) = some found ∧ found.length ≠ 0 := by
  have finds := find?_of_greedySet? anchored greedy (c :: rest)
  rw [List.takeWhile_cons_of_pos inside] at finds
  obtain ⟨found, find?_found, span⟩ := Option.map_eq_some_iff.mp finds
  refine ⟨found, find?_found, ?_⟩
  rw [Match.length, span]
  exact Nat.ne_of_gt (Text.byteLength_pos (List.cons_ne_nil c _))

section Over

variable {piece rest : List Char} {found : Match}

/-- An anchored pattern leads from the start of the text over what it matched. -/
theorem leads_over (anchored : regex.anchored = true)
    (find?_found : regex.find? (piece ++ rest) = some found)
    (length : found.length = Text.byteLength piece) :
    ∃ ended, regex.plan.Leads (.start (piece ++ rest)) ended ∧
      (Place.start (piece ++ rest)).Takes piece ended ∧ ended.rest = rest := by
  obtain ⟨start, ended, _, _, same, leads, rfl⟩ := Plan.leads_of_find? find?_found
  obtain rfl := same anchored
  obtain ⟨taken, takes⟩ := leads.takes
  have bytes : Text.byteLength taken = Text.byteLength piece := by
    rw [← length]
    show _ = ended.offset - 0
    rw [takes.offset]
    show _ = 0 + _ - 0
    omega
  obtain ⟨rfl, left⟩ := Text.eq_of_byteLength_eq takes.rest.symm bytes
  exact ⟨ended, leads, takes, left⟩

/-- What is matched at the start of a text passes the test, if the plan takes nothing else. -/
theorem forall_passes {test : CharTest} (anchored : regex.anchored = true)
    (only : regex.plan.takesOnly test = true) (find?_found : regex.find? (piece ++ rest) = some found)
    (length : found.length = Text.byteLength piece) : ∀ c ∈ piece, test.passes c = true := by
  obtain ⟨ended, leads, spans, _⟩ := leads_over anchored find?_found length
  obtain ⟨taken, takes, passes⟩ := leads.forall_passes only
  rwa [spans.eq takes]

/-- What is matched at the start of a text is a word of the pattern, if that has words only. -/
theorem mem_of_words? {words : List (List Char)} (anchored : regex.anchored = true)
    (known : regex.plan.words? = some words) (find?_found : regex.find? (piece ++ rest) = some found)
    (length : found.length = Text.byteLength piece) : piece ∈ words := by
  obtain ⟨ended, leads, spans, _⟩ := leads_over anchored find?_found length
  obtain ⟨taken, member, takes⟩ := leads.mem_of_words? known
  rwa [spans.eq takes]

/-- Behind a match that ends in a word character and at a word boundary stands no word character. -/
theorem not_word_behind (anchored : regex.anchored = true)
    (bounded : regex.plan.lastLook? = some .wordBoundary)
    (find?_found : regex.find? (piece ++ rest) = some found)
    (length : found.length = Text.byteLength piece)
    (word : piece.getLast?.any Text.isWordChar = true) : rest.head?.any Text.isWordChar = false := by
  obtain ⟨ended, leads, spans, left⟩ := leads_over anchored find?_found length
  have boundary := leads.holds_of_lastLook? bounded
  have before : ended.before = piece.getLast? := spans.before.trans (Option.or_none ..)
  simp only [Assertion.holds, Place.afterWordChar, Place.atWordChar, before, left, word] at boundary
  simpa using boundary

/-- A set that is repeated greedily is matched up to the first other character. -/
theorem eq_takeWhile_of_greedySet? {set : CharSet} (anchored : regex.anchored = true)
    (greedy : regex.plan.greedySet? = some set)
    (find?_found : regex.find? (piece ++ rest) = some found)
    (length : found.length = Text.byteLength piece) :
    piece = (piece ++ rest).takeWhile set.contains := by
  have span : some found.span = if ((piece ++ rest).takeWhile set.contains).isEmpty then none
      else some ⟨0, Text.byteLength ((piece ++ rest).takeWhile set.contains)⟩ := by
    rw [← find?_of_greedySet? anchored greedy, find?_found]
    rfl
  split at span
  · cases span
  · have bytes : Text.byteLength piece = Text.byteLength ((piece ++ rest).takeWhile set.contains) := by
      rw [← length, Match.length, Option.some.inj span]
      rfl
    exact (Text.eq_of_byteLength_eq List.takeWhile_append_dropWhile.symm bytes).1

/-- Of a set that is repeated greedily no character is left behind the match. -/
theorem not_contains_behind {set : CharSet} (anchored : regex.anchored = true)
    (greedy : regex.plan.greedySet? = some set)
    (find?_found : regex.find? (piece ++ rest) = some found)
    (length : found.length = Text.byteLength piece) :
    (∀ c ∈ piece, set.contains c = true) ∧ rest.head?.any set.contains = false := by
  have all := eq_takeWhile_of_greedySet? anchored greedy find?_found length
  have inside : ∀ c ∈ piece, set.contains c = true := fun c member => by
    rw [all] at member
    exact List.all_eq_true.mp List.all_takeWhile c member
  refine ⟨inside, ?_⟩
  rw [List.takeWhile_append_of_pos inside] at all
  have none_left : rest.takeWhile set.contains = [] := by simpa using all
  cases rest with
  | nil => rfl
  | cons c rest => simpa [List.takeWhile_cons] using none_left

end Over

end Regex

end TableLexer.Pattern
