/-
**Where a plan leads.**

`Plan.Leads` says from which place to which other a plan may lead: it knows of no order of preference and
of no memo, and passes every gate. Whatever a search finds lies where the plan leads.

* `Plan.leads_of_explore`: a search that succeeds has come to a place to which the plan leads.
* `Plan.leads_of_find?`: the match that a search finds runs from a place of the text to one to which the
  plan leads, and an anchored plan is only tried where the text begins.
* `Regex.within_of_find?`: the match and its groups begin and end between characters of the text.
-/

import TableLexer.Pattern.Explained
import TableLexer.Pattern.Regex

namespace TableLexer.Pattern

/-! ### What lies between two places -/

/-- The text `taken` lies between the two places. -/
structure Place.Takes (place : Place) (taken : List Char) (ended : Place) : Prop where
  rest : place.rest = taken ++ ended.rest
  offset : ended.offset = place.offset + Text.byteLength taken
  before : ended.before = taken.getLast?.or place.before

namespace Place.Takes

variable {place middle ended : Place} {taken more : List Char}

theorem refl (place : Place) : place.Takes [] place := ⟨rfl, rfl, rfl⟩

theorem trans (one : place.Takes taken middle) (other : middle.Takes more ended) :
    place.Takes (taken ++ more) ended where
  rest := by rw [one.rest, other.rest, List.append_assoc]
  offset := by rw [other.offset, one.offset, Text.byteLength_append, Nat.add_assoc]
  before := by
    rw [other.before, one.before, List.getLast?_append]
    cases more.getLast? <;> rfl

theorem advance {c : Char} {rest : List Char} (ahead : place.rest = c :: rest) :
    place.Takes [c] (place.advance c rest) :=
  ⟨ahead, by simp [Place.advance, Text.byteLength], rfl⟩

theorem close (takes : place.Takes taken ended) (index start : Nat) :
    place.Takes taken (ended.close index start) := ⟨takes.rest, takes.offset, takes.before⟩

/-- Only one text lies between two places. -/
theorem eq (one : place.Takes taken ended) (other : place.Takes more ended) : taken = more :=
  List.append_cancel_right (one.rest.symm.trans other.rest)

theorem after? {word : List Char} (found : place.after? word = some ended) :
    place.Takes word ended ∧ ended.groups = place.groups := by
  induction word generalizing place with
  | nil =>
    simp only [Place.after?, Option.some.injEq] at found
    subst found
    exact ⟨refl place, rfl⟩
  | cons c word ih =>
    rw [Place.after?] at found
    split at found
    · simp at found
    · rename_i d rest ahead
      split at found
      · rename_i same
        subst same
        obtain ⟨takes, groups⟩ := ih found
        exact ⟨(advance ahead).trans takes, groups⟩
      · simp at found

theorem afterOne? {set : CharSet} (found : place.afterOne? set = some ended) :
    ∃ c, set.contains c = true ∧ place.Takes [c] ended ∧ ended.groups = place.groups := by
  rw [Place.afterOne?] at found
  split at found
  · simp at found
  · rename_i c rest ahead
    split at found
    · rename_i member
      simp only [Option.some.injEq] at found
      subst found
      exact ⟨c, member, advance ahead, rfl⟩
    · simp at found

end Place.Takes

namespace Plan

/-! ### The relation -/

/-- The plan may lead from one place to the other. -/
inductive Leads : Plan → Place → Place → Prop where
  | empty (place : Place) : Leads empty place place
  | literal {text : List Char} {place ended : Place} (found : place.after? text = some ended) :
      Leads (literal text) place ended
  | one {set : CharSet} {place ended : Place} (found : place.afterOne? set = some ended) :
      Leads (one set) place ended
  | look {assertion : Assertion} {place : Place} (holds : assertion.holds place = true) :
      Leads (look assertion) place place
  | gate (point : Nat) (place : Place) : Leads (gate point) place place
  | seq {first second : Plan} {place middle ended : Place} (front : Leads first place middle)
      (back : Leads second middle ended) : Leads (seq first second) place ended
  | altFirst {point : Nat} {first second : Plan} {place ended : Place}
      (leads : Leads first place ended) : Leads (alt point first second) place ended
  | altSecond {point : Nat} {first second : Plan} {place ended : Place}
      (leads : Leads second place ended) : Leads (alt point first second) place ended
  | manyStop (point : Nat) (greedy : Bool) (set : CharSet) (place : Place) :
      Leads (many point greedy set) place place
  | manyMore {point : Nat} {greedy : Bool} {set : CharSet} {place middle ended : Place}
      (found : place.afterOne? set = some middle) (more : Leads (many point greedy set) middle ended) :
      Leads (many point greedy set) place ended
  | loopStop (point : Nat) (greedy : Bool) (body : Plan) (place : Place) :
      Leads (loop point greedy body) place place
  | loopMore {point : Nat} {greedy : Bool} {body : Plan} {place middle ended : Place}
      (round : Leads body place middle) (more : Leads (loop point greedy body) middle ended) :
      Leads (loop point greedy body) place ended
  | group {index : Nat} {body : Plan} {place ended : Place} (leads : Leads body place ended) :
      Leads (group index body) place (ended.close index place.offset)

theorem leads_literal {text : List Char} {place ended : Place} :
    (literal text).Leads place ended ↔ place.after? text = some ended :=
  ⟨fun leads => by cases leads; assumption, .literal⟩

theorem leads_one {set : CharSet} {place ended : Place} :
    (one set).Leads place ended ↔ place.afterOne? set = some ended :=
  ⟨fun leads => by cases leads; assumption, .one⟩

theorem leads_look {assertion : Assertion} {place ended : Place} :
    (look assertion).Leads place ended ↔ assertion.holds place = true ∧ ended = place := by
  constructor
  · rintro ⟨⟩
    exact ⟨‹_›, rfl⟩
  · rintro ⟨holds, rfl⟩
    exact .look holds

theorem leads_seq {first second : Plan} {place ended : Place} :
    (seq first second).Leads place ended ↔
      ∃ middle, first.Leads place middle ∧ second.Leads middle ended := by
  constructor
  · rintro ⟨⟩
    exact ⟨_, ‹_›, ‹_›⟩
  · rintro ⟨middle, front, back⟩
    exact .seq front back

theorem leads_group {index : Nat} {body : Plan} {place ended : Place} :
    (group index body).Leads place ended ↔
      ∃ inner, body.Leads place inner ∧ ended = inner.close index place.offset := by
  constructor
  · rintro ⟨⟩
    exact ⟨_, ‹_›, rfl⟩
  · rintro ⟨inner, leads, rfl⟩
    exact .group leads

/-- A plan leads forward: a text lies between the place where it starts and the one where it ends. -/
theorem Leads.takes {plan : Plan} {place ended : Place} (leads : plan.Leads place ended) :
    ∃ taken, place.Takes taken ended := by
  induction leads with
  | empty place | gate _ place | manyStop _ _ _ place | loopStop _ _ _ place =>
    exact ⟨[], .refl place⟩
  | look => exact ⟨[], .refl _⟩
  | literal found => exact ⟨_, (Place.Takes.after? found).1⟩
  | one found =>
    obtain ⟨c, _, takes, _⟩ := Place.Takes.afterOne? found
    exact ⟨[c], takes⟩
  | seq _ _ front back | loopMore _ _ front back =>
    obtain ⟨taken, one⟩ := front
    obtain ⟨more, other⟩ := back
    exact ⟨taken ++ more, one.trans other⟩
  | altFirst _ ih | altSecond _ ih => exact ih
  | manyMore found _ ih =>
    obtain ⟨c, _, one, _⟩ := Place.Takes.afterOne? found
    obtain ⟨more, other⟩ := ih
    exact ⟨[c] ++ more, one.trans other⟩
  | group _ ih =>
    obtain ⟨taken, takes⟩ := ih
    exact ⟨taken, takes.close ..⟩

end Plan

/-! ### What a search finds -/

namespace Outcome

variable {place : Place}

theorem found_of_orElse {outcome : Outcome} {other : Memo → Outcome}
    (found : outcome.orElse other = .found place) :
    outcome = .found place ∨ ∃ memo, other memo = .found place := by
  cases outcome with
  | found => exact .inl found
  | failed memo => exact .inr ⟨memo, found⟩

theorem found_of_inOrder {greedy : Bool} {first second : Memo → Outcome} {memo : Memo}
    (found : inOrder greedy first second memo = .found place) :
    (∃ memo, first memo = .found place) ∨ ∃ memo, second memo = .found place := by
  cases greedy
  · exact (found_of_orElse found).symm.imp_right fun found => ⟨memo, found⟩
  · exact (found_of_orElse found).imp_left fun found => ⟨memo, found⟩

theorem found_of_fromPoint {point offset : Nat} {attempt : Memo → Outcome} {memo : Memo}
    (found : fromPoint point offset attempt memo = .found place) : attempt memo = .found place := by
  rw [fromPoint] at found
  split at found
  · cases found
  · cases outcome : attempt memo with
    | found => rwa [outcome] at found
    | failed => rw [outcome] at found; cases found

end Outcome

namespace Plan

/-- A search that goes on after a plan has come to a place to which the plan leads. -/
def Follows (plan : Plan) (next : Search) (place final : Place) : Prop :=
  ∃ ended memo, plan.Leads place ended ∧ next ended memo = .found final

theorem follows_of_through {point : Nat} {greedy : Bool} {set : CharSet} {next : Search}
    {ahead : List Char} {place final : Place} {memo : Memo} (here : place.rest = ahead)
    (found : through point greedy set next ahead place memo = .found final) :
    (many point greedy set).Follows next place final := by
  induction ahead generalizing place memo with
  | nil => exact ⟨place, memo, .manyStop .., Outcome.found_of_fromPoint found⟩
  | cons c rest ih =>
    have attempted := Outcome.found_of_fromPoint found
    split at attempted
    · rename_i member
      rcases Outcome.found_of_inOrder attempted with ⟨memo, more⟩ | ⟨memo, stop⟩
      · obtain ⟨ended, memo, leads, goesOn⟩ := ih rfl more
        have taken : place.afterOne? set = some (place.advance c rest) := by
          simp [Place.afterOne?, here, member]
        exact ⟨ended, memo, .manyMore taken leads, goesOn⟩
      · exact ⟨place, memo, .manyStop .., stop⟩
    · exact ⟨place, memo, .manyStop .., attempted⟩

/-- A search that succeeds has come to a place to which the plan leads. -/
theorem leads_of_explore (plan : Plan) {next : Search} {place final : Place} {memo : Memo}
    (found : plan.explore next place memo = .found final) : plan.Follows next place final := by
  induction plan generalizing next place memo with
  | empty => exact ⟨place, memo, .empty place, found⟩
  | literal text =>
    rw [explore, goOn.eq_def] at found
    split at found
    · cases found
    · rename_i ended taken
      exact ⟨ended, memo, .literal taken, found⟩
  | one set =>
    rw [explore, goOn.eq_def] at found
    split at found
    · cases found
    · rename_i ended taken
      exact ⟨ended, memo, .one taken, found⟩
  | look assertion =>
    rw [explore] at found
    split at found
    · rename_i holds
      exact ⟨place, memo, .look holds, found⟩
    · cases found
  | gate point =>
    rw [explore] at found
    split at found
    · cases found
    · exact ⟨place, _, .gate point place, found⟩
  | seq first second first_ih second_ih =>
    obtain ⟨middle, learned, front, rest⟩ := first_ih found
    obtain ⟨ended, memo, back, goesOn⟩ := second_ih rest
    exact ⟨ended, memo, .seq front back, goesOn⟩
  | alt point first second first_ih second_ih =>
    rcases Outcome.found_of_orElse (Outcome.found_of_fromPoint found) with found | ⟨_, found⟩
    · obtain ⟨ended, memo, leads, goesOn⟩ := first_ih found
      exact ⟨ended, memo, .altFirst leads, goesOn⟩
    · obtain ⟨ended, memo, leads, goesOn⟩ := second_ih found
      exact ⟨ended, memo, .altSecond leads, goesOn⟩
  | many point greedy set => exact follows_of_through rfl found
  | loop point greedy body ih =>
    suffices rounds_follow : ∀ (unread : List Char) (place : Place) (memo : Memo),
        rounds point greedy body.explore next unread place memo = .found final →
        (loop point greedy body).Follows next place final from
      rounds_follow place.rest place memo found
    intro unread
    induction unread with
    | nil =>
      intro place memo found
      exact ⟨place, memo, .loopStop .., Outcome.found_of_fromPoint found⟩
    | cons c unread rounds_ih =>
      intro place memo found
      rcases Outcome.found_of_inOrder (Outcome.found_of_fromPoint found) with
        ⟨_, more⟩ | ⟨memo, stop⟩
      · obtain ⟨middle, learned, round, rest⟩ := ih more
        obtain ⟨ended, memo, more, goesOn⟩ := rounds_ih middle learned rest
        exact ⟨ended, memo, .loopMore round more, goesOn⟩
      · exact ⟨place, memo, .loopStop .., stop⟩
  | group index body ih =>
    obtain ⟨ended, memo, leads, goesOn⟩ := ih found
    exact ⟨_, memo, .group leads, goesOn⟩

theorem leads_of_matchFrom {plan : Plan} {place final : Place} {memo : Memo}
    (found : plan.matchFrom place memo = .found final) : plan.Leads place final := by
  obtain ⟨ended, _, leads, same⟩ := leads_of_explore plan found
  cases same
  exact leads

theorem leads_of_search {plan : Plan} {text rest : List Char} {offset : Nat} {before : Option Char}
    {memo : Memo} {found : Match} (within : Within text { offset, before, rest })
    (search_found : plan.search rest offset before memo = some found) :
    ∃ start ended, Within text start ∧ start.groups = [] ∧ plan.Leads start ended ∧
      found = .upTo start.offset ended := by
  induction rest generalizing offset before memo with
  | nil =>
    rw [search] at search_found
    split at search_found
    · rename_i ended matched
      simp only [Option.some.injEq] at search_found
      exact ⟨_, ended, within, rfl, leads_of_matchFrom matched, search_found.symm⟩
    · simp at search_found
  | cons c rest ih =>
    rw [search] at search_found
    split at search_found
    · rename_i ended matched
      simp only [Option.some.injEq] at search_found
      exact ⟨_, ended, within, rfl, leads_of_matchFrom matched, search_found.symm⟩
    · exact ih (within.advance rfl) search_found

/-- A match that a search finds runs from a place of the text to one to which the plan leads. -/
theorem leads_of_find? {plan : Plan} {anchored : Bool} {text : List Char} {found : Match}
    (find?_found : plan.find? anchored text = some found) :
    ∃ start ended, Within text start ∧ start.groups = [] ∧
      (anchored = true → start = .start text) ∧ plan.Leads start ended ∧
      found = .upTo start.offset ended := by
  rw [find?] at find?_found
  split at find?_found
  · split at find?_found
    · rename_i ended matched
      simp only [Option.some.injEq] at find?_found
      exact ⟨.start text, ended, within_start, rfl, fun _ => rfl, leads_of_matchFrom matched,
        find?_found.symm⟩
    · simp at find?_found
  · rename_i free
    obtain ⟨start, ended, within, groups, leads, same⟩ := leads_of_search within_start find?_found
    exact ⟨start, ended, within, groups, fun anchored => absurd anchored free, leads, same⟩

end Plan

/-! ### Where the parts of a match lie -/

/-- The span begins and ends between characters of the text. -/
def Span.Within (text : List Char) (span : Span) : Prop :=
  ∃ first middle last, text = first ++ (middle ++ last) ∧ span.start = Text.byteLength first ∧
    span.stop = Text.byteLength first + Text.byteLength middle

/-- All parts of the match begin and end between characters of the text. -/
def Match.Within (text : List Char) (found : Match) : Prop :=
  ∀ index span, found.group? index = some span → span.Within text

namespace Plan

variable {text : List Char} {place ended : Place}

theorem Within.takes {taken : List Char} (within : Within text place)
    (takes : place.Takes taken ended) :
    Within text ended ∧ Span.Within text ⟨place.offset, ended.offset⟩ := by
  obtain ⟨front, whole, offset, before⟩ := within
  have split : text = front ++ (taken ++ ended.rest) := by rw [whole, takes.rest]
  refine ⟨⟨front ++ taken, ?_, ?_, ?_⟩, front, taken, ended.rest, split, offset, ?_⟩
  · rw [split, List.append_assoc]
  · rw [takes.offset, offset, Text.byteLength_append]
  · rw [takes.before, before, List.getLast?_append]
  · rw [takes.offset, offset]

/-- All groups of the plan, each with its number and its body, pass the test. -/
def allGroups (test : Nat → Plan → Bool) : Plan → Bool
  | group index body => test index body && body.allGroups test
  | seq first second | alt _ first second => first.allGroups test && second.allGroups test
  | loop _ _ body => body.allGroups test
  | _ => true

theorem allGroups_true (plan : Plan) : plan.allGroups (fun _ _ => true) = true := by
  induction plan with
  | seq _ _ first_ih second_ih | alt _ _ _ first_ih second_ih => rw [allGroups, first_ih, second_ih]; rfl
  | group _ _ ih => rw [allGroups, ih]; rfl
  | loop _ _ _ ih => rw [allGroups, ih]
  | _ => rfl

/-- The span was noted for a group on the way through the text. -/
def Notes (text : List Char) (test : Nat → Plan → Bool) (noted : Nat × Span) : Prop :=
  ∃ body first last, test noted.1 body = true ∧ Within text first ∧ body.Leads first last ∧
    noted.2 = ⟨first.offset, last.offset⟩

/-- What is noted where a plan leads was noted for its groups. -/
theorem Leads.noted {plan : Plan} {test : Nat → Plan → Bool} (passes : plan.allGroups test = true)
    (leads : plan.Leads place ended) (within : Within text place)
    (notes : ∀ noted ∈ place.groups, Notes text test noted) :
    Within text ended ∧ ∀ noted ∈ ended.groups, Notes text test noted := by
  induction leads with
  | empty | gate | manyStop | loopStop | look => exact ⟨within, notes⟩
  | literal found =>
    obtain ⟨takes, same⟩ := Place.Takes.after? found
    exact ⟨(within.takes takes).1, same ▸ notes⟩
  | one found =>
    obtain ⟨_, _, takes, same⟩ := Place.Takes.afterOne? found
    exact ⟨(within.takes takes).1, same ▸ notes⟩
  | seq _ _ front_ih back_ih =>
    obtain ⟨front, back⟩ := (Bool.and_eq_true _ _).mp passes
    obtain ⟨middle_within, middle_notes⟩ := front_ih front within notes
    exact back_ih back middle_within middle_notes
  | altFirst _ ih => exact ih ((Bool.and_eq_true _ _).mp passes).1 within notes
  | altSecond _ ih => exact ih ((Bool.and_eq_true _ _).mp passes).2 within notes
  | manyMore found _ ih =>
    obtain ⟨_, _, takes, same⟩ := Place.Takes.afterOne? found
    exact ih passes (within.takes takes).1 (same ▸ notes)
  | loopMore _ _ round_ih more_ih =>
    obtain ⟨middle_within, middle_notes⟩ := round_ih passes within notes
    exact more_ih passes middle_within middle_notes
  | @group index body place ended leads ih =>
    obtain ⟨tested, inner⟩ := (Bool.and_eq_true _ _).mp passes
    obtain ⟨inner_within, inner_notes⟩ := ih inner within notes
    refine ⟨inner_within, fun noted member => ?_⟩
    rcases List.mem_cons.mp member with rfl | member
    · exact ⟨body, place, ended, tested, within, leads, rfl⟩
    · exact inner_notes noted member

/-- What a match has for a group was noted for one of its plan's groups. -/
theorem notes_of_find? {plan : Plan} {test : Nat → Plan → Bool} (passes : plan.allGroups test = true)
    {anchored : Bool} {found : Match} (find?_found : plan.find? anchored text = some found)
    {index : Nat} (proper : index ≠ 0) {span : Span} (participates : found.group? index = some span) :
    Notes text test (index, span) := by
  obtain ⟨start, ended, within, groups, _, leads, rfl⟩ := leads_of_find? find?_found
  have nothing_noted : ∀ noted ∈ start.groups, Notes text test noted := by simp [groups]
  obtain ⟨_, notes⟩ := leads.noted passes within nothing_noted
  unfold Match.group? at participates
  rw [if_neg proper] at participates
  obtain ⟨later, earlier, split, _⟩ := List.lookup_eq_some_iff.mp participates
  have member : (index, span) ∈ (Match.upTo start.offset ended).groups := by simp [split]
  exact notes (index, span) member

theorem Notes.within {test : Nat → Plan → Bool} {noted : Nat × Span} (notes : Notes text test noted) :
    noted.2.Within text := by
  obtain ⟨body, first, last, _, within, leads, same⟩ := notes
  obtain ⟨_, takes⟩ := leads.takes
  rw [same]
  exact (within.takes takes).2

theorem within_of_find? {plan : Plan} {anchored : Bool} {found : Match}
    (find?_found : plan.find? anchored text = some found) : found.Within text := by
  intro index span participates
  by_cases whole : index = 0
  · obtain ⟨start, ended, within, _, _, leads, rfl⟩ := leads_of_find? find?_found
    obtain ⟨_, takes⟩ := leads.takes
    unfold Match.group? at participates
    rw [if_pos whole] at participates
    cases participates
    exact (within.takes takes).2
  · exact (notes_of_find? plan.allGroups_true find?_found whole participates).within

end Plan

namespace Regex

variable {regex : Regex} {text : List Char} {found : Match}

/-- A match and its groups begin and end between characters of the text. -/
theorem within_of_find? (find?_found : regex.find? text = some found) : found.Within text :=
  Plan.within_of_find? find?_found

/-- A match of an anchored pattern starts where the text begins. -/
theorem start_of_find? (anchored : regex.anchored = true) (find?_found : regex.find? text = some found) :
    found.span.start = 0 := by
  obtain ⟨start, ended, _, _, same, _, rfl⟩ := Plan.leads_of_find? find?_found
  rw [same anchored]
  rfl

end Regex

end TableLexer.Pattern
