import ChoiceExplorer.Proofs.RecordedRequests

/-!
# Tags of choice points

A program notes where its next choice point stands.  The note is for the next value only:
whatever is chosen, replayed or drawn after it uses it up.  So a new generator stands where
the last tag since the value before says, and nowhere if there is none.
-/

namespace ChoiceExplorer

namespace Call

open Search (Options)

def asksValue : Call → Bool
  | choose _ | draw _ => true
  | tag _ | ignoreRest | depth => false

def tag? : Call → Option String
  | tag location => some location
  | ignoreRest | depth | choose _ | draw _ => none

def request? (options : Options) : Call → Option Request
  | choose request => some request
  | draw source => options.request? source
  | tag _ | ignoreRest | depth => none

end Call

namespace Generator

theorem Same.symm {first second : Generator} (same : first.Same second) : second.Same first :=
  ⟨same.id_eq.symm, same.alternatives_eq.symm, same.location_eq.symm⟩

end Generator

namespace Search

/-- The last tag since a value was asked for. -/
def lastTag (calls : List Call) : Option String :=
  (calls.reverse.takeWhile fun call => !call.asksValue).findSome? Call.tag?

theorem lastTag_concat (calls : List Call) (call : Call) :
    lastTag (calls ++ [call]) =
      if call.asksValue then none else call.tag?.or (lastTag calls) := by
  rw [lastTag, List.reverse_append, List.reverse_singleton, List.singleton_append,
    List.takeWhile_cons]
  cases call.asksValue with
  | true => rfl
  | false =>
      simp only [Bool.not_false, if_true, Bool.false_eq_true, if_false, List.findSome?_cons]
      cases call.tag? <;> rfl

def requests (options : Options) (calls : List Call) : Nat :=
  calls.countP fun call => (call.request? options).isSome

/--
A generator serves the request made in some calls after so many others, and stands where
the last tag before this request says.
-/
inductive Tagged (options : Options) : List Call → Nat → Generator → Prop where
  | intro (before after : List Call) {call : Call} {request : Request} {generator : Generator}
      (requested : call.request? options = some request) (serves : generator.Serves request)
      (location_eq : generator.location = lastTag before) :
      Tagged options (before ++ call :: after) (requests options before) generator

namespace Tagged

variable {options : Options} {calls : List Call} {passed : Nat} {first second : Generator}

theorem append (tagged : Tagged options calls passed first) (more : List Call) :
    Tagged options (calls ++ more) passed first := by
  obtain ⟨before, after, requested, serves, location_eq⟩ := tagged
  rw [List.append_assoc, List.cons_append]
  exact .intro before _ requested serves location_eq

theorem same (tagged : Tagged options calls passed first) (same : first.Same second)
    (started : 0 < second.taken) : Tagged options calls passed second := by
  obtain ⟨before, after, requested, serves, location_eq⟩ := tagged
  refine .intro before after requested ⟨?_, ?_, started⟩ (same.location_eq.symm.trans location_eq)
  · exact same.id_eq.symm.trans serves.id_eq
  · exact same.alternatives_eq.symm.trans serves.alternatives_eq

theorem kept (tagged : Tagged options calls passed first) (kept : first.Kept second) :
    Tagged options calls passed second := by
  refine tagged.same kept.same ?_
  obtain ⟨-, -, -, serves, -⟩ := tagged
  exact kept.taken_eq ▸ serves.started

end Tagged

namespace Execution

theorem choose_location (execution : Execution) (request : Request) :
    (execution.choose request).2.location = none := by
  apply choose_cases (motive := fun answer => answer.2.location = none)
  case faulted => exact fun _ => rfl
  case replayed => exact fun _ _ _ _ _ => rfl
  case diverged => exact fun _ _ _ _ _ => rfl
  case empty => exact fun _ _ _ => rfl
  case forced => exact fun _ _ _ _ => rfl
  case new => exact fun _ _ _ _ => rfl

theorem draw_location (execution : Execution) (source : Chance.Draw) :
    (execution.draw source).2.location = none := by
  cases asked : execution.options.request? source with
  | some request =>
      rw [draw_of_request asked]
      exact choose_location execution request
  | none =>
      rw [draw_of_none asked]

end Execution

namespace Step

theorem request?_eq (step : Step) : step.request? = step.call.request? step.before.options := by
  obtain ⟨before, call⟩ := step
  cases call <;> rfl

/-- A value uses up the location noted before it, and nothing else does. -/
theorem location_after (step : Step) :
    step.after.location =
      if step.call.asksValue then none else step.call.tag?.or step.before.location := by
  obtain ⟨before, call⟩ := step
  cases call with
  | tag location => rfl
  | ignoreRest =>
      show before.ignoreRest.location = before.location
      unfold Execution.ignoreRest
      split <;> rfl
  | depth => rfl
  | choose request => exact before.choose_location request
  | draw source => exact before.draw_location source

/-- Only a request makes a path longer, by the generator of a new choice point. -/
theorem exists_added {now : Execution} {call : Call}
    (longer : now.stack.toList.length < (Step.after ⟨now, call⟩).stack.toList.length) :
    ∃ request, Step.request? ⟨now, call⟩ = some request ∧ now.fault = none ∧ now.ahead = [] ∧
      request.alternatives.size ≠ 0 ∧ now.isFull = false ∧
      (Step.after ⟨now, call⟩).stack = now.stack.push (now.generator request) := by
  revert longer
  apply after_cases (motive := fun after => now.stack.toList.length < after.stack.toList.length →
    ∃ request, Step.request? ⟨now, call⟩ = some request ∧ now.fault = none ∧ now.ahead = [] ∧
      request.alternatives.size ≠ 0 ∧ now.isFull = false ∧
      after.stack = now.stack.push (now.generator request))
  · intro request requested longer
    rcases now.choose_stack request with same | added
    · rw [same] at longer
      exact absurd longer (Nat.lt_irrefl _)
    · exact ⟨request, requested, added⟩
  · intro _ longer
    rw [ChoiceStack.length_toList, ChoiceStack.length_toList,
      (Execution.ignoreRest_depth now).2] at longer
    exact absurd longer (Nat.lt_irrefl _)
  · exact fun _ _ _ longer => absurd longer (Nat.lt_irrefl _)

end Step

namespace Execution.Moment

variable {α : Type} {start now : Execution} {run rest : Run α} {steps : List Step}

/-- At every moment of a run the last tag is what has been noted. -/
theorem location_eq (moment : start.Moment run steps now rest) (untagged : start.location = none) :
    now.location = lastTag (steps.map Step.call) := by
  refine moment.keeps (motive := fun steps reached =>
    reached.location = lastTag (steps.map Step.call)) ?_ untagged
  intro steps step kept
  rw [step.location_after, kept, List.map_append, List.map_singleton, lastTag_concat]

/-- The choice points asked for can be counted on the calls alone. -/
theorem asked_eq (moment : start.Moment run steps now rest) :
    asked steps = requests start.options (steps.map Step.call) := by
  induction moment with
  | opening => rfl
  | @next steps now rest further call moment calls ih =>
      have options_eq : now.options = start.options := moment.extends_stack.1
      have same : Step.request? ⟨now, call⟩ = call.request? start.options := by
        rw [Step.request?_eq, options_eq]
      rw [asked, List.countP_append, List.countP_singleton, same, List.map_append,
        List.map_singleton, requests, List.countP_append, List.countP_singleton]
      exact congrArg (· + _) ih

/-- A choice point that a run adds to its path stands where the last tag says. -/
theorem tagged_of_new (moment : start.Moment run steps now rest) (standing : start.Standing [])
    (untagged : start.location = none) {passed : Nat} {generator : Generator}
    (absent : start.stack.get? passed = none)
    (found : now.stack.get? passed = some generator) :
    Tagged start.options (steps.map Step.call) passed generator := by
  induction moment generalizing generator with
  | opening => cases absent.symm.trans found
  | @next steps now rest further call moment calls ih =>
      rw [List.map_append, List.map_singleton]
      cases there : now.stack.get? passed with
      | some before =>
          have further := (opening.next calls).extends_stack.2
          obtain ⟨after, same, kept⟩ := further.kept_of_getElem? there
          cases found.symm.trans same
          exact ((ih there).append _).kept kept
      | none =>
          have beyond : now.stack.toList.length ≤ passed := List.getElem?_eq_none_iff.mp there
          have longer : passed < (Step.after ⟨now, call⟩).stack.toList.length :=
            (List.getElem?_eq_some_iff.mp found).1
          obtain ⟨request, requested, unfaulted, reached, offers, room, added⟩ :=
            Step.exists_added (Nat.lt_of_le_of_lt beyond longer)
          have length_eq : now.stack.toList.length = asked steps := by
            rw [ChoiceStack.length_toList, depth_stack, reached]
            exact (moment.standing standing).depth_eq_asked unfaulted room
          rw [added, ChoiceStack.toList_push, List.length_append, List.length_singleton] at longer
          obtain rfl : passed = asked steps := by omega
          rw [added, ChoiceStack.get?, ChoiceStack.toList_push, ← length_eq,
            List.getElem?_concat_length] at found
          cases found
          obtain ⟨serves, -, -, location_eq⟩ := generator_serves now offers
          rw [moment.asked_eq]
          refine .intro _ [] ?_ serves (location_eq.trans (moment.location_eq untagged))
          rw [← requested, Step.request?_eq, moment.extends_stack.1]

/-- What the path holds at its beginning it holds at every moment of a run, up to retirement. -/
theorem kept_of_get? (moment : start.Moment run steps now rest) {passed : Nat}
    {generator : Generator} (found : start.stack.get? passed = some generator) :
    ∃ after, now.stack.get? passed = some after ∧ generator.Kept after :=
  moment.extends_stack.2.kept_of_getElem? found

end Execution.Moment

/--
The generator at a place of the path of a run has been made in this run or an earlier one,
where the last tag before it said, and no run since has changed it but for its position.
-/
structure MadeIn {σ : Type} (program : Program σ) (turns : List (Progress σ))
    (place passed : Nat) (generator : Generator) (origin : Nat) : Prop where
  le : origin ≤ place
  made : ∃ first steps made, turns[origin]? = some first ∧
    first.search.stack.get? passed = none ∧
    first.Moment program steps (first.attempt program).2 (.done (first.attempt program).1) ∧
    (first.left program).get? passed = some made ∧ made.Same generator ∧
    Tagged first.search.options (steps.map Step.call) passed made
  unchanged : ∀ (between : Nat) (turn : Progress σ), origin < between → between ≤ place →
    turns[between]? = some turn → ∀ steps now rest, turn.Moment program steps now rest →
      ∃ kept, now.stack.get? passed = some kept ∧ kept.Same generator

namespace MadeIn

variable {σ : Type} {program : Program σ} {turns : List (Progress σ)} {place passed origin : Nat}
  {generator other : Generator}

theorem same (madeIn : MadeIn program turns place passed generator origin)
    (same : generator.Same other) : MadeIn program turns place passed other origin := by
  obtain ⟨le, ⟨first, steps, made, here, absent, moment, left, alike, tagged⟩, unchanged⟩ := madeIn
  refine ⟨le, ⟨first, steps, made, here, absent, moment, left, alike.trans same, tagged⟩, ?_⟩
  intro between turn after up_to there steps now rest moment
  obtain ⟨kept, found, alike⟩ := unchanged between turn after up_to there steps now rest moment
  exact ⟨kept, found, alike.trans same⟩

/-- A further run changes nothing about a generator that it finds on its path. -/
theorem next (madeIn : MadeIn program turns place passed generator origin) {turn : Progress σ}
    (there : turns[place + 1]? = some turn)
    (found : turn.search.stack.get? passed = some generator) :
    MadeIn program turns (place + 1) passed generator origin := by
  refine ⟨Nat.le_succ_of_le madeIn.le, madeIn.made, ?_⟩
  intro between later after up_to here steps now rest moment
  rcases Nat.lt_or_eq_of_le up_to with earlier | rfl
  · exact madeIn.unchanged between later after (Nat.le_of_lt_succ earlier) here steps now rest
      moment
  · cases there.symm.trans here
    have opened : turn.opening.stack.get? passed = some generator := by
      rw [Progress.stack_opening]
      exact found
    obtain ⟨kept, still, keeps⟩ := moment.kept_of_get? opened
    exact ⟨kept, still, keeps.same.symm⟩

end MadeIn

namespace Progress

variable {σ : Type} {program : Program σ} {progress turn : Progress σ} {place : Nat}

/-- A generator that a run makes has its origin in this run. -/
theorem madeIn_of_new {turns : List (Progress σ)} (standing : turn.opening.Standing [])
    (here : turns[place]? = some turn) {steps : List Step} {now : Execution}
    {rest : Run (Option Violation × σ)} (moment : turn.Moment program steps now rest)
    {passed : Nat} {generator : Generator} (absent : turn.search.stack.get? passed = none)
    (found : now.stack.get? passed = some generator) :
    MadeIn program turns place passed generator place := by
  obtain ⟨all, ending⟩ := Execution.Moment.exists_end turn.opening (program turn.state)
  have unopened : turn.opening.stack.get? passed = none := by
    rw [stack_opening]
    exact absent
  have onward := Execution.perform_extends now rest
  rw [moment.perform_eq] at onward
  obtain ⟨left, there, kept⟩ := onward.2.kept_of_getElem? found
  refine ⟨Nat.le_refl place, ⟨turn, all, left, here, absent, ending, there, kept.same.symm, ?_⟩, ?_⟩
  · exact ending.tagged_of_new standing rfl unopened there
  · intro between _ after up_to
    exact absurd after (Nat.not_lt_of_le up_to)

/-- Every generator that is on a path at any time has been made in a run up to then. -/
theorem exists_madeIn (empty : progress.search.stack.toList = [])
    (standing : progress.opening.Standing []) {budget : Nat}
    (here : (progress.trail program budget)[place]? = some turn) {steps : List Step}
    {now : Execution} {rest : Run (Option Violation × σ)}
    (moment : turn.Moment program steps now rest) {passed : Nat} {generator : Generator}
    (found : now.stack.get? passed = some generator) :
    ∃ origin, MadeIn program (progress.trail program budget) place passed generator origin := by
  induction place generalizing turn steps now rest generator with
  | zero =>
      have stands := standing_of_mem_trail standing (List.mem_of_getElem? here)
      cases budget with
      | zero => cases here
      | succ budget =>
          cases here
          refine ⟨0, madeIn_of_new stands rfl moment ?_ found⟩
          rw [ChoiceStack.get?, empty]
          rfl
  | succ place ih =>
      have stands := standing_of_mem_trail standing (List.mem_of_getElem? here)
      cases recorded : turn.search.stack.get? passed with
      | none => exact ⟨_, madeIn_of_new stands here moment recorded found⟩
      | some opened =>
          obtain ⟨before, at_place⟩ :
              ∃ before, (progress.trail program budget)[place]? = some before :=
            ⟨_, List.getElem?_eq_getElem (Nat.lt_of_succ_lt (List.getElem?_eq_some_iff.mp here).1)⟩
          -- The run before has left the generator, and the next path has only moved it.
          obtain ⟨left, was_left, same⟩ :=
            same_of_nextPath? (follows_of_getElem? at_place here).nextPath?_eq recorded
          obtain ⟨all, ending⟩ :=
            Execution.Moment.exists_end before.opening (program before.state)
          obtain ⟨origin, madeIn⟩ := ih at_place ending was_left
          have begun : turn.opening.stack.get? passed = some opened := by
            rw [stack_opening]
            exact recorded
          obtain ⟨after, still, kept⟩ := moment.kept_of_get? begun
          cases found.symm.trans still
          exact ⟨origin, ((madeIn.same same).next here recorded).same kept.same⟩

end Progress

end Search

end ChoiceExplorer
