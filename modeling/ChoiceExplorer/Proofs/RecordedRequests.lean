import ChoiceExplorer.Proofs.FaithfulReplay
import ChoiceExplorer.Proofs.Faults

/-!
# Requests behind recorded choices

A recorded choice is compared with a request by its kind only.  So the value that a
request gets need not be one of its own: it is one of those of the request for which
the choice was recorded, made after as many choice points in this or an earlier run.
For a program that does the same in every run this is the same request.
-/

namespace ChoiceExplorer

/-- A generator serves one request only. -/
theorem Generator.Serves.request_eq {generator : Generator} {first second : Request}
    (serves : generator.Serves first) (also : generator.Serves second) : first = second := by
  obtain ⟨id, alternatives⟩ := first
  obtain ⟨other_id, others⟩ := second
  obtain ⟨id_eq, alternatives_eq, -⟩ := serves
  obtain ⟨rfl, rfl, -⟩ := also
  cases id_eq
  cases alternatives_eq
  rfl

namespace Search

/-- A request without a recorded choice gets its first value, recorded or not. -/
theorem Execution.choose_of_unrecorded {now : Execution} {request : Request}
    (before : now.fault = none) (reached : now.ahead = [])
    (after : (now.choose request).2.fault = none) :
    request.alternatives.size ≠ 0 ∧ (now.choose request).1 = request.value 0 := by
  by_cases offers : request.alternatives.size = 0
  · rw [choose_of_empty before reached offers] at after
    cases after
  · refine ⟨offers, ?_⟩
    cases full : now.options.isFull now.passed.length with
    | true => rw [choose_of_full before reached offers full]
    | false => rw [choose_of_new before reached offers full]

variable {σ : Type} {program : Program σ} {turns : List (Progress σ)} {place : Nat}

/-- A run asks for a choice point after so many others, when none is recorded there. -/
inductive FirstAsks (program : Program σ) (turns : List (Progress σ)) :
    (place passed : Nat) → Request → Prop where
  | intro {place : Nat} {turn : Progress σ} {steps : List Step} {now : Execution}
      {rest further : Run (Option Violation × σ)} {call : Call} {request : Request}
      (here : turns[place]? = some turn) (moment : turn.Moment program steps now rest)
      (calls : now.Calls rest call further)
      (requested : Step.request? ⟨now, call⟩ = some request) (unfaulted : now.fault = none)
      (unrecorded : turn.search.stack.get? (asked steps) = none) :
      FirstAsks program turns place (asked steps) request

/-- Every choice on a path has been recorded for a request of a run up to a place. -/
def Traced (program : Program σ) (turns : List (Progress σ)) (place : Nat)
    (path : List Generator) : Prop :=
  ∀ passed generator, path[passed]? = some generator →
    ∃ origin request, origin ≤ place ∧ FirstAsks program turns origin passed request ∧
      generator.Serves request

namespace Traced

variable {path longer : List Generator}

/-- Retirement does not change for which requests choices have been recorded. -/
theorem of_extends (traced : Traced program turns place path) (further : Extends path longer)
    (length_eq : longer.length = path.length) : Traced program turns place longer := by
  intro passed generator found
  have lt : passed < path.length := length_eq ▸ (List.getElem?_eq_some_iff.mp found).1
  obtain ⟨after, there, kept⟩ := further.kept_of_getElem? (List.getElem?_eq_getElem lt)
  cases found.symm.trans there
  obtain ⟨origin, request, le, asks, serves⟩ := traced passed _ (List.getElem?_eq_getElem lt)
  refine ⟨origin, request, le, asks, ?_⟩
  rcases kept with same | retired
  · rw [same]
    exact serves
  · rw [retired]
    exact serves.retire

/-- A run records a choice for the request that it makes. -/
theorem concat (traced : Traced program turns place path) {request : Request}
    {generator : Generator} (asks : FirstAsks program turns place path.length request)
    (serves : generator.Serves request) : Traced program turns place (path ++ [generator]) := by
  intro passed other found
  rcases Nat.lt_trichotomy passed path.length with older | rfl | beyond
  · rw [List.getElem?_append_left older] at found
    exact traced passed other found
  · rw [List.getElem?_concat_length] at found
    cases found
    exact ⟨place, request, Nat.le_refl place, asks, serves⟩
  · have lt := (List.getElem?_eq_some_iff.mp found).1
    rw [List.length_append, List.length_singleton] at lt
    omega

/-- The next path holds no choices but those of the path before. -/
theorem next {next : List Generator} (traced : Traced program turns place path)
    (started : ∀ generator ∈ path, 0 < generator.taken) (found : nextPath? path = some next) :
    Traced program turns (place + 1) next := by
  intro passed generator there
  obtain ⟨before, here, same⟩ := same_of_nextPath? found there
  obtain ⟨origin, request, le, asks, serves⟩ := traced passed before here
  refine ⟨origin, request, Nat.le_succ_of_le le, asks, ?_, ?_, ?_⟩
  · rw [← same.id_eq]
    exact serves.id_eq
  · rw [← same.alternatives_eq]
    exact serves.alternatives_eq
  · exact started_of_nextPath? started found generator (List.mem_of_getElem? there)

end Traced

namespace Progress

variable {progress turn : Progress σ} {steps : List Step} {now : Execution}
  {rest : Run (Option Violation × σ)}

/-- During a run every choice on the path is one recorded for a request. -/
theorem traced_of_moment (here : turns[place]? = some turn)
    (standing : turn.opening.Standing [])
    (traced : Traced program turns place turn.search.stack.toList)
    (moment : turn.Moment program steps now rest) :
    Traced program turns place now.stack.toList := by
  induction moment with
  | opening =>
      rw [stack_opening]
      exact traced
  | @next steps now rest further call moment calls ih =>
      apply Step.after_cases (motive := fun after => Traced program turns place after.stack.toList)
      · intro request requested
        rcases now.choose_stack request with same | ⟨unfaulted, reached, offers, room, added⟩
        · rw [same]
          exact ih
        · rw [added, ChoiceStack.toList_push]
          refine ih.concat ?_ (Execution.generator_serves now offers).1
          have unrecorded := (moment.replays turn.replays_opening).get?_eq unfaulted
          rw [reached] at unrecorded
          have length_eq : now.stack.toList.length = asked steps := by
            rw [ChoiceStack.length_toList, Execution.depth_stack, reached]
            exact (moment.standing standing).depth_eq_asked unfaulted room
          rw [length_eq]
          exact .intro here moment calls requested unfaulted unrecorded
      · intro _
        refine ih.of_extends (Execution.ignoreRest_extends now) ?_
        rw [ChoiceStack.length_toList, ChoiceStack.length_toList]
        exact (Execution.ignoreRest_depth now).2
      · exact fun _ _ _ => ih

/-- Before each run every choice on the path is one recorded for a request. -/
theorem traced_of_getElem? (empty : progress.search.stack.toList = [])
    (standing : progress.opening.Standing []) {budget : Nat}
    (here : (progress.trail program budget)[place]? = some turn) :
    Traced program (progress.trail program budget) place turn.search.stack.toList := by
  induction place generalizing turn with
  | zero =>
      cases budget with
      | zero => cases here
      | succ budget =>
          cases here
          rw [empty]
          intro passed generator found
          cases found
  | succ place ih =>
      obtain ⟨before, at_place⟩ : ∃ before, (progress.trail program budget)[place]? = some before :=
        ⟨_, List.getElem?_eq_getElem (Nat.lt_of_succ_lt (List.getElem?_eq_some_iff.mp here).1)⟩
      -- What the run before left behind is traced, and the next path is taken from it.
      have stands := standing_of_mem_trail standing (List.mem_of_getElem? at_place)
      obtain ⟨steps, ending⟩ :=
        Execution.Moment.exists_end before.opening (program before.state)
      have left := traced_of_moment at_place stands (ih at_place) ending
      exact left.next (ending.standing stands).started
        (follows_of_getElem? at_place here).nextPath?_eq

/-- In a run that ends without a fault a call is answered for a request made at its place. -/
theorem exists_origin (empty : progress.search.stack.toList = [])
    (standing : progress.opening.Standing []) {budget : Nat} {call : Call} {request : Request}
    {further : Run (Option Violation × σ)}
    (here : (progress.trail program budget)[place]? = some turn)
    (unfaulted : (turn.attempt program).2.fault = none)
    (moment : turn.Moment program steps now rest) (calls : now.Calls rest call further)
    (requested : Step.request? ⟨now, call⟩ = some request) :
    ∃ value earlier origin, Step.answer? ⟨now, call⟩ = some (.value value) ∧
      earlier ≤ place ∧
      FirstAsks program (progress.trail program budget) earlier (asked steps) origin ∧
      origin.kind = request.kind ∧ origin.alternatives.Offers value ∧
      (turn.search.stack.get? (asked steps) = none → origin = request) ∧
      ∀ body, program.Repeats body → progress.Fits body → origin = request := by
  obtain ⟨answer_eq, after_eq⟩ := Step.of_request requested
  have before : now.fault = none := moment.unfaulted unfaulted
  have after : (now.choose request).2.fault = none := by
    rw [← after_eq]
    exact (moment.next calls).unfaulted unfaulted
  have recorded_eq := (moment.replays turn.replays_opening).get?_eq before
  rw [answer_eq]
  -- With nothing recorded ahead the request serves itself, on the path or past its limit.
  cases reached : now.ahead with
  | nil =>
      rw [reached] at recorded_eq
      have asks : FirstAsks program (progress.trail program budget) place (asked steps) request :=
        .intro here moment calls requested before recorded_eq
      obtain ⟨offers, first⟩ := Execution.choose_of_unrecorded before reached after
      exact ⟨request.value 0, place, request, by rw [first], Nat.le_refl place, asks, rfl,
        Request.value_offered (Nat.pos_of_ne_zero offers), fun _ => rfl, fun _ _ _ => rfl⟩
  | cons recorded ahead =>
      rw [reached] at recorded_eq
      by_cases kind : recorded.kind = request.kind
      · obtain ⟨earlier, origin, le, asks, serves⟩ :=
          traced_of_getElem? empty standing here (asked steps) recorded recorded_eq
        obtain ⟨value, current, offered⟩ := recorded.exists_value serves.started
        rw [Execution.choose_of_recorded before reached kind, current]
        refine ⟨value, earlier, origin, rfl, le, asks, ?_, ?_, fun unrecorded => ?_,
          fun body repeats fits => ?_⟩
        · exact serves.kind_eq.symm.trans kind
        · rw [← serves.alternatives_eq]
          exact offered
        · cases recorded_eq.symm.trans unrecorded
        · have turn_fits := fits_of_mem_trail repeats fits (List.mem_of_getElem? here)
          exact serves.request_eq
            (recorded_serves repeats turn_fits moment calls requested before reached)
      · rw [Execution.choose_of_other before reached kind] at after
        cases after

end Progress

/--
In a search that finishes, every request is answered with a value of a request of its
kind, first made at its place in this or an earlier run.  This is the request itself if
nothing was recorded at this place, or if the program does the same in every run.  A
request at the place of a recorded choice of another kind ends the search with an error.
-/
theorem answers_are_of_requests_first_made {σ : Type} (search : Search) (program : Program σ)
    (state : σ) (budget : Nat) :
    (∀ summary, (search.run program state budget).1 = .finished summary →
      ∀ (place : Nat) (turn : Progress σ) steps now rest call further request,
        (search.trail program state budget)[place]? = some turn →
        turn.Moment program steps now rest → now.Calls rest call further →
        Step.request? ⟨now, call⟩ = some request →
        ∃ value earlier origin, Step.answer? ⟨now, call⟩ = some (.value value) ∧
          earlier ≤ place ∧
          FirstAsks program (search.trail program state budget) earlier (asked steps) origin ∧
          origin.kind = request.kind ∧ origin.alternatives.Offers value ∧
          (turn.search.stack.get? (asked steps) = none → origin = request) ∧
          ∀ body, program.Repeats body → origin = request) ∧
    (∀ (place : Nat) (turn : Progress σ) steps now rest call further request recorded,
      (search.trail program state budget)[place]? = some turn →
      turn.Moment program steps now rest → now.fault = none → now.Calls rest call further →
      Step.request? ⟨now, call⟩ = some request →
      turn.search.stack.get? (asked steps) = some recorded → recorded.kind ≠ request.kind →
      (search.run program state budget).1 =
        .faulted (.divergence (asked steps) recorded.kind request.kind)) ∧
    ∀ min max value, (Request.int min max).alternatives.Offers value ↔
      ∃ number, value = .int number ∧ min ≤ number ∧ number ≤ max := by
  refine ⟨?_, ?_, Request.int_offers_iff⟩
  · intro summary finished place turn steps now rest call further request here moment calls
      requested
    have unfaulted : (turn.attempt program).2.fault = none := by
      cases faulted : (turn.attempt program).2.fault with
      | none => rfl
      | some fault =>
          have ended := congrArg Prod.fst (Progress.explore_of_fault here faulted).1
          cases finished.symm.trans ended
    have empty : (search.outset state).search.stack.toList = [] := rfl
    obtain ⟨value, earlier, origin, answered, le, asks, kind_eq, offered, new, same⟩ :=
      Progress.exists_origin empty (search.standing_outset state) here unfaulted moment calls
        requested
    refine ⟨value, earlier, origin, answered, le, asks, kind_eq, offered, new,
      fun body repeats => same body repeats ?_⟩
    exact ChoiceTree.fits_nil _
  · intro place turn steps now rest call further request recorded here moment unfaulted calls
      requested there other
    have faulted := (Execution.Moment.fault_iff (program turn.state) rfl turn.replays_opening
      (.divergence (asked steps) recorded.kind request.kind)).mpr
        ⟨steps, now, rest, call, further, request, moment, unfaulted, calls, requested,
          .otherKind there other⟩
    exact congrArg Prod.fst (Progress.explore_of_fault here faulted).1

/-- A number up to one in the first run, and from five to six in each later one. -/
def shiftedScript : List Script.Statement :=
  [.ask .runNumber none (some "run"),
    .branch [("run", "1")] [.ask (.choose (.int 0 1)) none none]
      [.ask (.choose (.int 5 6)) none none]]

def shiftedFirst : Progress Script.Logs := outset { options := {} } #[]

def shiftedSecond : Progress Script.Logs := (shiftedFirst.step (Script.program shiftedScript)).2

theorem shifted_finishes :
    (run { options := {} } (Script.program shiftedScript) #[] 2).1 =
      .finished { pathsExplored := 2, maxDepth := 1 } := by
  decide +kernel

theorem shifted_goes_on :
    (trail { options := {} } (Script.program shiftedScript) #[] 2)[1]? = some shiftedSecond := by
  have first_step : shiftedFirst.step (Script.program shiftedScript) = (none, shiftedSecond) :=
    Prod.ext (by decide +kernel) rfl
  have trail_eq : trail { options := {} } (Script.program shiftedScript) #[] 2 =
      shiftedFirst :: shiftedSecond.trail (Script.program shiftedScript) 1 :=
    Progress.trail_of_step first_step 1
  rw [trail_eq]
  rfl

theorem shifted_answers_are_of_requests_first_made :
    let turns := trail { options := {} } (Script.program shiftedScript) #[] 2
    let search : Search := { options := { multipleErrors := true } }
    let second := ((search.outset false).step turncoat).2
    (∃ value earlier origin,
      Step.answer? ⟨shiftedSecond.opening, .choose (.int 5 6)⟩ = some (.value value) ∧
        earlier ≤ 1 ∧ FirstAsks (Script.program shiftedScript) turns earlier 0 origin ∧
        origin.kind = .intInterval ∧ origin.alternatives.Offers value) ∧
    (search.trail turncoat false 2)[1]? = some second ∧
    (search.run turncoat false 2).1 = .faulted (.divergence 0 .boolean .intInterval) := by
  intro turns search second
  obtain ⟨answers, -⟩ :=
    answers_are_of_requests_first_made { options := {} } (Script.program shiftedScript) #[] 2
  obtain ⟨value, earlier, origin, answered, le, asks, kind_eq, offered, -⟩ :=
    answers _ shifted_finishes 1 shiftedSecond [] _ _ _ _ (.int 5 6) shifted_goes_on .opening
      (.choose _ _) rfl
  have goes_on : (search.outset false).step turncoat = (none, second) := rfl
  have here : (search.trail turncoat false 2)[1]? = some second := by
    rw [Search.trail, Progress.trail_of_step goes_on]
    rfl
  have recorded : second.search.stack.get? 0 = some (Request.bool.pick 0) := rfl
  have ends := (answers_are_of_requests_first_made search turncoat false 2).2.1 1 second [] _ _ _ _
    (.int 3 4) _ here .opening rfl (.choose _ _) rfl recorded (by decide)
  exact ⟨⟨value, earlier, origin, answered, le, asks, kind_eq, offered⟩, here, ends⟩

/--
In a search that finishes, a second run that asks for a number from five to six is
given one, which the first run has asked for.
-/
theorem replay_gives_a_number_not_asked_for :
    let program := Script.program shiftedScript
    let search : Search := { options := {} }
    (∃ summary, (search.run program #[] 2).1 = .finished summary) ∧
    (search.trail program #[] 2)[1]? = some shiftedSecond ∧
    (∃ further, shiftedSecond.opening.Calls (program shiftedSecond.state)
      (.choose (.int 5 6)) further) ∧
    Step.answer? ⟨shiftedSecond.opening, .choose (.int 5 6)⟩ = some (.value (.int 1)) ∧
    ¬(Request.int 5 6).alternatives.Offers (.int 1) := by
  intro program search
  have answered : Step.answer? ⟨shiftedSecond.opening, .choose (.int 5 6)⟩ =
      some (.value (.int 1)) := by
    decide +kernel
  refine ⟨⟨_, shifted_finishes⟩, shifted_goes_on, ⟨_, .choose _ _⟩, answered, ?_⟩
  intro offered
  obtain ⟨number, same, low, -⟩ := (Request.int_offers_iff 5 6 _).mp offered
  cases same
  exact absurd low (by decide)

end Search

end ChoiceExplorer
