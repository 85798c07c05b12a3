import ChoiceExplorer.Proofs.Notices
import ChoiceExplorer.Proofs.Tags

/-!
# Locations on violating paths

A recorded choice point keeps the location that an earlier run gave it.  A run of a program
that does the same in every run makes the calls of the run before it up to the last choice
recorded for it.  So it tags each recorded choice point as the run did that made it, and what
observers see on the path of a violation is what the violating run itself has tagged.
-/

namespace ChoiceExplorer

/-- The value of a generator depends on its alternatives and its position. -/
theorem Generator.Same.value?_eq {first second : Generator} (same : first.Same second)
    (taken_eq : first.taken = second.taken) : first.value? = second.value? := by
  rw [Generator.value?, Generator.value?, taken_eq, same.alternatives_eq]

namespace Search

def Notice.view : Notice → View
  | started view | violated view | finished view => view

namespace Execution

variable {α : Type} {execution start later now : Execution} {run rest further : Run α}
  {steps : List Step} {call : Call} {request : Request}

theorem choose_random (execution : Execution) (request : Request) :
    (execution.choose request).2.random = execution.random := by
  apply choose_cases (motive := fun answer => answer.2.random = execution.random)
  case faulted => exact fun _ => rfl
  case replayed => exact fun _ _ _ _ _ => rfl
  case diverged => exact fun _ _ _ _ _ => rfl
  case empty => exact fun _ _ _ => rfl
  case forced => exact fun _ _ _ _ => rfl
  case new => exact fun _ _ _ _ => rfl

theorem ignoreRest_random (execution : Execution) :
    execution.ignoreRest.random = execution.random := by
  unfold ignoreRest
  split <;> rfl

/-- A call without a fault after it finds none. -/
theorem Calls.unfaulted (calls : now.Calls rest call further)
    (unfaulted : (Step.after ⟨now, call⟩).fault = none) : now.fault = none := by
  cases faulted : now.fault with
  | none => rfl
  | some fault =>
      rw [(Moment.opening.next calls).fault_eq faulted] at unfaulted
      cases unfaulted

namespace Moment

/-- As many choice points have been passed as asked for, if the path holds a further one. -/
theorem depth_eq_asked (moment : start.Moment run steps now rest) (standing : start.Standing [])
    (ended : (start.perform run).2.fault = none)
    (longer : asked steps < (start.perform run).2.stack.depth) :
    now.depth = asked steps ∧ now.isFull = false := by
  obtain ⟨all, ending⟩ := exists_end start run
  have room (limit : Nat) (limited : now.options.depthLimit = some limit) :
      asked steps < limit := by
    refine Nat.lt_of_lt_of_le longer ((ending.standing standing).within limit ?_)
    rw [ending.extends_stack.1, ← moment.extends_stack.1, limited]
  have depth_eq := (moment.standing standing).depth_eq (moment.unfaulted ended)
  have uncapped : now.options.capped (asked steps) = asked steps := by
    unfold Options.capped
    split
    · rfl
    · rename_i limit limited
      exact Nat.min_eq_left (Nat.le_of_lt (room limit limited))
  rw [uncapped] at depth_eq
  refine ⟨depth_eq, Options.not_isFull_iff.mpr fun limit limited => ?_⟩
  show now.depth < limit
  rw [depth_eq]
  exact room limit limited

/-- A request is answered by the generator that the run leaves at its place. -/
theorem answered_by_left (moment : start.Moment run steps now rest)
    (standing : start.Standing []) (ended : (start.perform run).2.fault = none)
    (calls : now.Calls rest call further) (requested : Step.request? ⟨now, call⟩ = some request)
    {left : Generator} (found : (start.perform run).2.stack.get? (asked steps) = some left) :
    ∃ generator value, (Step.after ⟨now, call⟩).stack.get? (asked steps) = some generator ∧
      generator.Kept left ∧ Step.answer? ⟨now, call⟩ = some (.value value) ∧
      left.value? = some value := by
  have longer : asked steps < (start.perform run).2.stack.depth := by
    rw [← ChoiceStack.length_toList]
    exact (List.getElem?_eq_some_iff.mp found).1
  obtain ⟨depth_eq, room⟩ := moment.depth_eq_asked standing ended longer
  have onward := moment.next calls
  have stands : (⟨now, call⟩ : Step).before.Standing steps := moment.standing standing
  obtain ⟨generator, value, answered, current, -, -, place⟩ :=
    stands.served requested (onward.unfaulted ended)
  rcases place with there | ⟨-, full, -⟩
  · have extends_left := (perform_extends (Step.after ⟨now, call⟩) further).2
    rw [onward.perform_eq] at extends_left
    have there : (Step.after ⟨now, call⟩).stack.get? (asked steps) = some generator :=
      depth_eq ▸ there
    obtain ⟨after, same, kept⟩ := extends_left.kept_of_getElem? there
    cases found.symm.trans same
    refine ⟨generator, value, there, kept, answered, ?_⟩
    rw [← kept.same.value?_eq kept.taken_eq, current]
  · cases room.symm.trans full

/-- A run has made the request for every choice point that it has passed. -/
theorem exists_asked (moment : start.Moment run steps now rest) {passed : Nat}
    (lt : passed < asked steps) :
    ∃ before reached onward call request further after, start.Moment run before reached onward ∧
      reached.Calls onward call further ∧ Step.request? ⟨reached, call⟩ = some request ∧
      asked before = passed ∧ steps = before ++ ⟨reached, call⟩ :: after ∧
      (now.fault = none → reached.fault = none) := by
  induction moment with
  | opening => exact absurd lt (Nat.not_lt_zero _)
  | @next steps now rest further call moment calls ih =>
      by_cases older : passed < asked steps
      · obtain ⟨before, reached, onward, other, request, later, after, there, calling, requested,
          count, steps_eq, unfaulted⟩ := ih older
        refine ⟨before, reached, onward, other, request, later, after ++ [⟨now, call⟩], there,
          calling, requested, count, ?_, fun ended => unfaulted (calls.unfaulted ended)⟩
        rw [steps_eq, List.append_assoc, List.cons_append]
      · cases requested : Step.request? ⟨now, call⟩ with
        | none =>
            rw [asked_concat_of_none requested] at lt
            exact absurd lt older
        | some request =>
            rw [asked_concat_of_some (by rw [requested]; rfl)] at lt
            exact ⟨steps, now, rest, call, request, further, [], moment, calls, requested,
              by omega, rfl, calls.unfaulted⟩

end Moment

/-- Every execution goes on with the call that comes next. -/
theorem Calls.exists_for (calls : now.Calls rest call further) (execution : Execution) :
    ∃ other, execution.Calls rest call other := by
  cases calls with
  | tag location => exact ⟨_, .tag location _⟩
  | ignoreRest => exact ⟨_, .ignoreRest _⟩
  | depth next => exact ⟨_, .depth next⟩
  | choose request next => exact ⟨_, .choose request next⟩
  | draw source next => exact ⟨_, .draw source next⟩

/-- The run goes on in the same way if its call is answered the same. -/
theorem Calls.of_answer (calls : now.Calls rest call further)
    (same : Step.answer? ⟨execution, call⟩ = Step.answer? ⟨now, call⟩) :
    execution.Calls rest call further := by
  cases calls with
  | tag location => exact .tag location _
  | ignoreRest => exact .ignoreRest _
  | depth next =>
      have depth_eq : execution.depth = now.depth := Answer.passed.inj (Option.some.inj same)
      rw [← depth_eq]
      exact .depth next
  | choose request next =>
      have value_eq : (execution.choose request).1 = (now.choose request).1 :=
        Answer.value.inj (Option.some.inj same)
      rw [← value_eq]
      exact .choose request next
  | draw source next =>
      have value_eq : (execution.draw source).1 = (now.draw source).1 :=
        Answer.value.inj (Option.some.inj same)
      rw [← value_eq]
      exact .draw source next

/-- A run begins on the path that comes next after another one without a fault. -/
structure Turned (start later : Execution) (run : Run α) : Prop where
  standing : start.Standing []
  later_standing : later.Standing []
  replays : later.Replays later.stack []
  options_eq : later.options = start.options
  random_eq : later.random = start.random
  untagged : later.location = none
  ended : (start.perform run).2.fault = none
  next_eq : nextPath? (start.perform run).2.stack.toList = some later.stack.toList

namespace Turned

variable {earlier : List Step} {before : Execution}

/-- Runs that have made the same calls under the same options have asked for as much. -/
theorem asked_eq (turned : Turned start later run) (moment : later.Moment run steps now rest)
    (before_moment : start.Moment run earlier before rest)
    (calls_eq : earlier.map Step.call = steps.map Step.call) : asked earlier = asked steps := by
  rw [before_moment.asked_eq, moment.asked_eq, calls_eq, turned.options_eq]

/-- The same call asks for the same choice point in both runs. -/
theorem request?_eq (turned : Turned start later run) (moment : later.Moment run steps now rest)
    (before_moment : start.Moment run earlier before rest) (call : Call) :
    Step.request? ⟨before, call⟩ = Step.request? ⟨now, call⟩ := by
  rw [Step.request?_eq, Step.request?_eq, before_moment.extends_stack.1, moment.extends_stack.1,
    turned.options_eq]

/-- A request that more recorded choices follow is answered as in the run before. -/
theorem answer?_eq (turned : Turned start later run)
    (moment : later.Moment run steps now rest)
    (before_moment : start.Moment run earlier before rest)
    (calls_eq : earlier.map Step.call = steps.map Step.call)
    (calls : now.Calls rest call further) (requested : Step.request? ⟨now, call⟩ = some request)
    (unfaulted : (Step.after ⟨now, call⟩).fault = none)
    (more : (Step.after ⟨now, call⟩).ahead ≠ []) :
    Step.answer? ⟨before, call⟩ = Step.answer? ⟨now, call⟩ := by
  have onward := moment.next calls
  have now_unfaulted := calls.unfaulted unfaulted
  have replays := moment.replays turned.replays
  -- The two paths agree at the place of the request, since a further choice is recorded.
  obtain ⟨depth, agree, length⟩ := agreeTo_of_nextPath? turned.next_eq
  have above : asked steps < depth := by
    have ahead_eq := (onward.replays turned.replays).ahead_eq unfaulted
    rw [asked_concat_of_some (by rw [requested]; rfl)] at ahead_eq
    rw [ahead_eq, ne_eq, List.drop_eq_nil_iff] at more
    omega
  obtain ⟨left, opened, was_left, is_opened, same, taken_eq⟩ := agree.exists_kept above
  -- What the run before answered is the value of the generator that it left there.
  have requested_before := (turned.request?_eq moment before_moment call).trans requested
  obtain ⟨other, calls_before⟩ := calls.exists_for before
  rw [← turned.asked_eq moment before_moment calls_eq] at was_left
  obtain ⟨-, value, -, -, answered_before, left_value⟩ := before_moment.answered_by_left
    turned.standing turned.ended calls_before requested_before was_left
  -- What is replayed is the value of the generator that was recorded there.
  have stands : (⟨now, call⟩ : Step).before.Standing steps :=
    moment.standing turned.later_standing
  obtain ⟨generator, replayed, answered, current, -, -, place⟩ :=
    stands.served requested unfaulted
  have recorded : now.ahead ≠ [] := by
    rw [replays.ahead_eq now_unfaulted, ne_eq, List.drop_eq_nil_iff]
    omega
  rcases place with there | ⟨reached, -⟩
  · have there : (Step.after ⟨now, call⟩).stack.get? (asked steps) = some generator :=
      replays.depth_eq now_unfaulted recorded ▸ there
    obtain ⟨after, still, kept⟩ := onward.kept_of_get? is_opened
    cases there.symm.trans still
    have value_eq : left.value? = generator.value? :=
      (same.value?_eq taken_eq).trans (kept.same.value?_eq kept.taken_eq)
    rw [left_value, current] at value_eq
    rw [answered_before, answered, Option.some.inj value_eq]
  · exact absurd reached recorded

/-- A call that asks for no choice point is answered as in the run before. -/
theorem answer?_eq_of_none (turned : Turned start later run)
    (moment : later.Moment run steps now rest)
    (before_moment : start.Moment run earlier before rest)
    (calls_eq : earlier.map Step.call = steps.map Step.call)
    (random_eq : before.random = now.random) (unfaulted : now.fault = none)
    (unasked : Step.request? ⟨now, call⟩ = none) :
    Step.answer? ⟨before, call⟩ = Step.answer? ⟨now, call⟩ ∧
      (Step.after ⟨before, call⟩).random = (Step.after ⟨now, call⟩).random := by
  have options_eq : before.options = now.options := by
    rw [before_moment.extends_stack.1, moment.extends_stack.1, turned.options_eq]
  cases call with
  | tag location => exact ⟨rfl, random_eq⟩
  | ignoreRest =>
      refine ⟨rfl, ?_⟩
      show before.ignoreRest.random = now.ignoreRest.random
      rw [ignoreRest_random, ignoreRest_random, random_eq]
  | depth =>
      refine ⟨?_, random_eq⟩
      have depth_eq : before.depth = now.depth := by
        rw [(before_moment.standing turned.standing).depth_eq
            (before_moment.unfaulted turned.ended),
          (moment.standing turned.later_standing).depth_eq unfaulted, options_eq,
          turned.asked_eq moment before_moment calls_eq]
      exact congrArg (some <| Answer.passed ·) depth_eq
  | choose request => cases unasked
  | draw source =>
      have drawn : now.options.request? source = none := unasked
      have drawn_before : before.options.request? source = none := options_eq ▸ drawn
      show some (Answer.value (before.draw source).1) = some (Answer.value (now.draw source).1) ∧
        (before.draw source).2.random = (now.draw source).2.random
      rw [draw_of_none drawn, draw_of_none drawn_before, random_eq]
      exact ⟨rfl, rfl⟩

/--
As long as choices are recorded ahead of it, a run makes the calls of the run before it,
and comes to the same.
-/
theorem mirrored (turned : Turned start later run) (moment : later.Moment run steps now rest)
    (unfaulted : now.fault = none) (recorded : now.ahead ≠ []) :
    ∃ earlier before, start.Moment run earlier before rest ∧
      earlier.map Step.call = steps.map Step.call ∧ before.random = now.random := by
  induction moment with
  | opening => exact ⟨[], start, .opening, rfl, turned.random_eq.symm⟩
  | @next steps now rest further call moment calls ih =>
      have now_unfaulted := calls.unfaulted unfaulted
      have now_recorded : now.ahead ≠ [] := by
        have later_eq := ((moment.next calls).replays turned.replays).ahead_eq unfaulted
        rw [later_eq, ne_eq, List.drop_eq_nil_iff, asked, List.countP_append] at recorded
        rw [(moment.replays turned.replays).ahead_eq now_unfaulted, ne_eq, List.drop_eq_nil_iff,
          asked]
        omega
      obtain ⟨earlier, before, before_moment, calls_eq, random_eq⟩ := ih now_unfaulted now_recorded
      have same : Step.answer? ⟨before, call⟩ = Step.answer? ⟨now, call⟩ ∧
          (Step.after ⟨before, call⟩).random = (Step.after ⟨now, call⟩).random := by
        cases requested : Step.request? ⟨now, call⟩ with
        | none =>
            exact turned.answer?_eq_of_none moment before_moment calls_eq random_eq
              now_unfaulted requested
        | some request =>
            have requested_before :=
              (turned.request?_eq moment before_moment call).trans requested
            refine ⟨turned.answer?_eq moment before_moment calls_eq calls requested unfaulted
              recorded, ?_⟩
            rw [(Step.of_request requested).2, (Step.of_request requested_before).2,
              choose_random, choose_random]
            exact random_eq
      have onward := before_moment.next (calls.of_answer same.1)
      refine ⟨_, _, onward, ?_, same.2⟩
      rw [List.map_append, List.map_append, calls_eq]
      rfl

end Turned

/-- The choice points that a run passes without a fault stand where it has tagged them itself. -/
def Located (start : Execution) (run : Run α) : Prop :=
  ∀ steps now rest, start.Moment run steps now rest → now.fault = none →
    ∀ passed generator, passed < asked steps → now.stack.get? passed = some generator →
      Tagged start.options (steps.map Step.call) passed generator

/-- On an empty path a run makes all choice points itself. -/
theorem located_of_empty (standing : start.Standing []) (untagged : start.location = none)
    (empty : start.stack.toList = []) : Located start run := by
  intro steps now rest moment _ passed generator _ found
  refine moment.tagged_of_new standing untagged ?_ found
  rw [ChoiceStack.get?, empty]
  rfl

/-- A run tags the choice points recorded before it as the run before has tagged them. -/
theorem Turned.located (turned : Turned start later run) (located : Located start run) :
    Located later run := by
  intro steps now rest moment unfaulted passed generator lt found
  cases opened : later.stack.get? passed with
  | none => exact moment.tagged_of_new turned.later_standing turned.untagged opened found
  | some recorded =>
      obtain ⟨earlier_steps, reached, onward, call, request, further, after, here, calls,
        requested, rfl, rfl, earlier_unfaulted⟩ := moment.exists_asked lt
      have reached_unfaulted := earlier_unfaulted unfaulted
      have ahead : reached.ahead ≠ [] := by
        have head := (here.replays turned.replays).get?_eq reached_unfaulted
        rw [opened] at head
        intro reached_end
        rw [reached_end] at head
        cases head
      obtain ⟨earlier, before, there, calls_eq, -⟩ := turned.mirrored here reached_unfaulted ahead
      have requested_before := (turned.request?_eq here there call).trans requested
      obtain ⟨other, calls_before⟩ := calls.exists_for before
      have count := turned.asked_eq here there calls_eq
      obtain ⟨left, was_left, same⟩ := same_of_nextPath? turned.next_eq opened
      rw [← count] at was_left
      obtain ⟨made, -, passed_there, kept, -⟩ := there.answered_by_left turned.standing
        turned.ended calls_before requested_before was_left
      -- The run before has tagged it by the calls up to this request, and those are the same.
      have counted : asked earlier < asked (earlier ++ [⟨before, call⟩]) := by
        rw [asked_concat_of_some (by rw [requested_before]; rfl)]
        exact Nat.lt_succ_self _
      have onward_before := there.next calls_before
      have tagged := located _ _ _ onward_before (onward_before.unfaulted turned.ended) _ made
        counted passed_there
      obtain ⟨last, still, keeps⟩ := moment.kept_of_get? opened
      cases found.symm.trans still
      have started := turned.later_standing.started recorded (List.mem_of_getElem? opened)
      have at_later := (((tagged.kept kept).same same started).kept keeps).append
        (after.map Step.call)
      rw [List.map_append, calls_eq, count, List.append_assoc] at at_later
      rw [List.map_append, List.map_cons, turned.options_eq]
      exact at_later

end Execution

namespace Progress

variable {σ : Type} {program : Program σ} {body : Run (Option Violation)}
  {progress next turn : Progress σ} {budget : Nat}

theorem perform_of_repeats (repeats : program.Repeats body) (progress : Progress σ) :
    progress.opening.perform body =
      ((progress.attempt program).1.1, (progress.attempt program).2) := by
  rw [← repeats progress.state, Execution.perform_map]
  rfl

theorem turned_of_follows (repeats : program.Repeats body)
    (follows : Follows program progress next) (standing : progress.opening.Standing [])
    (next_standing : next.opening.Standing []) :
    Execution.Turned progress.opening next.opening body where
  standing := standing
  later_standing := next_standing
  replays := by
    rw [stack_opening]
    exact next.replays_opening
  options_eq := follows.options_eq
  random_eq := by
    show Chance.Stream.ofSeed next.search.options.seed =
      Chance.Stream.ofSeed progress.search.options.seed
    rw [follows.options_eq]
  untagged := rfl
  ended := by
    rw [perform_of_repeats repeats]
    exact Visit.fault_of_goes_on follows.goes_on
  next_eq := by
    rw [perform_of_repeats repeats, stack_opening]
    exact follows.nextPath?_eq

/-- In each of its runs a program that does the same in every run tags all that it passes. -/
theorem located_of_getElem? (repeats : program.Repeats body)
    (empty : progress.search.stack.toList = []) (standing : progress.opening.Standing [])
    {place : Nat} (here : (progress.trail program budget)[place]? = some turn) :
    turn.opening.Located body := by
  induction place generalizing turn with
  | zero =>
      cases budget with
      | zero => cases here
      | succ budget =>
          cases here
          refine Execution.located_of_empty standing rfl ?_
          rw [stack_opening]
          exact empty
  | succ place ih =>
      obtain ⟨before, at_place⟩ :
          ∃ before, (progress.trail program budget)[place]? = some before :=
        ⟨_, List.getElem?_eq_getElem (Nat.lt_of_succ_lt (List.getElem?_eq_some_iff.mp here).1)⟩
      have turned := turned_of_follows repeats (follows_of_getElem? at_place here)
        (standing_of_mem_trail standing (List.mem_of_getElem? at_place))
        (standing_of_mem_trail standing (List.mem_of_getElem? here))
      exact turned.located (ih at_place)

/-- A run without a fault has passed all that is recorded for it. -/
theorem ahead_of_fits (repeats : program.Repeats body) (fits : turn.Fits body)
    (unfaulted : (turn.attempt program).2.fault = none) :
    (turn.attempt program).2.ahead = [] := by
  obtain ⟨rest, -, leaves⟩ := Execution.visits body turn.opening [] fits
  rw [perform_of_repeats repeats] at leaves
  obtain ⟨path, reached, -⟩ := leaves unfaulted
  exact reached

end Progress

/--
The path of a run that ended with a violation, which has itself made the requests for all
choice points on it and has tagged them so.
-/
inductive TaggedPath {σ : Type} (program : Program σ) (turns : List (Progress σ)) :
    ChoiceStack → Prop where
  | intro {turn : Progress σ} {steps : List Step} {violation : Violation} {state : σ}
      (member : turn ∈ turns) (unfaulted : (turn.attempt program).2.fault = none)
      (moment : turn.Moment program steps (turn.attempt program).2
        (.done (some violation, state)))
      (tagged : ∀ passed generator, (turn.left program).get? passed = some generator →
        Tagged turn.search.options (steps.map Step.call) passed generator) :
      TaggedPath program turns (turn.left program)

section

variable {σ : Type} {search : Search} {program : Program σ} {state : σ} {budget : Nat}
  {body : Run (Option Violation)}

/-- What observers see of a violation is a path that the violating run has tagged. -/
theorem taggedPath_of_alarm (repeats : program.Repeats body) {view : View}
    (seen : view ∈ search.alarms program state budget) :
    TaggedPath program (search.trail program state budget) view.stack := by
  obtain ⟨turn, among, rfl⟩ := List.mem_map.mp seen
  obtain ⟨member, fails⟩ := List.mem_filter.mp among
  obtain ⟨unfaulted, violation, violated⟩ := Visit.fails_iff.mp fails
  rw [Progress.visit_fault] at unfaulted
  rw [Progress.visit_result] at violated
  obtain ⟨steps, ending⟩ := Execution.Moment.exists_end turn.opening (program turn.state)
  have stack_eq : (turn.alarm program).stack = turn.left program := turn.counted_stack
  rw [stack_eq]
  have result_eq : (turn.attempt program).1 = (some violation, (turn.attempt program).1.2) :=
    Prod.ext violated rfl
  refine .intro member unfaulted (result_eq ▸ ending) fun passed generator found => ?_
  have begun : (search.outset state).Fits body := ChoiceTree.fits_nil _
  have fits := Progress.fits_of_mem_trail repeats begun member
  obtain ⟨place, here⟩ := List.getElem?_of_mem member
  have located := Progress.located_of_getElem? repeats rfl (search.standing_outset state) here
  have standing := (Progress.standing_of_mem_trail (search.standing_outset state) member)
  have mapped := ending.map Prod.fst
  rw [repeats turn.state] at mapped
  refine located _ _ _ mapped unfaulted passed generator ?_ found
  -- Nothing is left ahead, so that the path is no longer than the requests made.
  have within : passed < (turn.left program).depth := by
    rw [← ChoiceStack.length_toList]
    exact (List.getElem?_eq_some_iff.mp found).1
  have depth_eq := (ending.standing standing).depth_eq unfaulted
  have all : (turn.left program).depth = (turn.attempt program).2.depth := by
    rw [Progress.left, Execution.depth_stack, Progress.ahead_of_fits repeats fits unfaulted]
    rfl
  have capped_le (options : Options) (count : Nat) : options.capped count ≤ count := by
    unfold Options.capped
    split
    · exact Nat.le_refl _
    · exact Nat.min_le_left _ _
  exact Nat.lt_of_lt_of_le (all ▸ within) (depth_eq ▸ capped_le _ _)

/-- Observers see no other path than one that a violating run has tagged. -/
theorem taggedPath_of_notice (repeats : program.Repeats body) {notice : Notice}
    (told : notice ∈ (search.run program state budget).2.notices) :
    notice.view.stack = .empty ∨
      TaggedPath program (search.trail program state budget) notice.view.stack := by
  rw [run_notices] at told
  rcases List.mem_cons.mp told with rfl | told
  · exact .inl rfl
  · rcases List.mem_append.mp told with violated | closed
    · obtain ⟨view, seen, rfl⟩ := List.mem_map.mp violated
      exact .inr (taggedPath_of_alarm repeats seen)
    · cases ended : (search.run program state budget).1 with
      | finished summary =>
          rw [ended] at closed
          cases List.mem_singleton.mp closed
          show (search.run program state budget).2.search.stack = .empty ∨
            TaggedPath program _ (search.run program state budget).2.search.stack
          rw [stack_of_finished ended]
          split
          · exact .inl rfl
          · cases last : (search.alarms program state budget).getLast? with
            | none => exact .inl rfl
            | some view =>
                exact .inr (taggedPath_of_alarm repeats (List.mem_of_getLast? last))
      | faulted fault =>
          rw [ended] at closed
          cases closed
      | unfinished =>
          rw [ended] at closed
          cases closed

end

/--
At every moment what is noted is the last tag since a value was asked for.  A choice point
that a run adds to its path stands where the last tag before its request says, and no
replay, backtracking or run after it changes this.  If the program does the same in every
run, all that observers see on the path of a violation is as the violating run tagged it.
-/
theorem locations_are_the_last_tags {σ : Type} (search : Search) (program : Program σ)
    (state : σ) (budget : Nat) :
    (∀ (place : Nat) (turn : Progress σ) steps now rest,
      (search.trail program state budget)[place]? = some turn →
      turn.Moment program steps now rest →
      now.location = lastTag (steps.map Step.call) ∧
      ∀ passed generator, now.stack.get? passed = some generator →
        (turn.search.stack.get? passed = none →
          Tagged search.options (steps.map Step.call) passed generator) ∧
        ∃ origin, MadeIn program (search.trail program state budget) place passed generator
          origin) ∧
    ∀ body, program.Repeats body → ∀ notice ∈ (search.run program state budget).2.notices,
      notice.view.stack = .empty ∨
        TaggedPath program (search.trail program state budget) notice.view.stack := by
  refine ⟨?_, fun body repeats notice told => taggedPath_of_notice repeats told⟩
  intro place turn steps now rest here moment
  refine ⟨moment.location_eq rfl, fun passed generator found => ⟨fun absent => ?_, ?_⟩⟩
  · have member := List.mem_of_getElem? here
    have options_eq : turn.opening.options = search.options :=
      Progress.options_of_mem_trail member
    rw [← options_eq]
    refine moment.tagged_of_new ?_ rfl (by rw [Progress.stack_opening]; exact absent) found
    exact Progress.standing_of_mem_trail (search.standing_outset state) member
  · exact Progress.exists_madeIn rfl (search.standing_outset state) here moment found

/--
A truth value chosen at a door, one drawn at a window, and one chosen nowhere in particular.
Behind the door a violation waits.
-/
def wanderer : Program Unit := fun _ =>
  .tag "door" (.choose .bool fun entered =>
    .tag "window" (.draw .bool fun _ => .choose .bool fun _ =>
      .done (if entered = .bool true then some (.uncaught "trapped") else none, ())))

theorem wanderer_locations_are_the_last_tags :
    let search : Search := { options := {} }
    let turns := search.trail wanderer () 3
    (∃ turn generator, turns[2]? = some turn ∧
      turn.opening.stack.get? 0 = some generator ∧ generator.location = some "door" ∧
      ∃ origin, MadeIn wanderer turns 2 0 generator origin) ∧
    ∃ notice ∈ (search.run wanderer () 3).2.notices,
      notice.view.stack.toList.map Generator.location = [some "door", none] ∧
      TaggedPath wanderer turns notice.view.stack := by
  intro search turns
  obtain ⟨moments, paths⟩ := locations_are_the_last_tags search wanderer () 3
  have repeats : wanderer.Repeats (Prod.fst <$> wanderer ()) := fun _ => rfl
  constructor
  · obtain ⟨turn, here, generator, found, location_eq⟩ : ∃ turn, turns[2]? = some turn ∧
        ∃ generator, turn.opening.stack.get? 0 = some generator ∧
          generator.location = some "door" :=
      ⟨_, rfl, _, rfl, by decide +kernel⟩
    exact ⟨turn, generator, here, found, location_eq,
      ((moments 2 turn [] _ _ here .opening).2 0 generator found).2⟩
  · obtain ⟨notice, told, seen⟩ : ∃ notice ∈ (search.run wanderer () 3).2.notices,
        notice.view.stack.toList.map Generator.location = [some "door", none] := by
      decide +kernel
    refine ⟨notice, told, seen, ?_⟩
    rcases paths _ repeats notice told with empty | tagged
    · rw [empty] at seen
      cases seen
    · exact tagged

end Search

end ChoiceExplorer
