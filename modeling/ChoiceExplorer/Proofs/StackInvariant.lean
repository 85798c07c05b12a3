import ChoiceExplorer.Proofs.Moments
import ChoiceExplorer.Proofs.Offers
import ChoiceExplorer.Proofs.StrictProgress

/-!
# The stack of a search

At every moment of every run all generators on the path have been started, and the
path respects the depth limit.  A run leaves the generators that it finds as they
are, up to their retirement, and as long as it has no fault each of its requests is
served by a generator.
-/

namespace ChoiceExplorer

namespace Generator

/-- A generator that stands at one of its alternatives, of the sort of its kind. -/
structure Current (generator : Generator) : Prop where
  value : ∃ value, generator.value? = some value ∧ generator.kind.Yields value
  one_le_processed : 1 ≤ generator.processed
  processed_le_total : generator.processed ≤ generator.total

theorem current_of_started {generator : Generator} (started : 0 < generator.taken) :
    generator.Current where
  value := by
    obtain ⟨value, found, offered⟩ := exists_value started
    exact ⟨value, found, offered.yields⟩
  one_le_processed := Nat.le_min.mpr ⟨started, by decide⟩
  processed_le_total :=
    Nat.le_min.mpr ⟨Nat.le_trans (Nat.min_le_left _ _) generator.taken_le, Nat.min_le_right _ _⟩

/-- A generator keeps all but perhaps its retirement, which is not taken back. -/
structure Stays (before after : Generator) : Prop where
  id_eq : after.id = before.id
  alternatives_eq : after.alternatives = before.alternatives
  taken_eq : after.taken = before.taken
  text_eq : after.text = before.text
  location_eq : after.location = before.location
  retired_of : before.retired = true → after.retired = true

theorem Kept.stays {before after : Generator} (kept : before.Kept after) : before.Stays after := by
  rcases kept with rfl | rfl
  · exact ⟨rfl, rfl, rfl, rfl, rfl, fun retired => retired⟩
  · exact ⟨rfl, rfl, rfl, rfl, rfl, fun _ => rfl⟩

end Generator

namespace Search

namespace Options

/-- A number of choice points, as far as the depth limit lets them be recorded. -/
def capped (options : Options) (count : Nat) : Nat :=
  match options.depthLimit with
  | none => count
  | some limit => min count limit

theorem isFull_iff {options : Options} {length : Nat} :
    options.isFull length = true ↔ ∃ limit, options.depthLimit = some limit ∧ limit ≤ length := by
  rw [isFull, Option.any_eq_true]
  simp only [decide_eq_true_eq]

theorem not_isFull_iff {options : Options} {length : Nat} :
    options.isFull length = false ↔
      ∀ limit, options.depthLimit = some limit → length < limit := by
  rw [← Bool.not_eq_true, isFull_iff]
  simp only [not_exists, not_and, Nat.not_le]

variable {options : Options} {count : Nat}

theorem capped_succ_of_full (full : options.isFull (options.capped count) = true) :
    options.capped (count + 1) = options.capped count := by
  obtain ⟨limit, limited, le⟩ := isFull_iff.mp full
  simp only [capped, limited] at le ⊢
  omega

theorem capped_succ_of_room (room : options.isFull (options.capped count) = false) :
    options.capped (count + 1) = options.capped count + 1 := by
  cases limited : options.depthLimit with
  | none => simp only [capped, limited]
  | some limit =>
      have below := not_isFull_iff.mp room limit limited
      simp only [capped, limited] at below ⊢
      omega

theorem capped_of_room (room : options.isFull (options.capped count) = false) :
    options.capped count = count := by
  cases limited : options.depthLimit with
  | none => simp only [capped, limited]
  | some limit =>
      have below := not_isFull_iff.mp room limit limited
      simp only [capped, limited] at below ⊢
      omega

end Options

/-- What a path holds at a place is kept at this place of a path that goes on from it. -/
theorem Extends.kept_of_getElem? {first second : List Generator} (further : Extends first second)
    {place : Nat} {before : Generator} (found : first[place]? = some before) :
    ∃ after, second[place]? = some after ∧ before.Kept after := by
  induction further generalizing place with
  | fresh added => cases found
  | keep kept _ ih =>
      cases place with
      | zero =>
          cases found
          exact ⟨_, rfl, kept⟩
      | succ place => exact ih found

/-- The generators of a path that goes on have been started if the old and the new ones have. -/
theorem started_of_nextPath? {path next : List Generator}
    (started : ∀ generator ∈ path, 0 < generator.taken) (found : nextPath? path = some next) :
    ∀ generator ∈ next, 0 < generator.taken := by
  induction path generalizing next with
  | nil => cases found
  | cons oldest path ih =>
      obtain ⟨here, further⟩ := List.forall_mem_cons.mp started
      rw [nextPath?] at found
      split at found
      · rename_i rest deeper
        cases found
        exact List.forall_mem_cons.mpr ⟨here, ih further deeper⟩
      · split at found
        · rename_i more
          cases found
          obtain ⟨-, -, taken_eq, -⟩ := Generator.advance_of_hasMore more
          intro generator member
          rw [List.mem_singleton.mp member, taken_eq]
          exact Nat.succ_pos _
        · cases found

/--
A request is answered with the current value of a generator of its kind.  This
stands on the path, or it has been made for this request alone if the path is full.
-/
def Step.Served (step : Step) (request : Request) : Prop :=
  ∃ generator value,
    step.answer? = some (.value value) ∧ generator.value? = some value ∧
    generator.kind = request.kind ∧ request.kind.Yields value ∧
    (step.after.stack.get? step.before.depth = some generator ∨
      step.before.ahead = [] ∧ step.before.isFull = true ∧
        generator = step.before.generator request)

namespace Execution

/-- The newest generator passed stands below those still ahead. -/
theorem get?_of_passed {now : Execution} {newest : Generator} {older : List Generator}
    (passed : now.passed = newest :: older) : now.stack.get? older.length = some newest := by
  rw [ChoiceStack.get?, toList_stack, passed, List.reverse_cons, List.append_assoc,
    List.getElem?_append_right (by simp)]
  simp

/-- What holds of the path of a run that has made some steps. -/
structure Standing (steps : List Step) (now : Execution) : Prop where
  started : ∀ generator ∈ now.stack.toList, 0 < generator.taken
  within : ∀ limit, now.options.depthLimit = some limit → now.stack.depth ≤ limit
  depth_eq : now.fault = none → now.depth = now.options.capped (asked steps)
  truncated : now.truncated = true →
    now.ahead = [] ∧ now.options.isFull now.passed.length = true

namespace Standing

variable {steps : List Step} {now : Execution}

/-- A generator that a request adds has been started, and there was room for it. -/
theorem choose_path (standing : now.Standing steps) (request : Request) :
    (∀ generator ∈ (now.choose request).2.stack.toList, 0 < generator.taken) ∧
      ∀ limit, (now.choose request).2.options.depthLimit = some limit →
        (now.choose request).2.stack.depth ≤ limit := by
  rw [(choose_extends now request).1]
  rcases now.choose_stack request with same | ⟨-, reached, offers, room, added⟩
  · rw [same]
    exact ⟨standing.started, standing.within⟩
  · rw [added]
    constructor
    · intro generator member
      rw [ChoiceStack.toList_push] at member
      rcases List.mem_append.mp member with older | newest
      · exact standing.started generator older
      · rw [List.mem_singleton.mp newest]
        exact (generator_serves now offers).1.started
    · intro limit limited
      have below := Options.not_isFull_iff.mp room limit limited
      rw [← ChoiceStack.length_toList, ChoiceStack.toList_push, List.length_append,
        ChoiceStack.length_toList, depth_stack, reached]
      exact below

/-- A request passes one more choice point if there is room for it, and else truncates. -/
theorem choose_depth (standing : now.Standing steps) (request : Request) :
    ((now.choose request).2.fault = none →
      (now.choose request).2.depth = now.options.capped (asked steps + 1)) ∧
    ((now.choose request).2.truncated = true → (now.choose request).2.ahead = [] ∧
      now.options.isFull (now.choose request).2.passed.length = true) := by
  obtain ⟨-, within, depth_eq, truncated⟩ := standing
  apply choose_cases (motive := fun answer =>
    (answer.2.fault = none → answer.2.depth = now.options.capped (asked steps + 1)) ∧
      (answer.2.truncated = true → answer.2.ahead = [] ∧
        now.options.isFull answer.2.passed.length = true))
  case faulted =>
      intro fault
      refine ⟨fun unfaulted => ?_, truncated⟩
      rw [show now.fault = none from unfaulted] at fault
      cases fault
  case replayed =>
      intro recorded ahead fault reached _
      have room : now.options.isFull now.depth = false := by
        refine Options.not_isFull_iff.mpr fun limit limited => ?_
        have le := within limit limited
        rw [depth_stack, reached, List.length_cons] at le
        exact Nat.lt_of_lt_of_le (Nat.lt_add_of_pos_right (Nat.succ_pos _)) le
      refine ⟨fun _ => ?_, fun cut => ?_⟩
      · rw [Options.capped_succ_of_room (depth_eq fault ▸ room), ← depth_eq fault]
        rfl
      · cases reached.symm.trans (truncated cut).1
  case diverged =>
      intro recorded ahead _ _ _
      refine ⟨fun unfaulted => ?_, truncated⟩
      cases unfaulted
  case empty =>
      intro _ _ _
      refine ⟨fun unfaulted => ?_, truncated⟩
      cases unfaulted
  case forced =>
      intro fault reached _ full
      have no_room : now.options.isFull now.depth = true := full
      refine ⟨fun _ => ?_, fun _ => ⟨reached, full⟩⟩
      rw [Options.capped_succ_of_full (depth_eq fault ▸ no_room), ← depth_eq fault]
      rfl
  case new =>
      intro fault _ _ room
      have still_room : now.options.isFull now.depth = false := room
      refine ⟨fun _ => ?_, fun cut => ?_⟩
      · rw [Options.capped_succ_of_room (depth_eq fault ▸ still_room), ← depth_eq fault]
        rfl
      · cases room.symm.trans (truncated cut).2

/-- A request keeps what holds of the path, and one more choice point is asked for. -/
theorem choose (standing : now.Standing steps) {step : Step} (request : Request)
    (requested : step.request?.isSome = true) :
    (now.choose request).2.Standing (steps ++ [step]) := by
  obtain ⟨started, within⟩ := standing.choose_path request
  obtain ⟨depth_eq, truncated⟩ := standing.choose_depth request
  rw [← asked_concat_of_some requested] at depth_eq
  rw [← (choose_extends now request).1] at depth_eq truncated
  exact ⟨started, within, depth_eq, truncated⟩

/-- Giving up alternatives keeps what holds of the path. -/
theorem ignoreRest (standing : now.Standing steps) : now.ignoreRest.Standing steps := by
  obtain ⟨started, within, depth_eq, truncated⟩ := standing
  unfold Execution.ignoreRest
  split
  · exact ⟨started, within, depth_eq, truncated⟩
  · rename_i newest older passed
    simp only [toList_stack, depth_stack, depth, passed, List.reverse_cons, List.append_assoc,
      List.singleton_append, List.length_cons] at started within depth_eq truncated
    refine ⟨?_, ?_, depth_eq, truncated⟩
    · intro generator member
      rw [toList_stack, List.reverse_cons, List.append_assoc, List.singleton_append,
        List.mem_append, List.mem_cons] at member
      rcases member with old | rfl | new
      · exact started generator (List.mem_append_left _ old)
      · exact started newest (List.mem_append_right _ List.mem_cons_self)
      · exact started generator (List.mem_append_right _ (List.mem_cons_of_mem _ new))
    · rw [depth_stack]
      exact within

/-- Every step keeps what holds of the path. -/
theorem step {step : Step} (standing : step.before.Standing steps) :
    step.after.Standing (steps ++ [step]) := by
  apply step.after_cases
  · intro request requested
    exact standing.choose request (by rw [requested]; rfl)
  · intro unasked
    obtain ⟨started, within, depth_eq, truncated⟩ := standing.ignoreRest
    rw [← asked_concat_of_none unasked] at depth_eq
    exact ⟨started, within, depth_eq, truncated⟩
  · intro unasked random location
    obtain ⟨started, within, depth_eq, truncated⟩ := standing
    rw [← asked_concat_of_none unasked] at depth_eq
    exact ⟨started, within, depth_eq, truncated⟩

/-- As long as a run has no fault, its requests are served by generators. -/
theorem served {step : Step} {request : Request} (standing : step.before.Standing steps)
    (requested : step.request? = some request) (unfaulted : step.after.fault = none) :
    step.Served request := by
  obtain ⟨answer_eq, after_eq⟩ := Step.of_request requested
  rw [after_eq] at unfaulted
  rw [Step.Served, answer_eq, after_eq]
  revert unfaulted
  apply choose_cases (motive := fun answer => answer.2.fault = none →
    ∃ generator value, some (Answer.value answer.1) = some (.value value) ∧
      generator.value? = some value ∧ generator.kind = request.kind ∧
      request.kind.Yields value ∧ (answer.2.stack.get? step.before.depth = some generator ∨
        step.before.ahead = [] ∧ step.before.isFull = true ∧
          generator = step.before.generator request))
  case faulted =>
      intro fault unfaulted
      rw [show step.before.fault = none from unfaulted] at fault
      cases fault
  case replayed =>
      intro recorded ahead _ reached kind_eq _
      have started : 0 < recorded.taken := by
        refine standing.started recorded ?_
        rw [toList_stack, reached]
        exact List.mem_append_right _ List.mem_cons_self
      obtain ⟨value, found, offered⟩ := recorded.exists_value started
      refine ⟨recorded, value, ?_, found, kind_eq, ?_, .inl (get?_of_passed rfl)⟩
      · rw [found]
        rfl
      · rw [← kind_eq]
        exact offered.yields
  case diverged =>
      intro recorded ahead _ _ _ unfaulted
      cases unfaulted
  case empty =>
      intro _ _ _ unfaulted
      cases unfaulted
  case forced =>
      intro _ reached offers full _
      have first := Request.value_offered (Nat.pos_of_ne_zero offers)
      exact ⟨_, _, rfl, generator_value? offers, (generator_serves _ offers).1.kind_eq,
        first.yields, .inr ⟨reached, full, rfl⟩⟩
  case new =>
      intro _ _ offers _ _
      have first := Request.value_offered (Nat.pos_of_ne_zero offers)
      exact ⟨_, _, rfl, generator_value? offers, (generator_serves _ offers).1.kind_eq,
        first.yields, .inl (get?_of_passed rfl)⟩

/-- Where there is room on the path all requests so far have been recorded. -/
theorem depth_eq_asked (standing : now.Standing steps) (unfaulted : now.fault = none)
    (room : now.isFull = false) : now.depth = asked steps := by
  have depth_eq := standing.depth_eq unfaulted
  have still_room : now.options.isFull now.depth = false := room
  rw [depth_eq] at still_room ⊢
  exact Options.capped_of_room still_room

end Standing

/-- What holds of the path at the beginning of a run holds at each of its moments. -/
theorem Moment.standing {α : Type} {start now : Execution} {run rest : Run α} {steps : List Step}
    (moment : start.Moment run steps now rest) (standing : start.Standing []) :
    now.Standing steps :=
  moment.keeps (fun _ _ kept => kept.step) standing

end Execution

namespace Progress

variable {σ : Type} {program : Program σ} {progress next : Progress σ}

/-- The path before a run, of which nothing has been passed. -/
theorem standing_opening
    (started : ∀ generator ∈ progress.search.stack.toList, 0 < generator.taken)
    (within : ∀ limit, progress.search.options.depthLimit = some limit →
      progress.search.stack.depth ≤ limit) :
    progress.opening.Standing [] where
  started := by
    rw [stack_opening]
    exact started
  within := by
    rw [stack_opening]
    exact within
  depth_eq := fun _ => by
    show 0 = progress.search.options.capped 0
    unfold Options.capped
    split
    · rfl
    · exact (Nat.zero_min _).symm
  truncated := by
    intro cut
    cases cut

theorem standing_attempt (standing : progress.opening.Standing []) (program : Program σ) :
    ∃ steps, (progress.attempt program).2.Standing steps := by
  obtain ⟨steps, moment⟩ := Execution.Moment.exists_end progress.opening (program progress.state)
  exact ⟨steps, moment.standing standing⟩

/-- The path before every run of a search is as it has to be. -/
theorem standing_of_mem_trail {budget : Nat} {turn : Progress σ}
    (standing : progress.opening.Standing []) (member : turn ∈ progress.trail program budget) :
    turn.opening.Standing [] := by
  refine of_mem_trail (motive := fun turn => turn.opening.Standing []) ?_ standing member
  intro earlier later follows standing
  obtain ⟨steps, left⟩ := standing_attempt standing program
  refine standing_opening (started_of_nextPath? left.started follows.nextPath?_eq) ?_
  intro limit limited
  refine Nat.le_trans follows.depth_le (left.within limit ?_)
  rw [follows.options_eq] at limited
  rw [← limited]
  exact congrArg _ (Execution.perform_extends _ _).1

/-- The options of a search do not change. -/
theorem options_of_mem_trail {budget : Nat} {turn : Progress σ}
    (member : turn ∈ progress.trail program budget) :
    turn.search.options = progress.search.options :=
  of_mem_trail (motive := fun turn => turn.search.options = progress.search.options)
    (fun _ _ follows kept => follows.options_eq.trans kept) rfl member

end Progress

/-- A search begins with an empty path. -/
theorem standing_outset {σ : Type} (search : Search) (state : σ) :
    (search.outset state).opening.Standing [] := by
  apply Progress.standing_opening
  · intro generator member
    cases member
  · exact fun _ _ => Nat.zero_le _

/--
At every moment of every run all generators on the path stand at an alternative of
their kind, the place reached is on the path, and the path respects the depth limit.
Until the end of the run the path keeps these generators at their places, up to
their retirement.  As long as the run has no fault, the number of choice points
passed is that of the requests made, up to the limit, and every request that causes
no fault is served by a generator.  A truncated run leaves a path of exactly the
limit.
-/
theorem stack_stands_at_every_moment {σ : Type} (search : Search) (program : Program σ)
    (state : σ) (budget : Nat) (turn : Progress σ)
    (member : turn ∈ search.trail program state budget) :
    (∀ steps now rest, turn.Moment program steps now rest →
      (∀ generator ∈ now.stack.toList, generator.Current) ∧
      now.depth ≤ now.stack.depth ∧
      (∀ limit, search.options.depthLimit = some limit → now.stack.depth ≤ limit) ∧
      (∀ more later last, now.Moment rest more later last →
        ∀ place generator, now.stack.get? place = some generator →
          ∃ kept, later.stack.get? place = some kept ∧ generator.Stays kept) ∧
      (now.fault = none → now.depth = search.options.capped (asked steps)) ∧
      ∀ call further request, now.Calls rest call further →
        Step.request? ⟨now, call⟩ = some request → (Step.after ⟨now, call⟩).fault = none →
        Step.Served ⟨now, call⟩ request) ∧
    ((turn.attempt program).2.truncated = true →
      ∃ limit, search.options.depthLimit = some limit ∧ (turn.left program).depth = limit) := by
  have outset := search.standing_outset state
  have standing := Progress.standing_of_mem_trail outset member
  have options_eq : turn.search.options = search.options :=
    Progress.options_of_mem_trail member
  constructor
  · intro steps now rest moment
    have stands := moment.standing standing
    have same : now.options = search.options := moment.extends_stack.1.trans options_eq
    refine ⟨fun generator member => ?_, ?_, ?_, ?_, ?_, ?_⟩
    · exact Generator.current_of_started (stands.started generator member)
    · rw [Execution.depth_stack]
      exact Nat.le_add_right _ _
    · rw [← same]
      exact stands.within
    · intro more later last onward place generator found
      obtain ⟨kept, there, keeps⟩ := onward.extends_stack.2.kept_of_getElem? found
      exact ⟨kept, there, keeps.stays⟩
    · rw [← same]
      exact stands.depth_eq
    · intro call further request _ requested unfaulted
      exact stands.served requested unfaulted
  · intro truncated
    obtain ⟨steps, left⟩ := Progress.standing_attempt standing program
    have same : (turn.attempt program).2.options = search.options :=
      (Execution.perform_extends _ _).1.trans options_eq
    obtain ⟨reached, full⟩ := left.truncated truncated
    obtain ⟨limit, limited, le⟩ := Options.isFull_iff.mp full
    refine ⟨limit, same ▸ limited, Nat.le_antisymm (left.within limit limited) ?_⟩
    rw [Progress.left, Execution.depth_stack]
    exact Nat.le_trans le (Nat.le_add_right _ _)

def twoTruths : Program Unit := fun _ =>
  .choose .bool fun _ => .choose .bool fun _ => .done (none, ())

theorem limited_stack_stands_at_every_moment :
    let search : Search := { options := { depthLimit := some 1 } }
    let first := search.outset ()
    let second := (first.opening.choose .bool).2
    let last := (second.choose .bool).2
    first.Moment twoTruths [⟨first.opening, .choose .bool⟩, ⟨second, .choose .bool⟩] last
        (.done (none, ())) ∧
      last.stack.depth = 1 ∧ (∀ generator ∈ last.stack.toList, generator.Current) ∧
      last.depth = search.options.capped 2 ∧
      Step.Served ⟨second, .choose .bool⟩ .bool ∧
      ∃ limit, some 1 = some limit ∧ (first.left twoTruths).depth = limit := by
  intro search first second last
  have member : first ∈ search.trail twoTruths () 1 := List.mem_cons_self
  have begun : first.Moment twoTruths [] first.opening (twoTruths ()) := .opening
  have middle := begun.next (.choose _ _)
  have ending := middle.next (.choose _ _)
  obtain ⟨moments, truncated⟩ :=
    stack_stands_at_every_moment search twoTruths () 1 first member
  obtain ⟨current, -, -, -, depth_eq, -⟩ := moments _ _ _ ending
  obtain ⟨-, -, -, -, -, served⟩ := moments _ _ _ middle
  exact ⟨ending, rfl, current, depth_eq rfl, served _ _ _ (.choose _ _) rfl rfl, truncated rfl⟩

end Search

end ChoiceExplorer
