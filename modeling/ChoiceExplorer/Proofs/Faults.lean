import ChoiceExplorer.Proofs.Endings
import ChoiceExplorer.Proofs.StackInvariant

/-!
# Faults

A run has a fault exactly if one of its requests meets a recorded choice of another
kind, or goes beyond the recorded choices without offering any alternative.  From
then on nothing but retirement happens to the path, requests get their fallback
values, and the search ends with this fault.
-/

namespace ChoiceExplorer.Search

/--
A request that follows on so many choice points meets a fault on a recorded path:
the choice recorded there is of another kind, or none is and it offers none.
-/
inductive Meets (recorded : ChoiceStack) (passed : Nat) (request : Request) : Fault → Prop where
  | otherKind {generator : Generator} (there : recorded.get? passed = some generator)
      (other : generator.kind ≠ request.kind) :
      Meets recorded passed request (.divergence passed generator.kind request.kind)
  | noChoice (beyond : recorded.get? passed = none) (empty : request.alternatives.size = 0) :
      Meets recorded passed request (.emptyChoice request.id)

section

variable {recorded : ChoiceStack} {passed : Nat} {request : Request} {fault : Fault}

theorem meets_iff_of_recorded {generator : Generator}
    (there : recorded.get? passed = some generator) :
    Meets recorded passed request fault ↔
      generator.kind ≠ request.kind ∧
        fault = .divergence passed generator.kind request.kind := by
  constructor
  · intro meets
    cases meets with
    | otherKind found other =>
        cases there.symm.trans found
        exact ⟨other, rfl⟩
    | noChoice beyond _ => cases there.symm.trans beyond
  · rintro ⟨other, rfl⟩
    exact .otherKind there other

theorem meets_iff_of_beyond (beyond : recorded.get? passed = none) :
    Meets recorded passed request fault ↔
      request.alternatives.size = 0 ∧ fault = .emptyChoice request.id := by
  constructor
  · intro meets
    cases meets with
    | otherKind there _ => cases beyond.symm.trans there
    | noChoice _ empty => exact ⟨empty, rfl⟩
  · rintro ⟨empty, rfl⟩
    exact .noChoice beyond empty

end

namespace Execution

variable {α : Type} {start now later : Execution} {run rest last : Run α}
  {steps more : List Step} {recorded : ChoiceStack} {request : Request} {fault : Fault}

/-- A run without a fault replays the recorded choices, one for each request. -/
structure Replays (recorded : ChoiceStack) (steps : List Step) (now : Execution) : Prop where
  ahead_eq : now.fault = none → now.ahead = recorded.toList.drop (asked steps)
  depth_eq : now.fault = none → now.ahead ≠ [] → now.depth = asked steps

namespace Replays

theorem get?_eq (replays : now.Replays recorded steps) (unfaulted : now.fault = none) :
    recorded.get? (asked steps) = now.ahead.head? := by
  rw [replays.ahead_eq unfaulted, List.head?_drop]
  rfl

/-- A request replays one more recorded choice, if one is left. -/
theorem choose (replays : now.Replays recorded steps) {step : Step} (request : Request)
    (requested : step.request?.isSome = true) :
    (now.choose request).2.Replays recorded (steps ++ [step]) := by
  have count : asked (steps ++ [step]) = asked steps + 1 := asked_concat_of_some requested
  -- Past the recorded choices there is nothing more to replay.
  have beyond (fault : now.fault = none) (reached : now.ahead = []) :
      now.ahead = recorded.toList.drop (asked (steps ++ [step])) := by
    have ended := replays.ahead_eq fault
    rw [reached] at ended
    rw [reached, count, ← List.drop_drop, ← ended]
    rfl
  apply choose_cases (motive := fun answer => answer.2.Replays recorded (steps ++ [step]))
  case faulted =>
      intro fault
      have impossible (unfaulted : now.fault = none) : False := by
        rw [unfaulted] at fault
        cases fault
      exact ⟨fun unfaulted => (impossible unfaulted).elim,
        fun unfaulted => (impossible unfaulted).elim⟩
  case replayed =>
      intro generator ahead fault reached _
      have ahead_eq := replays.ahead_eq fault
      have depth_eq := replays.depth_eq fault (by rw [reached]; exact List.cons_ne_nil _ _)
      refine ⟨fun _ => ?_, fun _ _ => ?_⟩
      · rw [count, ← List.drop_drop, ← ahead_eq, reached]
        rfl
      · rw [count, ← depth_eq]
        rfl
  case diverged =>
      intro recorded ahead _ _ _
      constructor
      · intro unfaulted
        cases unfaulted
      · intro unfaulted
        cases unfaulted
  case empty =>
      intro _ _ _
      constructor
      · intro unfaulted
        cases unfaulted
      · intro unfaulted
        cases unfaulted
  case forced =>
      intro fault reached _ _
      exact ⟨fun _ => beyond fault reached, fun _ left => absurd reached left⟩
  case new =>
      intro fault reached _ _
      exact ⟨fun _ => beyond fault reached, fun _ left => absurd reached left⟩

/-- Every step of a run goes on replaying. -/
theorem step {step : Step} (replays : step.before.Replays recorded steps) :
    step.after.Replays recorded (steps ++ [step]) := by
  apply step.after_cases
  · intro request requested
    exact replays.choose request (by rw [requested]; rfl)
  · intro unasked
    constructor
    · rw [asked_concat_of_none unasked, fault_ignoreRest, ahead_ignoreRest]
      exact replays.ahead_eq
    · rw [asked_concat_of_none unasked, fault_ignoreRest, ahead_ignoreRest, (ignoreRest_depth _).1]
      exact replays.depth_eq
  · intro unasked random location
    constructor
    · rw [asked_concat_of_none unasked]
      exact replays.ahead_eq
    · rw [asked_concat_of_none unasked]
      exact replays.depth_eq

/-- A request causes exactly the fault that it meets. -/
theorem fault_iff (replays : now.Replays recorded steps) (unfaulted : now.fault = none)
    (request : Request) (fault : Fault) :
    (now.choose request).2.fault = some fault ↔ Meets recorded (asked steps) request fault := by
  have here := replays.get?_eq unfaulted
  cases reached : now.ahead with
  | cons generator ahead =>
      have depth_eq := replays.depth_eq unfaulted (by rw [reached]; exact List.cons_ne_nil _ _)
      rw [reached] at here
      rw [meets_iff_of_recorded here]
      by_cases kind : generator.kind = request.kind
      · rw [choose_of_recorded unfaulted reached kind]
        simp [unfaulted, kind]
      · rw [choose_of_other unfaulted reached kind, depth_eq]
        simp [kind, eq_comm]
  | nil =>
      rw [reached] at here
      rw [meets_iff_of_beyond here]
      by_cases offers : request.alternatives.size = 0
      · rw [choose_of_empty unfaulted reached offers]
        simp [offers, eq_comm]
      · cases full : now.options.isFull now.passed.length with
        | true =>
            rw [choose_of_full unfaulted reached offers full]
            simp [unfaulted, offers]
        | false =>
            rw [choose_of_new unfaulted reached offers full]
            simp [unfaulted, offers]

end Replays

/-- What stays of an execution from a fault on: all but the retirement of generators. -/
structure Rests (now later : Execution) : Prop where
  fault_eq : later.fault = now.fault
  depth_eq : later.depth = now.depth
  truncated_eq : later.truncated = now.truncated
  length_eq : later.stack.depth = now.stack.depth

/-- After a fault no step moves the execution. -/
theorem Rests.step {step : Step} (rests : now.Rests step.before)
    (faulted : now.fault = some fault) : now.Rests step.after := by
  obtain ⟨fault_eq, depth_eq, truncated_eq, length_eq⟩ := rests
  apply step.after_cases
  · intro request _
    rw [choose_of_fault (by rw [fault_eq, faulted]; rfl)]
    exact ⟨fault_eq, depth_eq, truncated_eq, length_eq⟩
  · intro _
    obtain ⟨passed, length⟩ := ignoreRest_depth step.before
    exact ⟨(fault_ignoreRest _).trans fault_eq, passed.trans depth_eq,
      (truncated_ignoreRest _).trans truncated_eq, length.trans length_eq⟩
  · exact fun _ _ _ => ⟨fault_eq, depth_eq, truncated_eq, length_eq⟩

namespace Moment

/-- From a fault on an execution rests. -/
theorem rests (moment : now.Moment run steps later rest) (faulted : now.fault = some fault) :
    now.Rests later :=
  moment.keeps (motive := fun _ reached => now.Rests reached)
    (fun _ _ rests => rests.step faulted) ⟨rfl, rfl, rfl, rfl⟩

/-- What a run replays at its beginning it replays at each of its moments. -/
theorem replays (moment : start.Moment run steps now rest) (replays : start.Replays recorded []) :
    now.Replays recorded steps :=
  moment.keeps (fun _ _ kept => kept.step) replays

/-- Only a request can cause a fault. -/
theorem exists_request (moment : start.Moment run steps now rest)
    (unfaulted : start.fault = none) (faulted : now.fault = some fault) :
    ∃ before reached onward call further request, start.Moment run before reached onward ∧
      reached.fault = none ∧ reached.Calls onward call further ∧
      Step.request? ⟨reached, call⟩ = some request ∧
      (reached.choose request).2.fault = some fault := by
  induction moment with
  | opening =>
      rw [unfaulted] at faulted
      cases faulted
  | @next before reached onward further call moment calls ih =>
      -- Either the fault is older than the last step, or this step has caused it.
      cases earlier : reached.fault with
      | some first =>
          have rests : reached.Rests (Step.after ⟨reached, call⟩) :=
            Rests.step ⟨rfl, rfl, rfl, rfl⟩ earlier
          rw [rests.fault_eq] at faulted
          exact ih faulted
      | none =>
          cases requested : Step.request? ⟨reached, call⟩ with
          | some request =>
              rw [(Step.of_request requested).2] at faulted
              exact ⟨before, reached, onward, call, further, request, moment, earlier, calls,
                requested, faulted⟩
          | none =>
              exfalso
              revert faulted
              apply Step.after_cases (motive := fun after => after.fault = some fault → False)
              · intro request asked
                rw [requested] at asked
                cases asked
              · intro _ faulted
                rw [fault_ignoreRest, earlier] at faulted
                cases faulted
              · intro _ _ _ faulted
                cases earlier.symm.trans faulted

/-- A run has a fault exactly if one of its requests meets this fault first. -/
theorem fault_iff (run : Run α) (unfaulted : start.fault = none)
    (replays : start.Replays recorded []) (fault : Fault) :
    (start.perform run).2.fault = some fault ↔
      ∃ steps now rest call further request, start.Moment run steps now rest ∧
        now.fault = none ∧ now.Calls rest call further ∧
        Step.request? ⟨now, call⟩ = some request ∧
        Meets recorded (asked steps) request fault := by
  constructor
  · intro faulted
    obtain ⟨all, ending⟩ := exists_end start run
    obtain ⟨steps, now, rest, call, further, request, moment, before, calls, requested, caused⟩ :=
      ending.exists_request unfaulted faulted
    refine ⟨steps, now, rest, call, further, request, moment, before, calls, requested, ?_⟩
    exact ((moment.replays replays).fault_iff before request fault).mp caused
  · rintro ⟨steps, now, rest, call, further, request, moment, before, calls, requested, meets⟩
    have caused := ((moment.replays replays).fault_iff before request fault).mpr meets
    rw [← (Step.of_request requested).2] at caused
    have reached := moment.next calls
    obtain ⟨more, ending⟩ := exists_end (Step.after ⟨now, call⟩) further
    rw [← reached.perform_eq]
    exact ending.fault_eq caused

end Moment

end Execution

namespace Progress

variable {σ : Type} {program : Program σ} {progress turn : Progress σ}

theorem replays_opening (progress : Progress σ) :
    progress.opening.Replays progress.search.stack [] where
  ahead_eq := fun _ => rfl
  depth_eq := fun _ _ => rfl

/-- Before a run observers have been told of the beginning and of violations only. -/
theorem notices_of_mem_trail {search : Search} {state : σ} {budget : Nat}
    (member : turn ∈ search.trail program state budget) :
    ∃ told : List View,
      turn.notices = .started search.reset.view :: told.map .violated := by
  refine of_mem_trail (motive := fun turn => ∃ told : List View,
    turn.notices = .started search.reset.view :: told.map .violated) ?_ ⟨[], rfl⟩ member
  rintro earlier later follows ⟨told, before⟩
  obtain ⟨more, notices_eq⟩ := follows.notices_eq
  refine ⟨told ++ more, ?_⟩
  rw [notices_eq, before, List.map_append]
  rfl

end Progress

/--
A run has a fault exactly if one of its requests, all before it being without a
fault, meets a recorded choice of another kind or goes beyond the recorded choices
without an alternative.  From a fault on, whatever is called, the fault, the place
reached, the truncation and the generators stay, up to their retirement, and every
request is answered with its fallback.  The search then ends with this fault: it has
found what the runs before show, and nothing has been told to observers since these.
-/
theorem fault_stays_and_ends_the_search {σ : Type} (search : Search) (program : Program σ)
    (state : σ) (budget : Nat) :
    (∀ (place : Nat) (turn : Progress σ),
      (search.trail program state budget)[place]? = some turn →
      (∀ fault, (turn.attempt program).2.fault = some fault ↔
        ∃ steps now rest call further request, turn.Moment program steps now rest ∧
          now.fault = none ∧ now.Calls rest call further ∧
          Step.request? ⟨now, call⟩ = some request ∧
          Meets turn.search.stack (asked steps) request fault) ∧
      (∀ fault, (turn.attempt program).2.fault = some fault →
        (search.run program state budget).1 = .faulted fault ∧
        (search.run program state budget).2.search.summary =
          .closed ((search.visits program state budget).take place) ∧
        (search.run program state budget).2.notices = turn.notices ∧
        ∃ told : List View,
          turn.notices = .started search.reset.view :: told.map .violated)) ∧
    (∀ fault, (search.run program state budget).1 = .faulted fault →
      ∃ (place : Nat) (turn : Progress σ),
        (search.trail program state budget)[place]? = some turn ∧
        (turn.attempt program).2.fault = some fault) ∧
    (∀ (now : Execution) (fault : Fault), now.fault = some fault →
      (∀ {α : Type} (run : Run α) steps later rest, now.Moment run steps later rest →
        later.fault = some fault ∧ later.depth = now.depth ∧
        later.truncated = now.truncated ∧ later.stack.depth = now.stack.depth ∧
        ∀ place generator, now.stack.get? place = some generator →
          ∃ kept, later.stack.get? place = some kept ∧ generator.Stays kept) ∧
      ∀ call request, Step.request? ⟨now, call⟩ = some request →
        Step.answer? ⟨now, call⟩ = some (.value request.alternatives.fallback)) ∧
    Request.bool.alternatives.fallback = .bool false ∧
    (∀ min max, (Request.int min max).alternatives.fallback = .int min) ∧
    (∀ values, (Request.intOf values).alternatives.fallback = .int (values.headD 0)) ∧
    (∀ values, (Request.longOf values).alternatives.fallback = .long (values.headD 0)) ∧
    (∀ values, (Request.doubleOf values).alternatives.fallback = .double (values.headD .zero)) ∧
    (∀ values, (Request.floatOf values).alternatives.fallback = .float (values.headD .zero)) ∧
    ∀ id threads,
      (Request.schedule id threads).alternatives.fallback = .thread (threads.headD ⟨0, ""⟩) := by
  refine ⟨fun place turn here => ⟨fun fault => ?_, fun fault faulted => ?_⟩, fun fault ended => ?_,
    fun now fault faulted => ⟨?_, fun call request requested => ?_⟩, rfl, fun min max => rfl,
    fun values => rfl, fun values => rfl, fun values => rfl, fun values => rfl,
    fun id threads => rfl⟩
  · exact Execution.Moment.fault_iff (program turn.state) rfl turn.replays_opening fault
  · obtain ⟨explored, found⟩ := Progress.explore_of_fault here faulted
    have told := Progress.notices_of_mem_trail (List.mem_of_getElem? here)
    have run_eq : search.run program state budget = (.faulted fault, turn.stopped program) :=
      explored
    rw [run_eq]
    refine ⟨rfl, ?_, rfl, told⟩
    rw [← Summary.ofVisits_eq]
    exact found
  · exact Progress.exists_fault ended
  · intro α run steps later rest moment
    have rests := moment.rests faulted
    refine ⟨rests.fault_eq.trans faulted, rests.depth_eq, rests.truncated_eq, rests.length_eq,
      fun place generator found => ?_⟩
    obtain ⟨kept, there, keeps⟩ := moment.extends_stack.2.kept_of_getElem? found
    exact ⟨kept, there, keeps.stays⟩
  · rw [(Step.of_request requested).1, Execution.choose_of_fault (by rw [faulted]; rfl)]

/-- A truth value in the first run and a number in each later one.  Every run fails. -/
def turncoat : Program Bool := fun again =>
  .choose (if again then .int 3 4 else .bool) fun _ =>
    .choose (.intOf [5, 6]) fun _ => .done (some (.uncaught "turned"), true)

theorem divergence_stays_and_ends_the_search :
    let search : Search := { options := { depthLimit := some 1, multipleErrors := true } }
    let second := ((search.outset false).step turncoat).2
    let turned := (second.opening.choose (.int 3 4)).2
    let last := (turned.choose (.intOf [5, 6])).2
    let fault := Fault.divergence 0 .boolean .intInterval
    (search.trail turncoat false 2)[1]? = some second ∧
    (second.attempt turncoat).2.fault = some fault ∧
    (search.run turncoat false 2).1 = .faulted fault ∧
    (search.run turncoat false 2).2.search.summary =
      .closed ((search.visits turncoat false 2).take 1) ∧
    (search.run turncoat false 2).2.notices = second.notices ∧
    last.fault = some fault ∧ last.depth = 0 ∧
    Step.answer? ⟨turned, .choose (.intOf [5, 6])⟩ = some (.value (.int 5)) := by
  intro search second turned last fault
  have goes_on : (search.outset false).step turncoat = (none, second) := rfl
  have here : (search.trail turncoat false 2)[1]? = some second := by
    rw [Search.trail, Progress.trail_of_step goes_on]
    rfl
  obtain ⟨runs, -, stays, -⟩ := fault_stays_and_ends_the_search search turncoat false 2
  obtain ⟨meets, ends⟩ := runs 1 second here
  have recorded : second.search.stack.get? 0 = some (Request.bool.pick 1) := rfl
  have met : Meets second.search.stack 0 (.int 3 4) fault := .otherKind recorded (by decide)
  have faulted : (second.attempt turncoat).2.fault = some fault :=
    (meets fault).mpr ⟨[], _, _, _, _, _, .opening, rfl, .choose _ _, rfl, met⟩
  obtain ⟨ended, found, told, -⟩ := ends fault faulted
  obtain ⟨rests, answers⟩ := stays turned fault rfl
  obtain ⟨fault_eq, depth_eq, -⟩ :=
    rests (.choose (.intOf [5, 6]) .done) _ last _ (Execution.Moment.opening.next (.choose _ _))
  exact ⟨here, faulted, ended, found, told, fault_eq, depth_eq,
    answers (.choose (.intOf [5, 6])) (.intOf [5, 6]) rfl⟩

end ChoiceExplorer.Search
