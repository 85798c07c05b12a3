import ChoiceExplorer.Host.Audience
import ChoiceExplorer.Search.Explore

/-!
# Callbacks

Whatever a host hears of its search it turns into single acts, one after the other:
calls of single observers, and operations of the report.  An act sees what the acts
before it have left.  Hearing is nothing but these acts.
-/

namespace ChoiceExplorer

open Output (Failure)
open Search (Notice View)

/-- A call of the observer at a place; for `published` it is asked to add its section. -/
structure Callback where
  place : Nat
  occasion : Occasion
  view : View
  deriving DecidableEq

/-- Something that a host does while it hears of a search. -/
inductive Act where
  | openReport (target : String)
  | call (callback : Callback)
  | beginSection (view : View)
  | flush
  deriving DecidableEq

def Act.callback? : Act → Option Callback
  | call callback => some callback
  | _ => none

def callAll (occasion : Occasion) (view : View) (attached : List Attached) : List Callback :=
  (List.range attached.length).map (⟨·, occasion, view⟩)

/-- A call of every observer that adds sections to the report, in the same order. -/
def callExtensions (view : View) (attached : List Attached) : List Callback :=
  ((List.range attached.length).filter fun place =>
    attached[place]?.any Attached.extension).map (⟨·, .published, view⟩)

namespace Audience

def call (audience : Audience) (callback : Callback) : Audience :=
  match audience.attached[callback.place]? with
  | none => audience
  | some member =>
      match callback.occasion with
      | .violated =>
          let (observer, surroundings) :=
            member.observer.violated callback.view audience.surroundings
          { audience with
            attached := audience.attached.set callback.place { member with observer }
            surroundings
            events := audience.events ++ member.observer.events .violated callback.view }
      | .published =>
          let extended :=
            audience.report.extend member.observer callback.view audience.surroundings
          { audience with
            report := extended.report
            surroundings := extended.surroundings
            events := audience.events ++ extended.events }
      | occasion =>
          { audience with
            events := audience.events ++ member.observer.events occasion callback.view }

def cause? : Except Failure Unit → Option Failure
  | .error cause => some cause
  | .ok () => none

def reported (audience : Audience) (step : Report.Step) : Audience :=
  { audience.noteFailure step.result with
    report := step.report
    surroundings := step.surroundings }

def act (audience : Audience) : Act → Audience
  | .openReport target => audience.reported (audience.report.start target audience.surroundings)
  | .call callback => audience.call callback
  | .beginSection view =>
      audience.reported (audience.report.beginViolation view audience.surroundings)
  | .flush => audience.noteFailure audience.report.channel.flush

/--
What follows the calls about a violation: its section, and if that could be written the
sections of observers.
-/
def sectionActs (audience : Audience) (view : View) : List Act :=
  .beginSection view ::
    match (audience.report.beginViolation view audience.surroundings).result with
    | .error _ => []
    | .ok () => (callExtensions view audience.attached).map .call ++ [.flush]

def actsOf (audience : Audience) : Notice → List Act
  | .started view =>
      .openReport view.target :: (callAll .started view audience.attached).map .call
  | .violated view =>
      let calls := (callAll .violated view audience.attached).map .call
      calls ++ (calls.foldl act audience).sectionActs view
  | .finished view => (callAll .finished view audience.attached).map .call

def acts (audience : Audience) : List Notice → List Act
  | [] => []
  | notice :: rest => audience.actsOf notice ++ acts (audience.hear notice) rest

variable {audience : Audience} {done rest : List Attached} {view : View}

/-- Only the first failure is remembered. -/
theorem noteFailure_eq (audience : Audience) (result : Except Failure Unit) :
    audience.noteFailure result =
      { audience with failure := audience.failure.or (cause? result) } := by
  unfold noteFailure
  cases audience with
  | mk attached report surroundings events failure =>
      cases result <;> cases failure <;> rfl

theorem reported_eq (audience : Audience) (step : Report.Step) :
    audience.reported step =
      { audience with
        report := step.report
        surroundings := step.surroundings
        failure := audience.failure.or (cause? step.result) } := by
  rw [reported, noteFailure_eq]

/-- Calls that observers only note down. -/
theorem foldl_calls_noted {occasion : Occasion}
    (plain : occasion = .started ∨ occasion = .finished)
    (attached_eq : audience.attached = done ++ rest) :
    ((List.range' done.length rest.length).map fun place =>
        Act.call ⟨place, occasion, view⟩).foldl act audience =
      { audience with
        events := audience.events ++
          rest.flatMap fun member => member.observer.events occasion view } := by
  induction rest generalizing done audience with
  | nil => simp
  | cons member rest ih =>
      let next := { audience with
        events := audience.events ++ member.observer.events occasion view }
      have here : audience.act (.call ⟨done.length, occasion, view⟩) = next := by
        rcases plain with rfl | rfl <;> simp [act, call, attached_eq, next]
      have next_attached : next.attached = (done ++ [member]) ++ rest := by
        simp [next, attached_eq]
      have later := ih next_attached
      rw [List.length_append, List.length_singleton] at later
      rw [List.length_cons, List.range'_succ, List.map_cons, List.foldl_cons, here, later,
        List.flatMap_cons, ← List.append_assoc]

/-- Calls about a violation, which observers may write down elsewhere. -/
theorem foldl_calls_violated (attached_eq : audience.attached = done ++ rest) :
    let told := tellViolated view rest audience.surroundings
    ((List.range' done.length rest.length).map fun place =>
        Act.call ⟨place, .violated, view⟩).foldl act audience =
      { audience with
        attached := done ++ told.1
        surroundings := told.2
        events := audience.events ++
          rest.flatMap fun member => member.observer.events .violated view } := by
  induction rest generalizing done audience with
  | nil => simp [tellViolated, ← attached_eq]
  | cons member rest ih =>
      let told := member.observer.violated view audience.surroundings
      let next := { audience with
        attached := done ++ { member with observer := told.1 } :: rest
        surroundings := told.2
        events := audience.events ++ member.observer.events .violated view }
      have here : audience.act (.call ⟨done.length, .violated, view⟩) = next := by
        simp [act, call, attached_eq, next, told]
      have next_attached :
          next.attached = (done ++ [{ member with observer := told.1 }]) ++ rest := by
        simp [next]
      have later := ih next_attached
      rw [List.length_append, List.length_singleton] at later
      rw [List.length_cons, List.range'_succ, List.map_cons, List.foldl_cons, here, later]
      simp [tellViolated, next, told]

/-- Calls of observers that add their sections to the report. -/
theorem foldl_calls_published (attached_eq : audience.attached = done ++ rest) :
    let extended := Report.extendAll view
      ((rest.filter Attached.extension).map Attached.observer) audience.report
      audience.surroundings
    ((((List.range' done.length rest.length).filter fun place =>
        audience.attached[place]?.any Attached.extension).map fun place =>
          Act.call ⟨place, .published, view⟩)).foldl act audience =
      { audience with
        report := extended.report
        surroundings := extended.surroundings
        events := audience.events ++ extended.events } := by
  induction rest generalizing done audience with
  | nil => simp [Report.extendAll]
  | cons member rest ih =>
      have there : audience.attached[done.length]? = some member := by simp [attached_eq]
      let later := (List.range' (done.length + 1) rest.length).filter fun place =>
        audience.attached[place]?.any Attached.extension
      have places_eq : ((List.range' done.length (member :: rest).length).filter fun place =>
          audience.attached[place]?.any Attached.extension) =
            if member.extension then done.length :: later else later := by
        rw [List.length_cons, List.range'_succ, List.filter_cons, there, Option.any_some]
      have parted : audience.attached = (done ++ [member]) ++ rest := by simp [attached_eq]
      cases extension : member.extension with
      | false =>
          have others := ih parted
          rw [List.length_append, List.length_singleton] at others
          rw [places_eq, extension, if_neg Bool.false_ne_true, others]
          simp [extension]
      | true =>
          let first := audience.report.extend member.observer view audience.surroundings
          let next := { audience with
            report := first.report
            surroundings := first.surroundings
            events := audience.events ++ first.events }
          have here : audience.act (.call ⟨done.length, .published, view⟩) = next := by
            simp [act, call, there, next, first]
          have next_parted : next.attached = (done ++ [member]) ++ rest := parted
          have others := ih next_parted
          rw [List.length_append, List.length_singleton] at others
          rw [places_eq, extension, if_pos rfl, List.map_cons, List.foldl_cons, here, others]
          simp [Report.extendAll, extension, next, first]

theorem foldl_callAll_noted {occasion : Occasion}
    (plain : occasion = .started ∨ occasion = .finished) :
    ((callAll occasion view audience.attached).map .call).foldl act audience =
      { audience with events := audience.events ++ audience.eventsOf occasion view } := by
  rw [callAll, List.map_map, List.range_eq_range']
  exact foldl_calls_noted plain (List.nil_append audience.attached).symm

theorem foldl_callAll_violated :
    let told := tellViolated view audience.attached audience.surroundings
    ((callAll .violated view audience.attached).map .call).foldl act audience =
      { audience with
        attached := told.1
        surroundings := told.2
        events := audience.events ++ audience.eventsOf .violated view } := by
  rw [callAll, List.map_map, List.range_eq_range']
  exact foldl_calls_violated (List.nil_append audience.attached).symm

theorem foldl_callExtensions :
    let extended := Report.extendAll view audience.extensions audience.report
      audience.surroundings
    ((callExtensions view audience.attached).map .call).foldl act audience =
      { audience with
        report := extended.report
        surroundings := extended.surroundings
        events := audience.events ++ extended.events } := by
  rw [callExtensions, List.map_map, List.range_eq_range']
  exact foldl_calls_published (List.nil_append audience.attached).symm

/-- The acts that follow the calls about a violation are its report. -/
theorem foldl_sectionActs (audience : Audience) (view : View) :
    let reported := audience.report.violation audience.extensions view audience.surroundings
    (audience.sectionActs view).foldl act audience =
      { audience.reported reported.1 with events := audience.events ++ reported.2 } := by
  cases result : (audience.report.beginViolation view audience.surroundings).result with
  | error cause => simp [sectionActs, Report.violation, result, act, reported_eq]
  | ok =>
      have begun : (audience.act (.beginSection view)).attached = audience.attached := by
        simp [act, reported_eq]
      simp only [sectionActs, Report.violation, result, List.foldl_cons, List.foldl_append]
      rw [← begun, foldl_callExtensions]
      simp [act, reported_eq, noteFailure_eq, result, extensions, cause?]

/-- After the beginning of a section observers are asked, or nothing is done. -/
theorem sectionActs_cases (audience : Audience) (view : View) :
    audience.sectionActs view = [.beginSection view] ∨
      audience.sectionActs view =
        .beginSection view ::
          ((callExtensions view audience.attached).map .call ++ [.flush]) := by
  unfold sectionActs
  split
  · exact .inl rfl
  · exact .inr rfl

/-- Hearing something is nothing but its acts. -/
theorem hear_eq_foldl_act (audience : Audience) (notice : Notice) :
    audience.hear notice = (audience.actsOf notice).foldl act audience := by
  cases notice with
  | started view =>
      have opened : (audience.act (.openReport view.target)).attached = audience.attached := by
        simp [act, reported_eq]
      rw [actsOf, List.foldl_cons, ← opened, foldl_callAll_noted (.inl rfl)]
      simp [hear, started, act, reported_eq, noteFailure_eq, eventsOf]
  | violated view =>
      rw [actsOf, List.foldl_append, foldl_sectionActs, foldl_callAll_violated]
      simp [hear, violated, extensions, reported_eq, noteFailure_eq]
  | finished view =>
      rw [actsOf, foldl_callAll_noted (.inr rfl)]
      rfl

theorem foldl_hear_eq_foldl_act (audience : Audience) (notices : List Notice) :
    notices.foldl hear audience = (audience.acts notices).foldl act audience := by
  induction notices generalizing audience with
  | nil => rfl
  | cons notice rest ih =>
      rw [List.foldl_cons, acts, List.foldl_append, ← hear_eq_foldl_act, ih]

end Audience

end ChoiceExplorer
