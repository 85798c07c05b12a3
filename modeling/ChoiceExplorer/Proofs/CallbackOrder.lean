import ChoiceExplorer.Proofs.HostRuns
import ChoiceExplorer.Proofs.Notices
import ChoiceExplorer.Proofs.ReliableReports

/-!
# The order of callbacks

Over a report that never fails the callbacks of a run follow a protocol.  Every observer
hears of the start; of each run that fails every observer hears, and then those that add
sections are asked for them; and every observer hears of the end, unless a run had a
fault.  What they see is what the search has recorded.
-/

namespace ChoiceExplorer

open Search (Notice View)

def Callback.noted (attached : List Attached) (callback : Callback) : List Event :=
  match attached[callback.place]? with
  | none => []
  | some member => member.observer.events callback.occasion callback.view

theorem noted_of_roles {first second : List Attached}
    (same : first.map Attached.role = second.map Attached.role) (callback : Callback) :
    callback.noted first = callback.noted second := by
  have roles := getElem?_role same callback.place
  unfold Callback.noted
  cases here : first[callback.place]? <;> cases there : second[callback.place]? <;>
    simp [here, there, Attached.role] at roles ⊢
  rw [roles.2.1]

namespace Audience

variable {audience : Audience}

/-- An act is noted down by the observer that it calls. -/
theorem events_act (reliable : audience.Reliable) (act : Act) :
    (audience.act act).events =
      audience.events ++ act.callback?.toList.flatMap (Callback.noted audience.attached) := by
  cases act with
  | openReport target => simp [Audience.act, reported_eq, Act.callback?]
  | beginSection view => simp [Audience.act, reported_eq, Act.callback?]
  | flush => simp [Audience.act, noteFailure_eq, Act.callback?]
  | call callback =>
      simp only [Audience.act, call, Act.callback?, Option.toList_some, List.flatMap_singleton,
        Callback.noted]
      cases audience.attached[callback.place]? with
      | none => simp
      | some member =>
          cases callback.occasion with
          | published =>
              have asked := (Report.extend_reliable reliable member.observer callback.view).2
              dsimp only
              rw [asked]
          | started | violated | finished | publishFailed => rfl

/-- What is noted down tells the callbacks, one after the other. -/
theorem events_foldl_act (reliable : audience.Reliable) (acts : List Act) :
    (acts.foldl act audience).events =
      audience.events ++
        (acts.filterMap Act.callback?).flatMap (Callback.noted audience.attached) := by
  induction acts generalizing audience with
  | nil => simp
  | cons act rest ih =>
      have noted_eq : Callback.noted (audience.act act).attached =
          Callback.noted audience.attached :=
        funext (noted_of_roles (audience.roles_act act))
      rw [List.foldl_cons, ih (reliable.act act), events_act reliable, noted_eq,
        List.append_assoc, ← List.flatMap_append]
      congr 2
      cases callback : act.callback? with
      | none => simp [callback]
      | some callback => simp [callback]

/-- The callbacks that something heard calls for. -/
def protocol (attached : List Attached) : Notice → List Callback
  | .started view => callAll .started view attached
  | .violated view => callAll .violated view attached ++ callExtensions view attached
  | .finished view => callAll .finished view attached

theorem filterMap_callback?_map_call (callbacks : List Callback) :
    (callbacks.map Act.call).filterMap Act.callback? = callbacks := by
  rw [List.filterMap_map]
  exact List.filterMap_some

theorem callbacks_script (attached : List Attached) (notice : Notice) :
    (script attached notice).filterMap Act.callback? = protocol attached notice := by
  cases notice with
  | started view =>
      rw [script, List.filterMap_cons_none rfl, filterMap_callback?_map_call]
      rfl
  | finished view => exact filterMap_callback?_map_call _
  | violated view =>
      rw [script, List.filterMap_append, List.filterMap_cons_none rfl, List.filterMap_append,
        filterMap_callback?_map_call, filterMap_callback?_map_call]
      simp [protocol, Act.callback?]

/-- A report that never fails lets every callback of the protocol happen. -/
theorem callbacks_acts (reliable : audience.Reliable) (notices : List Notice) :
    (audience.acts notices).filterMap Act.callback? =
      notices.flatMap (protocol audience.attached) := by
  rw [acts_eq_script reliable, List.filterMap_flatMap]
  simp only [callbacks_script]

end Audience

namespace Host

/--
Over a report that never fails the callbacks of a run are these.  Every observer, in the
order in which they were attached, hears of the start, with an empty path and no violation.
For each run that fails, in order, every observer hears of it, and then exactly those that
add sections are asked for them, all with the same view: the path of the run and its record.
Every observer hears of the end if the search finishes, with the last record, and with the
path of the violation that stopped the search or an empty one.  After a fault nobody is
called.  What recorders note down are these callbacks.
-/
theorem callbacks_keep_the_protocol {σ : Type} (host : Host) (program : Program σ) (state : σ)
    (budget : Nat) (reliable : host.report.channel.Reliable host.surroundings) :
    let searched := host.search.run program state budget
    let final := searched.2.search
    let acts := host.audience.acts searched.2.notices
    let calls := acts.filterMap Act.callback?
    let alarms := host.search.alarms program state budget
    host.heard program state budget = acts.foldl Audience.act host.audience ∧
    calls =
      callAll .started ⟨host.search.options.target, .empty, none⟩ host.attached ++
        alarms.flatMap (fun view =>
          callAll .violated view host.attached ++ callExtensions view host.attached) ++
        (match searched.1 with
          | .finished _ => callAll .finished final.view host.attached
          | .faulted _ | .unfinished => []) ∧
    (host.run program state budget).events = calls.flatMap (Callback.noted host.attached) ∧
    alarms.map View.stack =
      ((host.search.trail program state budget).filter fun turn =>
        (turn.visit program).fails).map (Search.Progress.left program) ∧
    alarms.map View.last? = final.violations.map some ∧
    (∀ view ∈ alarms, ∃ record, view.last? = some record ∧
      record.depth = view.stack.depth ∧ record.path = view.stack.texts) ∧
    ∀ summary, searched.1 = .finished summary →
      final.view.last? = summary.violations.getLast? ∧
      final.view.stack =
        if host.search.options.multipleErrors then .empty
        else ((alarms.getLast?).map View.stack).getD .empty := by
  intro searched final acts calls alarms
  have heard_eq : host.heard program state budget = acts.foldl Audience.act host.audience :=
    host.audience.foldl_hear_eq_foldl_act searched.2.notices
  have audience_reliable : host.audience.Reliable := reliable
  refine ⟨heard_eq, ?_, ?_, ?_, (host.search.run_violations program state budget).symm, ?_,
    fun summary finished => ⟨?_, Search.stack_of_finished finished⟩⟩
  · have called := Audience.callbacks_acts audience_reliable searched.2.notices
    rw [show calls = _ from called, show searched.2.notices = _ from
      host.search.run_notices program state budget, List.flatMap_cons, List.flatMap_append,
      List.flatMap_map, ← List.append_assoc]
    congr 1
    rw [show (host.search.run program state budget).1 = searched.1 from rfl]
    cases searched.1 with
    | finished summary => exact List.flatMap_singleton ..
    | faulted fault => rfl
    | unfinished => rfl
  · obtain ⟨-, -, -, events_eq⟩ := host.run_search program state budget
    have noted := Audience.events_foldl_act audience_reliable acts
    rw [events_eq, heard_eq, noted]
    rfl
  · exact host.search.stacks_of_alarms program state budget
  · intro view member
    obtain ⟨place, there⟩ := List.getElem?_of_mem member
    obtain ⟨record, seen, -, -, depth_eq, path_eq⟩ := Search.record_of_alarm there
    exact ⟨record, seen, depth_eq, path_eq⟩
  · rw [← Search.Progress.summary_of_finished finished]
    rfl

def picky : Program Unit := fun _ =>
  .choose (.int 0 2) fun value =>
    .done (if value = .int 1 then none else some (.uncaught "picky"), ())

def attended : Host :=
  { config := .empty
    search := { options := { multipleErrors := true } }
    report := { channel := .buffer {} }
    attached :=
      [⟨.recorder "ear", false⟩, ⟨.tracer ⟨{}, none⟩, true⟩, ⟨.recorder "pen", true⟩] }

theorem attended_callbacks_keep_the_protocol :
    attended.report.channel.Reliable attended.surroundings ∧
    (attended.search.alarms picky () 3).map View.stack =
      [⟨[(Request.int 0 2).pick 0]⟩, ⟨[(Request.int 0 2).pick 2]⟩] ∧
    (attended.run picky () 3).events.map (fun event => (event.recorder, event.occasion)) =
      [("ear", .started), ("pen", .started),
        ("ear", .violated), ("pen", .violated), ("pen", .published),
        ("ear", .violated), ("pen", .violated), ("pen", .published),
        ("ear", .finished), ("pen", .finished)] := by
  have reliable : attended.report.channel.Reliable attended.surroundings := ⟨rfl, rfl⟩
  obtain ⟨-, calls_eq, events_eq, -⟩ :=
    callbacks_keep_the_protocol attended picky () 3 reliable
  refine ⟨reliable, by decide +kernel, ?_⟩
  rw [events_eq, calls_eq]
  decide +kernel

end Host

end ChoiceExplorer
