import ChoiceExplorer.Proofs.ReachedHosts

/-!
# Independent runs

What observers are to a host, the options of its search and that its report never fails:
nothing else goes into a run.  All of it stays whatever is run, so that a run on a host that
was used before is the run on a host that was not.
-/

namespace ChoiceExplorer

open Output (Buffer)
open Search (Notice)

section

variable {first second : List Attached}

theorem passage?_of_roles (same : first.map Attached.role = second.map Attached.role) (act : Act) :
    act.passage? first = act.passage? second := by
  cases act with
  | openReport target => rfl
  | beginSection view => rfl
  | flush => rfl
  | call callback =>
      have roles := getElem?_role same callback.place
      cases occasion : callback.occasion with
      | started | violated | finished | publishFailed => simp only [Act.passage?, occasion]
      | published =>
          simp only [Act.passage?, occasion]
          cases here : first[callback.place]? <;> cases there : second[callback.place]? <;>
            simp [here, there, Attached.role] at roles ⊢
          rw [roles.2.2]

/-- What is written in an act follows from what the observers are to their host. -/
theorem writing?_of_parts (same : first.map Attached.part = second.map Attached.part) (act : Act) :
    act.writing? first = act.writing? second := by
  have passage_eq := passage?_of_roles (roles_of_parts same) act
  cases act with
  | openReport target => rfl
  | beginSection view => rfl
  | flush => rfl
  | call callback =>
      cases occasion : callback.occasion with
      | started | finished | published | publishFailed =>
          simp only [Act.writing?, occasion, passage_eq]
      | violated =>
          have parts := congrArg (·[callback.place]?) same
          simp only [List.getElem?_map] at parts
          simp only [Act.writing?, occasion]
          cases here : first[callback.place]? <;> cases there : second[callback.place]? <;>
            simp [here, there, Attached.part] at parts ⊢
          rw [parts.2]

theorem protocol_of_roles (same : first.map Attached.role = second.map Attached.role)
    (notice : Notice) : Audience.protocol first notice = Audience.protocol second notice := by
  cases notice with
  | started view => exact callAll_of_roles same .started view
  | finished view => exact callAll_of_roles same .finished view
  | violated view =>
      rw [Audience.protocol, callAll_of_roles same, callExtensions_of_roles same]
      rfl

end

namespace Host

variable {σ : Type} {host reached : Host} {program : Program σ} {state : σ} {budget : Nat}

/-- Over a report that never fails what is noted down follows from the search. -/
theorem events_of_reliable (reliable : host.report.channel.Reliable host.surroundings) :
    (host.run program state budget).events =
      ((host.search.run program state budget).2.notices.flatMap
        (Audience.protocol host.attached)).flatMap (Callback.noted host.attached) := by
  have audience_reliable : host.audience.Reliable := reliable
  obtain ⟨-, -, -, events_eq⟩ := host.run_search program state budget
  rw [events_eq, heard, Audience.foldl_hear_eq_foldl_act,
    Audience.events_foldl_act audience_reliable, Audience.callbacks_acts audience_reliable]
  rfl

namespace Reaches

theorem run_eq (reaches : host.Reaches reached) :
    reached.search.run program state budget = host.search.run program state budget :=
  Search.run_of_options reaches.options_eq program state budget

theorem writings_eq (reaches : host.Reaches reached)
    (reliable : host.report.channel.Reliable host.surroundings) :
    reached.writings program state budget = host.writings program state budget := by
  have roles_eq := roles_of_parts reaches.parts_eq
  rw [writings_of_reliable reliable, writings_of_reliable (reaches.reliable reliable),
    reaches.run_eq, Audience.script_of_roles roles_eq,
    funext (writing?_of_parts reaches.parts_eq)]

theorem events_eq (reaches : host.Reaches reached)
    (reliable : host.report.channel.Reliable host.surroundings) :
    (reached.run program state budget).events = (host.run program state budget).events := by
  have roles_eq := roles_of_parts reaches.parts_eq
  rw [events_of_reliable reliable, events_of_reliable (reaches.reliable reliable),
    reaches.run_eq, funext (protocol_of_roles roles_eq), funext (noted_of_roles roles_eq)]

theorem result_eq (reaches : host.Reaches reached)
    (reliable : host.report.channel.Reliable host.surroundings) :
    (reached.run program state budget).result = (host.run program state budget).result := by
  rw [result_of_reliable reliable, result_of_reliable (reaches.reliable reliable), reaches.run_eq]

theorem lastErrorId_eq (reaches : host.Reaches reached) :
    (reached.run program state budget).host.report.lastErrorId =
      (host.run program state budget).host.report.lastErrorId := by
  have alarms_eq : reached.search.alarms program state budget =
      host.search.alarms program state budget := by
    simp only [Search.alarms, Search.outset, Search.reset, reaches.options_eq]
  rw [run_report, run_report, (agrees_of_run ..).2.lastErrorId_eq,
    (agrees_of_run ..).2.lastErrorId_eq, alarms_eq]

end Reaches

/--
Over a report that never fails a run on a host that was used before is the run on the host
that was not: it has the same result, leaves the same search, the same state of the program
and observers that are the same to the host, has the same calls noted down, and writes the
same texts into the same destinations in the same order.  The programs before may have been
exhausted, or stopped by a violation, a fault or the end of a budget.  A destination that
nobody else writes to receives the same bytes behind what it has received before, and so
does the standard output, whoever writes to it, if it has no limit.
-/
theorem runs_are_independent (host : Host) (jobs : List Job) (program : Program σ) (state : σ)
    (budget : Nat) (reliable : host.report.channel.Reliable host.surroundings) :
    let reached := host.afterJobs jobs
    let fresh := host.run program state budget
    let again := reached.run program state budget
    let writings := host.writings program state budget
    let shown := Buffer.bytesOf (host.audience.textsShown writings)
    again.result = fresh.result ∧
    again.host.search = fresh.host.search ∧
    again.state = fresh.state ∧
    again.events = fresh.events ∧
    again.host.attached.map Attached.part = fresh.host.attached.map Attached.part ∧
    again.host.report.lastErrorId = fresh.host.report.lastErrorId ∧
    reached.writings program state budget = writings ∧
    host.audience.Performs writings fresh.host.audience ∧
    reached.audience.Performs writings again.host.audience ∧
    (∀ into received, host.audience.Receives into received →
      let added := Buffer.bytesOf (textsInto into writings)
      fresh.host.audience.Receives into (received ++ added) ∧
      ∃ earlier, reached.audience.Receives into (received ++ earlier) ∧
        again.host.audience.Receives into (received ++ earlier ++ added)) ∧
    (host.surroundings.stdout.limit = none →
      fresh.host.surroundings.stdout.accepted = host.surroundings.stdout.accepted ++ shown ∧
      again.host.surroundings.stdout.accepted = reached.surroundings.stdout.accepted ++ shown) := by
  intro reached fresh again writings shown
  have reaches : host.Reaches reached := host.reaches_afterJobs jobs
  obtain ⟨fresh_state, fresh_search, -⟩ := host.run_search program state budget
  obtain ⟨again_state, again_search, -⟩ := reached.run_search program state budget
  have performs := host.run_performs program state budget
  have performs_again := reached.run_performs program state budget
  rw [reaches.writings_eq reliable] at performs_again
  rw [reaches.run_eq] at again_state again_search
  obtain ⟨before, performed⟩ := reaches.performs
  -- Both hosts are left as they were but for what their channels have received.
  obtain ⟨-, parts_fresh, -⟩ := host.reaches_run program state budget
  obtain ⟨-, parts_again, -⟩ := reached.reaches_run program state budget
  refine ⟨reaches.result_eq reliable, again_search.trans fresh_search.symm,
    again_state.trans fresh_state.symm, reaches.events_eq reliable,
    parts_again.trans (reaches.parts_eq.trans parts_fresh.symm), reaches.lastErrorId_eq,
    reaches.writings_eq reliable, performs, performs_again, fun into received receives => ?_,
    fun unlimited => ?_⟩
  · have received_before := receives.performs performed
    exact ⟨receives.performs performs, _, received_before, received_before.performs performs_again⟩
  · have shown_eq : reached.audience.textsShown writings = host.audience.textsShown writings := by
      rw [Audience.textsShown, Audience.textsShown, performed.shared?_eq]
    have still := (performed.stdout_eq unlimited).1
    refine ⟨(performs.stdout_eq unlimited).2, ?_⟩
    rw [show again.host.surroundings.stdout.accepted = _ from
      (performs_again.stdout_eq still).2, shown_eq]
    rfl

def calm : Program Unit := fun _ => .choose .bool fun _ => .done (none, ())

def rash : Program Unit := fun _ =>
  .choose (.int 0 2) fun value =>
    .done (if value = .int 1 then some (.uncaught "rash") else none, ())

/-- A truth value, then another in the first run and a number in those after it. -/
def fickle : Program Nat := fun number =>
  .choose .bool fun _ => .choose (if number = 0 then .bool else .int 0 1) fun _ =>
    .done (none, number + 1)

def busy : Host :=
  attachTracer
    { config := Table.insert .empty "choice.trace" "trace"
      search := { options := { target := "busy" } }
      report := { channel := .buffer {} } }

/-- A search that is exhausted, one that is stopped by a violation, and one by a fault. -/
def errands : List Job := [⟨Unit, calm, (), 2⟩, ⟨Unit, rash, (), 3⟩, ⟨Nat, fickle, 0, 2⟩]

theorem busy_runs_are_independent :
    let used := busy.afterJobs errands
    let fresh := busy.run rash () 3
    let again := used.run rash () 3
    used.search.stack.depth = 2 ∧
    again.result = fresh.result ∧
    again.host.search = fresh.host.search ∧
    ∃ earlier added, 0 < added.size ∧
      used.surroundings.directory.get? "trace" = some earlier ∧
      fresh.host.surroundings.directory.get? "trace" = some added ∧
      again.host.surroundings.directory.get? "trace" = some (earlier ++ added) := by
  have reliable : busy.report.channel.Reliable busy.surroundings := ⟨rfl, rfl⟩
  obtain ⟨result_eq, search_eq, -, -, -, -, -, performs, performs_again, received, -⟩ :=
    runs_are_independent busy errands rash () 3 reliable
  obtain ⟨_, performed⟩ := (busy.reaches_afterJobs errands).performs
  have leads : busy.audience.shared? (.outlet 0) = some (.file "trace") := by decide +kernel
  have used_leads := (congrFun performed.shared?_eq (.outlet 0)).trans leads
  have receives : busy.audience.Receives (.outlet 0) .empty :=
    .of_alone rfl rfl (.file (by decide +kernel)) (by decide +kernel)
  obtain ⟨fresh_received, earlier, used_received, again_received⟩ := received _ _ receives
  rw [ByteArray.empty_append] at fresh_received used_received again_received
  refine ⟨by decide +kernel, result_eq, search_eq, earlier, _, ?_,
    get?_file used_received used_leads,
    get?_file fresh_received ((congrFun performs.shared?_eq _).trans leads),
    get?_file again_received ((congrFun performs_again.shared?_eq _).trans used_leads)⟩
  decide +kernel

end Host

end ChoiceExplorer
