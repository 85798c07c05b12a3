import ChoiceExplorer.Proofs.HostRuns
import ChoiceExplorer.Proofs.TraceSinks

/-!
# Failing sinks

A run goes on in the same way for every receiver of traces, and so do runs one after the
other.  A sink that fails is therefore noticed only by who reads it, or reads the warnings.
-/

namespace ChoiceExplorer

open Output (Buffer)
open Search (View)

/-- A receiver that is never warned of leaves the warnings of others as they are. -/
theorem woven_unwarned {others : List (List Warning)} {texts : List String}
    (same_length : others.length = texts.length) (received : ByteArray) :
    woven others (warningsFor (fun _ => []) received texts) = others.flatten := by
  induction others generalizing texts received with
  | nil => rfl
  | cons first rest ih =>
      cases texts with
      | nil => cases same_length
      | cons text texts =>
          have later := ih (Nat.succ.inj same_length) (received ++ text.toUTF8)
          rw [woven] at later
          rw [woven, warningsFor, List.zipWith_cons_cons, List.flatten_cons, later,
            List.flatten_cons, List.append_nil]

namespace Host

def joined (host : Host) (earlier later : List Attached) (member : Attached)
    (warned : List Warning) : Host :=
  { host with
    attached := earlier ++ member :: later
    surroundings := host.surroundings.rewarned (warned ++ ·) }

section

variable (options : Trace.Options) (extension : Bool) (host : Host)
  (earlier later : List Attached) (received : ByteArray)

/-- A run goes on in the same way for every receiver. -/
theorem run_joined {σ : Type} (program : Program σ) (state : σ) (budget : Nat) :
    ∃ (outcome : Outcome σ) (earlier' later' : List Attached),
      outcome.host.search = (host.search.run program state budget).2.search ∧
      ForEveryReceiver options extension received
        (options.tracesOf (host.search.alarms program state budget))
        (·.run program state budget) (host.joined earlier later)
        fun member warned =>
          { outcome with host := outcome.host.joined earlier' later' member warned } := by
  let explored := host.search.run program state budget
  obtain ⟨next, earlier', later', others, others_length, same⟩ :=
    Audience.foldl_hear_joined options extension host.audience earlier later received
      explored.2.notices
  rw [show explored.2.notices.filterMap _ = _ from
    Search.violations_of_notices host.search program state budget] at others_length same
  let left := host.afterSearch explored.2.search next
  let tracing (receiver : Receiver options) (warned : List Warning) : Host :=
    host.joined earlier later (receiver.attached extension received) warned
  have heard_eq (receiver : Receiver options) (warned : List Warning) :
      (tracing receiver warned).heard program state budget = _ := same receiver warned
  -- The search does not see who is attached, so it ends in the same way for all.
  have ending_eq (receiver : Receiver options) (warned : List Warning) :
      ((tracing receiver warned).search.run program state budget).1 = explored.1 := rfl
  cases ended : errorOf? explored.1 with
  | some error =>
      refine ⟨⟨.error error, left, explored.2.state, next.events⟩, earlier', later', rfl, others,
        others_length, fun receiver warned => ?_⟩
      refine (run_of_error (ending_eq receiver warned ▸ ended)).trans ?_
      rw [searched, heard_eq]
      rfl
  | none =>
      obtain ⟨summary, finished⟩ := finished_of_no_error ended
      cases failure : next.failure with
      | some cause =>
          refine ⟨⟨.error (.report cause), left, explored.2.state, next.events⟩, earlier', later',
            rfl, others, others_length, fun receiver warned => ?_⟩
          have failed := (congrArg Audience.failure (heard_eq receiver warned)).trans failure
          refine (run_of_failure ((ending_eq receiver warned).trans finished) failed).trans ?_
          rw [searched, heard_eq]
          rfl
      | none =>
          let step := next.report.finish summary next.surroundings
          refine ⟨⟨concluded summary step.result,
            { left with report := step.report, surroundings := step.surroundings },
            explored.2.state, next.events⟩, earlier', later', rfl, others, others_length,
            fun receiver warned => ?_⟩
          have unfailed := (congrArg Audience.failure (heard_eq receiver warned)).trans failure
          refine (run_of_finished ((ending_eq receiver warned).trans finished) unfailed).trans ?_
          rw [searched, heard_eq]
          dsimp only [afterSearch, Audience.joined, joined]
          rw [Report.finish_rewarned]
          rfl

/-- What observers see of the runs that fail in jobs done one after the other. -/
def jobAlarms : Search → List Job → List View
  | _, [] => []
  | search, job :: rest =>
      search.alarms job.program job.state job.budget ++
        jobAlarms (search.run job.program job.state job.budget).2.search rest

/-- Jobs go on in the same way for every receiver. -/
theorem afterJobs_joined (jobs : List Job) :
    ∃ (next : Host) (earlier' later' : List Attached),
      ForEveryReceiver options extension received (options.tracesOf (jobAlarms host.search jobs))
        (·.afterJobs jobs) (host.joined earlier later) (next.joined earlier' later') := by
  induction jobs generalizing host earlier later received with
  | nil => exact ⟨host, earlier, later, .of_untraced fun _ _ => rfl⟩
  | cons job rest ih =>
      obtain ⟨outcome, earlier', later', search_eq, others, others_length, same⟩ :=
        run_joined options extension host earlier later received job.program job.state job.budget
      have begins : ForEveryReceiver options extension received
          (options.tracesOf (host.search.alarms job.program job.state job.budget)) (·.afterJob job)
          (host.joined earlier later) (outcome.host.joined earlier' later') :=
        ⟨others, others_length, fun receiver warned => congrArg Outcome.host (same receiver warned)⟩
      obtain ⟨last, earlier', later', goes_on⟩ := ih outcome.host earlier' later'
        (received ++ Buffer.bytesOf (options.tracesOf
          (host.search.alarms job.program job.state job.budget)))
      refine ⟨last, earlier', later', ?_⟩
      rw [jobAlarms, ← search_eq, Trace.Options.tracesOf, List.map_append]
      exact begins.comp goes_on

end

/--
A sink that fails disturbs nobody.  Compared with a sink that accepts everything, one that
accepts bytes up to a limit, whether or not flushing it fails, changes neither the result
of a run, nor its report, nor what observers are told, nor anything else but the warnings,
and whatever was run before.  It holds the beginning of all traces, one after the other, as
far as the limit allows.  For each trace that is not written completely and flushed there
is one more warning, and no other; of a sink that accepts everything there is no more
warning than of an observer that does nothing.
-/
theorem failing_sink_disturbs_nobody {σ : Type} (host : Host) (options : Trace.Options)
    (extension : Bool) (earlier later : List Attached) (limit : Nat) (flushFails : Bool)
    (before : ByteArray) (jobs : List Job) (program : Program σ) (state : σ) (budget : Nat) :
    let tracer (buffer : Buffer) : Attached :=
      ⟨.tracer ⟨options, some (.ofBuffer buffer)⟩, extension⟩
    let tracingTo (buffer : Buffer) : Host :=
      { host with attached := earlier ++ tracer buffer :: later }
    let failing := (tracingTo (.cutAt limit flushFails before)).afterJobs jobs
    let sound := (tracingTo (.whole before)).afterJobs jobs
    let untraced : Host := { host with attached := earlier ++ ⟨.silent, extension⟩ :: later }
    let idle := untraced.afterJobs jobs
    let cut := failing.run program state budget
    let whole := sound.run program state budget
    let texts := options.tracesOf
      (jobAlarms host.search jobs ++ failing.search.alarms program state budget)
    let received := before ++ Buffer.bytesOf texts
    let lost := (Sink.cutAt limit flushFails).warningsOf before texts
    cut.result = whole.result ∧ cut.state = whole.state ∧ cut.events = whole.events ∧
    cut.host.search = whole.host.search ∧ cut.host.report = whole.host.report ∧
    (cut.host.surroundings.rewarned fun _ => []) =
      (whole.host.surroundings.rewarned fun _ => []) ∧
    (∃ earlier' later',
      cut.host.attached = earlier' ++ tracer (.cutAt limit flushFails received) :: later' ∧
      whole.host.attached = earlier' ++ tracer (.whole received) :: later') ∧
    (Buffer.cutAt limit flushFails received).accepted = received.extract 0 limit ∧
    whole.host.surroundings.warnings =
      (idle.run program state budget).host.surroundings.warnings ∧
    (∃ others last, others.length = texts.length ∧
      whole.host.surroundings.warnings = others.flatten ++ last ∧
      cut.host.surroundings.warnings = woven others lost ++ last) ∧
    ∀ place, place < texts.length →
      lost[place]? = some
        (if limit < (before ++ Buffer.bytesOf (texts.take (place + 1))).size then
          [.traceNotWritten .full]
        else if flushFails then [.traceNotWritten .flush] else []) := by
  intro tracer tracingTo failing sound untraced idle cut whole texts received lost
  let failingSink := Receiver.ofSink options (.cutAt limit flushFails)
  obtain ⟨next, earlier', later', begins⟩ :=
    afterJobs_joined options extension host earlier later before jobs
  obtain ⟨outcome, earlier', later', -, goes_on⟩ := run_joined options extension next earlier'
    later' (before ++ Buffer.bytesOf (options.tracesOf (jobAlarms host.search jobs))) program state
    budget
  obtain ⟨others, others_length, same⟩ := begins.comp goes_on
  obtain ⟨_, -, jobs_eq⟩ := begins
  have failing_search : failing.search = next.search :=
    (congrArg Host.search (jobs_eq failingSink [])).trans rfl
  have texts_eq : options.tracesOf (jobAlarms host.search jobs) ++
      options.tracesOf (next.search.alarms program state budget) = texts := by
    simp only [texts, failing_search, Trace.Options.tracesOf, List.map_append]
  rw [texts_eq] at others_length same
  -- The three hosts are one statement about three receivers.
  have cut_eq : cut = { outcome with
      host := outcome.host.joined earlier' later' (tracer (.cutAt limit flushFails received))
        (woven others lost) } :=
    same failingSink []
  have whole_eq : whole = { outcome with
      host := outcome.host.joined earlier' later' (tracer (.whole received)) others.flatten } := by
    rw [← woven_unwarned others_length before]
    exact same (.ofSink options .whole) []
  have idle_eq : idle.run program state budget = { outcome with
      host := outcome.host.joined earlier' later' ⟨.silent, extension⟩ others.flatten } := by
    rw [← woven_unwarned others_length before]
    exact same (.idle options) []
  rw [cut_eq, whole_eq, idle_eq]
  refine ⟨rfl, rfl, rfl, rfl, rfl, rfl, ⟨earlier', later', rfl, rfl⟩, rfl, rfl,
    ⟨others, outcome.host.surroundings.warnings, others_length, rfl, rfl⟩, fun place within => ?_⟩
  rw [show lost = warningsFor _ before texts from rfl, getElem?_warningsFor _ _ within,
    Sink.warnings, Sink.cutAt]
  dsimp only
  split
  · rfl
  · split <;> rfl

def unsound : Program Unit := fun _ =>
  .choose .bool fun _ => .done (some (.uncaught "unsound"), ())

def tracedTo (buffer : Buffer) : Host :=
  { config := .empty
    search := { options := { multipleErrors := true } }
    report := { channel := .buffer {} }
    attached := [⟨.tracer ⟨{}, some (.ofBuffer buffer)⟩, false⟩, ⟨.recorder "ear", false⟩] }

/-- The second trace is cut, and the first could not be flushed. -/
theorem tracedTo_failing_sink_disturbs_nobody :
    let cut := (tracedTo (.cutAt 250 true .empty)).run unsound () 2
    let whole := (tracedTo (.whole .empty)).run unsound () 2
    cut.result = whole.result ∧ cut.events = whole.events ∧
    whole.host.surroundings.warnings = [] ∧
    cut.host.surroundings.warnings = [.traceNotWritten .flush, .traceNotWritten .full] := by
  obtain ⟨result_eq, -, events_eq, -⟩ :=
    failing_sink_disturbs_nobody (tracedTo {}) {} false [] [⟨.recorder "ear", false⟩] 250 true
      .empty [] unsound () 2
  exact ⟨result_eq, events_eq, by decide +kernel, by decide +kernel⟩

end Host

end ChoiceExplorer
