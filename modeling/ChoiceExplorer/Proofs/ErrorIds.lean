import ChoiceExplorer.Proofs.Callbacks
import ChoiceExplorer.Proofs.CutSections
import ChoiceExplorer.Proofs.HostRuns
import ChoiceExplorer.Proofs.Notices
import ChoiceExplorer.Proofs.PrintedLines

/-!
# The ids of errors

The search numbers its records and the report numbers its sections, each by itself.  The
report counts a violation before it writes anything of it, and from zero in every run, so
that the two agree whenever they are shown together, whether or not the report fails.
-/

namespace ChoiceExplorer

open Search (Notice Record View)

/-- The id that is shown after so many violations, empty before the first. -/
def Report.lastId (count : Nat) : String := if count = 0 then "" else Search.errorId count

/-- A report that has counted so many violations of its run. -/
structure Report.Counts (report : Report) (count : Nat) : Prop where
  errorCount_eq : report.errorCount = count
  lastErrorId_eq : report.lastErrorId = lastId count

def Act.count : Act → Nat → Nat
  | openReport _, _ => 0
  | beginSection _, before => before + 1
  | call _, before | flush, before => before

namespace Audience

variable {audience : Audience} {count : Nat} {view : View} {record : Record}

theorem lastErrorId_extend (report : Report) (observer : Observer) (view : View)
    (surroundings : Output.Surroundings) :
    let extended := report.extend observer view surroundings
    extended.report.errorCount = report.errorCount ∧
      extended.report.lastErrorId = report.lastErrorId := by
  dsimp only [Report.extend]
  split <;> exact ⟨rfl, rfl⟩

/-- A call leaves the report where it has got to with counting. -/
theorem counts_call (counts : audience.report.Counts count) (callback : Callback) :
    (audience.call callback).report.Counts count := by
  unfold call
  split
  · exact counts
  · rename_i member _
    cases callback.occasion with
    | published =>
        obtain ⟨errorCount_eq, lastErrorId_eq⟩ :=
          lastErrorId_extend audience.report member.observer callback.view audience.surroundings
        exact ⟨errorCount_eq.trans counts.errorCount_eq,
          lastErrorId_eq.trans counts.lastErrorId_eq⟩
    | started | violated | finished | publishFailed => exact counts

theorem counts_act (counts : audience.report.Counts count) (act : Act) :
    (audience.act act).report.Counts (act.count count) := by
  cases act with
  | openReport target =>
      rw [Audience.act, reported_eq]
      exact ⟨rfl, rfl⟩
  | beginSection view =>
      rw [Audience.act, reported_eq]
      exact ⟨congrArg (· + 1) counts.errorCount_eq,
        congrArg (fun before => Search.errorId (before + 1)) counts.errorCount_eq⟩
  | call callback => exact counts_call counts callback
  | flush =>
      rw [Audience.act, noteFailure_eq]
      exact counts

theorem counts_foldl_act (counts : audience.report.Counts count) (acts : List Act) :
    (acts.foldl act audience).report.Counts
      (acts.foldl (fun before act => act.count before) count) := by
  induction acts generalizing audience count with
  | nil => exact counts
  | cons act rest ih => exact ih (counts_act counts act)

theorem foldl_count_calls (callbacks : List Callback) (count : Nat) :
    (callbacks.map Act.call).foldl (fun before act => act.count before) count = count := by
  induction callbacks with
  | nil => rfl
  | cons callback rest ih => exact ih

/--
At the moment of an act the two numberings agree: on a violation whose section is to begin,
and on one that an observer is asked to add a section about.
-/
def Agrees (audience : Audience) : Act → Prop
  | .call callback => callback.occasion = .published →
      ∃ record, callback.view.last? = some record ∧ audience.report.lastErrorId = record.id
  | .beginSection view =>
      ∃ record, view.last? = some record ∧ audience.report.counted.lastErrorId = record.id
  | .openReport _ | .flush => True

def AgreesAlong (audience : Audience) : List Act → Prop
  | [] => True
  | act :: rest => audience.Agrees act ∧ AgreesAlong (audience.act act) rest

theorem agreesAlong_append {first second : List Act} :
    audience.AgreesAlong (first ++ second) ↔
      audience.AgreesAlong first ∧ (first.foldl act audience).AgreesAlong second := by
  induction first generalizing audience with
  | nil => simp [AgreesAlong]
  | cons act rest ih => simp only [List.cons_append, AgreesAlong, ih, List.foldl_cons, and_assoc]

/-- Observers are asked about the violation whose id the report shows. -/
theorem agreesAlong_calls (counts : audience.report.Counts count) (callbacks : List Callback)
    (asked : ∀ callback ∈ callbacks, callback.occasion = .published →
      ∃ record, callback.view.last? = some record ∧ record.id = Report.lastId count) :
    audience.AgreesAlong (callbacks.map .call) := by
  induction callbacks generalizing audience with
  | nil => trivial
  | cons callback rest ih =>
      rw [List.forall_mem_cons] at asked
      refine ⟨fun published => ?_, ih (counts_call counts callback) asked.2⟩
      obtain ⟨record, seen, id_eq⟩ := asked.1 published
      exact ⟨record, seen, counts.lastErrorId_eq.trans id_eq.symm⟩

theorem mem_callAll {occasion : Occasion} {attached : List Attached} {callback : Callback}
    (member : callback ∈ callAll occasion view attached) : callback.occasion = occasion := by
  obtain ⟨place, -, rfl⟩ := List.mem_map.mp member
  rfl

theorem mem_callExtensions {attached : List Attached} {callback : Callback}
    (member : callback ∈ callExtensions view attached) : callback.view = view := by
  obtain ⟨place, -, rfl⟩ := List.mem_map.mp member
  rfl

/-- Calls that ask for nothing leave the numberings in agreement. -/
theorem agreesAlong_callAll (counts : audience.report.Counts count) {occasion : Occasion}
    (other : occasion ≠ .published) :
    audience.AgreesAlong ((callAll occasion view audience.attached).map .call) :=
  agreesAlong_calls counts _ fun _ member published =>
    absurd ((mem_callAll member).symm.trans published) other

/-- If the record of a violation has the number that the report comes to, they agree on it. -/
theorem agreesAlong_violated (counts : audience.report.Counts count)
    (seen : view.last? = some record) (numbered : record.id = Search.errorId (count + 1)) :
    audience.AgreesAlong (audience.actsOf (.violated view)) ∧
      (audience.hear (.violated view)).report.Counts (count + 1) := by
  let calls := (callAll .violated view audience.attached).map Act.call
  let told := calls.foldl act audience
  have told_counts : told.report.Counts count := by
    have counted := counts_foldl_act counts calls
    rwa [foldl_count_calls] at counted
  have section_agrees : told.Agrees (.beginSection view) := by
    refine ⟨record, seen, ?_⟩
    rw [numbered, ← told_counts.errorCount_eq]
    rfl
  have begun_counts := counts_act told_counts (.beginSection view)
  have extensions_agree : (told.act (.beginSection view)).AgreesAlong
      ((callExtensions view told.attached).map .call ++ [.flush]) := by
    refine agreesAlong_append.mpr ⟨agreesAlong_calls begun_counts _ ?_, trivial, trivial⟩
    intro callback member _
    rw [mem_callExtensions member]
    exact ⟨record, seen, numbered⟩
  have section_along : told.AgreesAlong (told.sectionActs view) := by
    rcases told.sectionActs_cases view with alone | asked
    · rw [alone]
      exact ⟨section_agrees, trivial⟩
    · rw [asked]
      exact ⟨section_agrees, extensions_agree⟩
  have section_counts : (told.sectionActs view).foldl (fun before act => act.count before) count =
      count + 1 := by
    rcases told.sectionActs_cases view with alone | asked
    · rw [alone]
      rfl
    · rw [asked, List.foldl_cons, List.foldl_append, foldl_count_calls]
      rfl
  refine ⟨agreesAlong_append.mpr ⟨agreesAlong_callAll counts (by decide), section_along⟩, ?_⟩
  rw [hear_eq_foldl_act, actsOf, List.foldl_append, ← section_counts]
  exact counts_foldl_act told_counts _

theorem agreesAlong_started (audience : Audience) (view : View) :
    audience.AgreesAlong (audience.actsOf (.started view)) ∧
      (audience.hear (.started view)).report.Counts 0 := by
  have opened : (audience.act (.openReport view.target)).report.Counts 0 := by
    rw [act, reported_eq]
    exact ⟨rfl, rfl⟩
  have same : (audience.act (.openReport view.target)).attached = audience.attached := by
    simp [act, reported_eq]
  refine ⟨⟨trivial, same ▸ agreesAlong_callAll opened (by decide)⟩, ?_⟩
  have counted := counts_foldl_act opened ((callAll .started view audience.attached).map .call)
  rw [foldl_count_calls] at counted
  rw [hear_eq_foldl_act]
  exact counted

/-- The numberings agree through violations that are recorded with consecutive numbers. -/
theorem agreesAlong_violations {views : List View} {ending : Option Search.Ending}
    {last : View} (counts : audience.report.Counts count)
    (recorded : ∀ place view, views[place]? = some view →
      ∃ record, view.last? = some record ∧ record.id = Search.errorId (count + place + 1)) :
    let notices := views.map Notice.violated ++ Search.closing ending last
    audience.AgreesAlong (audience.acts notices) ∧
      (notices.foldl hear audience).report.Counts (count + views.length) := by
  induction views generalizing audience count with
  | nil =>
      unfold Search.closing
      split
      · refine ⟨agreesAlong_append.mpr ⟨agreesAlong_callAll counts (by decide), trivial⟩, ?_⟩
        exact counts
      · exact ⟨trivial, counts⟩
  | cons view rest ih =>
      obtain ⟨record, seen, numbered⟩ := recorded 0 view rfl
      obtain ⟨along, heard_counts⟩ := agreesAlong_violated counts seen numbered
      -- The others are numbered from one further on, as one more has been counted.
      obtain ⟨rest_along, rest_counts⟩ := ih heard_counts fun place later there => by
        obtain ⟨record, seen, numbered⟩ := recorded (place + 1) later there
        exact ⟨record, seen, by rw [numbered]; congr 1; omega⟩
      refine ⟨agreesAlong_append.mpr ⟨along, ?_⟩, ?_⟩
      · rw [← hear_eq_foldl_act]
        exact rest_along
      · rw [List.length_cons, Nat.add_comm rest.length, ← Nat.add_assoc]
        exact rest_counts

/-- What agrees along acts agrees at each of them. -/
theorem AgreesAlong.at_split {before after : List Act} {act : Act}
    (along : audience.AgreesAlong (before ++ act :: after)) :
    (before.foldl Audience.act audience).Agrees act :=
  (agreesAlong_append.mp along).2.1

end Audience

namespace Host

/-- In a run the numberings agree, and the report has counted the violations in the end. -/
theorem agrees_of_run {σ : Type} (host : Host) (program : Program σ) (state : σ) (budget : Nat) :
    host.audience.AgreesAlong
        (host.audience.acts (host.search.run program state budget).2.notices) ∧
      (host.heard program state budget).report.Counts
        (host.search.alarms program state budget).length := by
  have numbered : ∀ place view, (host.search.alarms program state budget)[place]? = some view →
      ∃ record, view.last? = some record ∧ record.id = Search.errorId (0 + place + 1) := by
    intro place view there
    obtain ⟨record, seen, -, id_eq, -⟩ := Search.record_of_alarm there
    exact ⟨record, seen, by rw [id_eq, Nat.zero_add]⟩
  obtain ⟨started_along, fresh⟩ :=
    Audience.agreesAlong_started host.audience host.search.reset.view
  obtain ⟨along, counts⟩ := Audience.agreesAlong_violations fresh numbered
  rw [heard, Search.run_notices]
  refine ⟨Audience.agreesAlong_append.mpr ⟨started_along, ?_⟩, ?_⟩
  · rw [← Audience.hear_eq_foldl_act]
    exact along
  · rw [Nat.zero_add] at counts
    exact counts

/--
The search and the report number violations in agreement.  Whatever was run on the host
before, and wherever its report fails: when an observer is asked to add a section, the id
that the report shows is that of the record that the search shows; a section of the report
begins with the id of the record that it goes on with, whose number is that of the section;
and after a run the report shows the id of the last record, which has the number of records
for its number, or none if there is no record.
-/
theorem error_ids_agree {σ : Type} (host : Host) (jobs : List Job) (program : Program σ)
    (state : σ) (budget : Nat) :
    let reached := host.afterJobs jobs
    let acts := reached.audience.acts (reached.search.run program state budget).2.notices
    let outcome := reached.run program state budget
    let count := outcome.host.search.violations.length
    reached.heard program state budget = acts.foldl Audience.act reached.audience ∧
    (∀ before callback after, acts = before ++ .call callback :: after →
      callback.occasion = .published →
      ∃ record, callback.view.last? = some record ∧
        (before.foldl Audience.act reached.audience).report.lastErrorId = record.id) ∧
    (∀ before view after, acts = before ++ .beginSection view :: after →
      let now := before.foldl Audience.act reached.audience
      ∃ record, view.last? = some record ∧
        record.id = "#" ++ toString (now.report.errorCount + 1) ∧
        (now.act (.beginSection view)).report.errorCount = now.report.errorCount + 1 ∧
        (now.act (.beginSection view)).report.lastErrorId = record.id ∧
        (now.act (.beginSection view)).report.channel =
          (now.report.channel.write (printed (Report.violationLines record))
            now.surroundings).channel) ∧
    outcome.host.report.lastErrorId =
      (outcome.host.search.view.last?.map Record.id).getD "" ∧
    outcome.host.report.lastErrorId = if count = 0 then "" else "#" ++ toString count := by
  intro reached acts outcome count
  obtain ⟨along, counts⟩ := reached.agrees_of_run program state budget
  have agrees {before : List Act} {act : Act} {after : List Act}
      (parted : acts = before ++ act :: after) :
      (before.foldl Audience.act reached.audience).Agrees act := by
    have along_parts : reached.audience.AgreesAlong (before ++ act :: after) := parted ▸ along
    exact along_parts.at_split
  have heard_eq := reached.audience.foldl_hear_eq_foldl_act
    (reached.search.run program state budget).2.notices
  obtain ⟨-, search_eq, -⟩ := reached.run_search program state budget
  have count_eq : count = (reached.search.alarms program state budget).length := by
    rw [show count = _ from congrArg (fun search => search.violations.length) search_eq]
    simpa using congrArg List.length (reached.search.run_violations program state budget)
  have shown : outcome.host.report.lastErrorId = Report.lastId count := by
    rw [show outcome.host.report.lastErrorId = _ from reached.run_report program state budget,
      counts.lastErrorId_eq, count_eq]
  refine ⟨heard_eq, fun before callback after parted => ?_, fun before view after parted => ?_, ?_,
    shown⟩
  · exact (agrees parted : Audience.Agrees _ (.call callback))
  · obtain ⟨record, seen, id_eq⟩ := (agrees parted : Audience.Agrees _ (.beginSection view))
    refine ⟨record, seen, id_eq.symm, ?_, ?_, ?_⟩
    · rw [Audience.act, Audience.reported_eq]
      rfl
    · rw [Audience.act, Audience.reported_eq]
      exact id_eq
    · rw [← Report.violationText_eq, Audience.act, Audience.reported_eq, ← seen, ← id_eq]
      rfl
  · rw [shown, show outcome.host.search = _ from search_eq, Search.last_id, ← count_eq,
      Report.lastId]
    split <;> rfl

def restless : Program Unit := fun _ =>
  .choose .bool fun _ => .done (some (.uncaught "restless"), ())

def crowded : Host :=
  { config := .empty
    search := { options := { multipleErrors := true } }
    report := { channel := .buffer { limit := some 1150 } }
    attached := [⟨.recorder "notes", true⟩] }

def crowdedOnce : Host := crowded.afterJobs [⟨Unit, restless, (), 2⟩]

def crowdedActs : List Act :=
  crowdedOnce.audience.acts (crowdedOnce.search.run restless () 2).2.notices

def crowdedAudience : Audience := (crowdedActs.take 3).foldl Audience.act crowdedOnce.audience

/-- In a second run the recorder is asked about the first violation, and cannot write. -/
theorem crowded_error_ids_agree :
    let record := Record.ofPath 1 (.uncaught "restless") ⟨[Request.bool.pick 0]⟩
    let view : View := ⟨"", ⟨[Request.bool.pick 0]⟩, some record⟩
    crowdedOnce.report.lastErrorId = "#2" ∧
    crowdedActs = crowdedActs.take 3 ++ .beginSection view :: crowdedActs.drop 4 ∧
    (crowdedAudience.act (.beginSection view)).report.channel =
      (crowdedAudience.report.channel.write
        ("\n====================================================== error #1\n" ++
          "NoUncaughtExceptionsProperty\nrestless\n") crowdedAudience.surroundings).channel ∧
    crowdedActs =
      crowdedActs.take 4 ++ .call ⟨0, .published, view⟩ :: crowdedActs.drop 5 ∧
    ((crowdedActs.take 4).foldl Audience.act crowdedOnce.audience).report.lastErrorId = "#1" ∧
    (crowdedOnce.run restless () 2).events.map Event.occasion =
      [.started, .violated, .publishFailed, .violated, .finished] ∧
    (crowdedOnce.run restless () 2).host.report.lastErrorId = "#2" := by
  intro record view
  have once : crowded.afterJobs [⟨Unit, restless, (), 2⟩] = crowdedOnce := rfl
  obtain ⟨-, asked, begun, -, last⟩ :=
    error_ids_agree crowded [⟨Unit, restless, (), 2⟩] restless () 2
  rw [once] at asked begun last
  have begins : crowdedActs = crowdedActs.take 3 ++ .beginSection view :: crowdedActs.drop 4 := by
    decide +kernel
  have asks : crowdedActs =
      crowdedActs.take 4 ++ .call ⟨0, .published, view⟩ :: crowdedActs.drop 5 := by
    decide +kernel
  obtain ⟨_, seen, -, -, -, written⟩ := begun (crowdedActs.take 3) view (crowdedActs.drop 4) begins
  cases seen
  rw [← crowdedAudience] at written
  obtain ⟨_, seen, id_eq⟩ := asked (crowdedActs.take 4) _ (crowdedActs.drop 5) asks rfl
  cases seen
  have count_eq : (crowdedOnce.run restless () 2).host.search.violations.length = 2 := by
    decide +kernel
  have text_eq : printed (Report.violationLines record) =
      "\n====================================================== error #1\n" ++
        "NoUncaughtExceptionsProperty\nrestless\n" := by
    decide +kernel
  rw [text_eq] at written
  rw [count_eq] at last
  exact ⟨by decide +kernel, begins, written, asks, id_eq, by decide +kernel, last⟩

end Host

end ChoiceExplorer
