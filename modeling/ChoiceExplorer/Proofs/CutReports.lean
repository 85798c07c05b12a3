import ChoiceExplorer.Proofs.CutSections
import ChoiceExplorer.Proofs.HostRuns
import ChoiceExplorer.Proofs.Trail

/-!
# Cut reports

A report led to a buffer with a limit is compared with the same report led to a
buffer without one.  The audiences of a search differ then in their reports only,
whatever the search tells, and so do the hosts when it has ended.
-/

namespace ChoiceExplorer

open Output (Buffer Channel Failure Surroundings)
open Search (Notice Summary View)

namespace Audience

theorem attached_noteFailure (audience : Audience) (result : Except Failure Unit) :
    (audience.noteFailure result).attached = audience.attached := by
  unfold noteFailure
  split <;> rfl

/-- A failure that is remembered was remembered before, or is new. -/
theorem failure_of_noteFailure {audience : Audience} {result : Except Failure Unit}
    {cause : Failure} (noted : (audience.noteFailure result).failure = some cause) :
    audience.failure = some cause ∨ result = .error cause := by
  unfold noteFailure at noted
  split at noted
  · cases noted
    exact .inr rfl
  · exact .inl noted

/--
Two audiences of one search that differ in their reports: one of them is cut at a limit,
the other has received all bytes.
-/
structure Cuts (limit : Nat) (flushFails : Bool) (received : ByteArray) (cut whole : Audience) :
    Prop where
  attached : cut.attached = whole.attached
  quiet : cut.surroundings.withoutReport = whole.surroundings.withoutReport
  heard : cut.events.filter Event.isOfSearch = whole.events.filter Event.isOfSearch
  reports : ∃ report : Report, cut.report = report.onto (.cutAt limit flushFails received) ∧
    whole.report = report.onto (.whole received)
  unfailed : whole.failure = none
  beyond : flushFails = false → ∀ cause, cut.failure = some cause →
    cause = .full ∧ limit < received.size

namespace Cuts

variable {limit : Nat} {flushFails : Bool} {received : ByteArray} {cut whole : Audience}

/-- A failure that is remembered comes from the limit. -/
theorem beyond_noteFailure (cuts : Cuts limit flushFails received cut whole) {told : Audience}
    (same : told.failure = cut.failure) {more : ByteArray} {result : Except Failure Unit}
    (fails : flushFails = false → Report.FailsBeyond limit (received ++ more) result)
    (flushes : flushFails = false) (cause : Failure)
    (noted : (told.noteFailure result).failure = some cause) :
    cause = .full ∧ limit < (received ++ more).size := by
  rcases failure_of_noteFailure noted with before | failed
  · rw [same] at before
    obtain ⟨full, lt⟩ := cuts.beyond flushes cause before
    rw [ByteArray.size_append]
    exact ⟨full, Nat.lt_add_right _ lt⟩
  · exact fails flushes cause failed

theorem eventsOf_eq (cuts : Cuts limit flushFails received cut whole) (occasion : Occasion)
    (view : View) : cut.eventsOf occasion view = whole.eventsOf occasion view := by
  rw [eventsOf, eventsOf, cuts.attached]

theorem started (cuts : Cuts limit flushFails received cut whole) (view : View) :
    ∃ more, Cuts limit flushFails (received ++ more) (cut.started view) (whole.started view) := by
  obtain ⟨report, cut_report, whole_report⟩ := cuts.reports
  refine ⟨(Report.startText view.target).toUTF8, ?_⟩
  have fails := Report.failsBeyond_write limit flushFails received (Report.startText view.target)
  rw [Audience.started, Audience.started, cut_report, whole_report, Report.start_onto,
    Report.start_onto, Buffer.keeps_cutAt, Buffer.write_whole]
  exact
    { attached := by simp only [attached_noteFailure, cuts.attached]
      quiet := cuts.quiet
      heard := by rw [List.filter_append, List.filter_append, cuts.heard, cuts.eventsOf_eq]
      reports := ⟨report.fresh, rfl, rfl⟩
      unfailed := cuts.unfailed
      beyond := cuts.beyond_noteFailure rfl fun _ => fails }

theorem violated (cuts : Cuts limit flushFails received cut whole) (view : View) :
    ∃ more, Cuts limit flushFails (received ++ more) (cut.violated view) (whole.violated view) := by
  obtain ⟨report, cut_report, whole_report⟩ := cuts.reports
  have told := tellViolated_withoutReport view cut.attached cut.surroundings
  rw [cuts.quiet, cuts.attached, tellViolated_withoutReport] at told
  obtain ⟨attached_eq, quiet⟩ := Prod.mk.inj told
  let attached := (tellViolated view whole.attached whole.surroundings).1
  let observers := (attached.filter Attached.extension).map Attached.observer
  obtain ⟨cut_left, fails⟩ := Report.violation_cutAt report observers view received
    (tellViolated view whole.attached cut.surroundings).2
  obtain ⟨whole_left, succeeds⟩ := Report.violation_whole report observers view received
    (tellViolated view whole.attached whole.surroundings).2
  refine ⟨report.violationBytes view observers, ?_⟩
  dsimp only [Audience.violated, extensions]
  rw [cut_report, whole_report, cuts.attached, ← attached_eq, succeeds]
  exact
    { attached := by simp only [attached_noteFailure]
      quiet := by rw [cut_left.quiet, whole_left.quiet, quiet]
      heard := by
        simp only [List.filter_append, cuts.heard, cuts.eventsOf_eq]
        exact congrArg _ (cut_left.unheard.trans whole_left.unheard.symm)
      reports := ⟨report.counted, cut_left.report_eq, whole_left.report_eq⟩
      unfailed := cuts.unfailed
      beyond := by
        refine cuts.beyond_noteFailure ?_ fails
        rfl }

theorem finished (cuts : Cuts limit flushFails received cut whole) (view : View) :
    Cuts limit flushFails received (cut.finished view) (whole.finished view) :=
  { attached := cuts.attached
    quiet := cuts.quiet
    heard := by
      simp only [Audience.finished, List.filter_append, cuts.heard, cuts.eventsOf_eq]
    reports := cuts.reports
    unfailed := cuts.unfailed
    beyond := cuts.beyond }

/-- Whatever the search tells, the audiences go on to differ in their reports only. -/
theorem hear (cuts : Cuts limit flushFails received cut whole) (notice : Notice) :
    ∃ more, Cuts limit flushFails (received ++ more) (cut.hear notice) (whole.hear notice) := by
  cases notice with
  | started view => exact cuts.started view
  | violated view => exact cuts.violated view
  | finished view =>
      refine ⟨.empty, ?_⟩
      rw [ByteArray.append_empty]
      exact cuts.finished view

theorem hearAll (cuts : Cuts limit flushFails received cut whole) (notices : List Notice) :
    ∃ more, Cuts limit flushFails (received ++ more) (notices.foldl Audience.hear cut)
      (notices.foldl Audience.hear whole) := by
  induction notices generalizing received cut whole with
  | nil =>
      refine ⟨.empty, ?_⟩
      rw [ByteArray.append_empty]
      exact cuts
  | cons notice rest ih =>
      obtain ⟨more, cuts⟩ := cuts.hear notice
      obtain ⟨further, cuts⟩ := ih cuts
      rw [ByteArray.append_assoc] at cuts
      exact ⟨more ++ further, cuts⟩

end Cuts

end Audience

namespace Host

def reportingTo (host : Host) (buffer : Buffer) : Host :=
  { host with report := host.report.onto buffer }

section

variable {σ : Type} (host : Host) (program : Program σ) (state : σ) (budget limit : Nat)
  (flushFails : Bool) (before : ByteArray)

/-- The audiences of runs whose reports are cut and not cut. -/
theorem heard_cuts :
    ∃ received, Audience.Cuts limit flushFails received
      ((host.reportingTo (.cutAt limit flushFails before)).heard program state budget)
      ((host.reportingTo (.whole before)).heard program state budget) := by
  have opening : Audience.Cuts limit flushFails before
      (host.reportingTo (.cutAt limit flushFails before)).audience
      (host.reportingTo (.whole before)).audience :=
    { attached := rfl
      quiet := rfl
      heard := rfl
      reports := ⟨host.report, rfl, rfl⟩
      unfailed := rfl
      beyond := fun _ _ => nofun }
  obtain ⟨more, cuts⟩ := opening.hearAll (host.search.run program state budget).2.notices
  exact ⟨before ++ more, cuts⟩

end

def limited (limit : Nat) (received : ByteArray) (summary : Summary) : Except Error Summary :=
  if received.size ≤ limit then .ok summary else .error (.report .full)

/-- The results of a search are reported as far as the limit allows. -/
theorem finish_cutAt (limit : Nat) (flushFails : Bool) (received : ByteArray) (report : Report)
    (summary : Summary) (surroundings : Surroundings) :
    let step := (report.onto (.cutAt limit flushFails received)).finish summary surroundings
    let more := (Report.finishText summary).toUTF8
    step.report = report.onto (.cutAt limit flushFails (received ++ more)) ∧
      step.surroundings = surroundings ∧
      (flushFails = false →
        concluded summary step.result = limited limit (received ++ more) summary) := by
  rw [Report.finish_onto, Buffer.write_cutAt]
  refine ⟨rfl, rfl, fun flushes => ?_⟩
  have room_eq : Buffer.hasRoom limit received (Report.finishText summary).toUTF8 =
      decide ((received ++ (Report.finishText summary).toUTF8).size ≤ limit) := by
    rw [Buffer.hasRoom, Report.finishText_nonempty, Bool.false_or]
  subst flushes
  rw [limited, room_eq]
  by_cases fits : (received ++ (Report.finishText summary).toUTF8).size ≤ limit
  · rw [decide_eq_true fits, if_pos rfl, if_pos fits]
    rfl
  · rw [decide_eq_false fits, if_neg Bool.false_ne_true, if_neg fits]
    rfl

theorem finish_whole {received : ByteArray} (report : Report) (summary : Summary)
    (surroundings : Surroundings) :
    (report.onto (.whole received)).finish summary surroundings =
      ⟨.ok (), report.onto (.whole (received ++ (Report.finishText summary).toUTF8)),
        surroundings⟩ := by
  rw [Report.finish_onto, Buffer.write_whole]
  rfl

/-- What two runs of one search leave behind, of which the reports are cut and not cut. -/
structure EndsCut {σ : Type} (limit : Nat) (flushFails : Bool) (ending : Search.Ending)
    (cut whole : Outcome σ) : Prop where
  quiet : cut.host.surroundings.withoutReport = whole.host.surroundings.withoutReport
  reports : ∃ (report : Report) (kept received : ByteArray),
    cut.host.report = report.onto (.cutAt limit flushFails kept) ∧
    whole.host.report = report.onto (.whole received) ∧
    (∃ rest, received = kept ++ rest) ∧
    (flushFails = false →
      Buffer.cutAt limit flushFails kept = .cutAt limit flushFails received ∧
        ∀ summary, ending = .finished summary → cut.result = limited limit received summary)
  succeeds : ∀ summary, ending = .finished summary → whole.result = .ok summary
  faults : ∀ fault, ending = .faulted fault →
    cut.result = .error (.search fault) ∧ whole.result = .error (.search fault)

section

variable {σ : Type} {limit : Nat} {flushFails : Bool} {received : ByteArray} {cut whole : Host}
  {program : Program σ} {state : σ} {budget : Nat}

/-- Of a search without a summary both reports are left as they are. -/
theorem endsCut_of_error {ending : Search.Ending} {error : Error}
    (cuts : Audience.Cuts limit flushFails received (cut.heard program state budget)
      (whole.heard program state budget))
    (cut_ending : (cut.search.run program state budget).1 = ending)
    (whole_ending : (whole.search.run program state budget).1 = ending)
    (ended : errorOf? ending = some error) :
    EndsCut limit flushFails ending (cut.run program state budget)
      (whole.run program state budget) := by
  obtain ⟨report, cut_report, whole_report⟩ := cuts.reports
  rw [run_of_error (cut_ending ▸ ended), run_of_error (whole_ending ▸ ended)]
  have unfinished (summary : Summary) : ending ≠ .finished summary := by
    rintro rfl
    cases ended
  exact
    { quiet := cuts.quiet
      reports := ⟨report, received, received, cut_report, whole_report,
        ⟨.empty, ByteArray.append_empty.symm⟩,
        fun _ => ⟨rfl, fun summary finished => absurd finished (unfinished summary)⟩⟩
      succeeds := fun summary finished => absurd finished (unfinished summary)
      faults := by
        rintro fault rfl
        cases ended
        exact ⟨rfl, rfl⟩ }

/-- Of a search that finishes only the report without a limit is sure to be complete. -/
theorem endsCut_of_finished {summary : Summary}
    (cuts : Audience.Cuts limit flushFails received (cut.heard program state budget)
      (whole.heard program state budget))
    (cut_ending : (cut.search.run program state budget).1 = .finished summary)
    (whole_ending : (whole.search.run program state budget).1 = .finished summary) :
    EndsCut limit flushFails (.finished summary) (cut.run program state budget)
      (whole.run program state budget) := by
  obtain ⟨report, cut_report, whole_report⟩ := cuts.reports
  let more := (Report.finishText summary).toUTF8
  have whole_left : (whole.searched program state budget).report = report.onto (.whole received) :=
    whole_report
  have cut_left : (cut.searched program state budget).report =
      report.onto (.cutAt limit flushFails received) := cut_report
  rw [run_of_finished whole_ending cuts.unfailed, whole_left, finish_whole]
  cases failure : (cut.heard program state budget).failure with
  | some cause =>
      rw [run_of_failure cut_ending failure]
      exact
        { quiet := cuts.quiet
          reports := by
            refine ⟨report, received, received ++ more, cut_left, rfl, ⟨more, rfl⟩,
              fun flushes => ?_⟩
            obtain ⟨rfl, lt⟩ := cuts.beyond flushes cause failure
            refine ⟨(Buffer.cutAt_append_of_le (Nat.le_of_lt lt) more).symm, ?_⟩
            rintro _ ⟨⟩
            have beyond : ¬(received ++ more).size ≤ limit := by
              rw [ByteArray.size_append]
              omega
            rw [limited, if_neg beyond]
          succeeds := by
            rintro _ ⟨⟩
            rfl
          faults := fun _ => nofun }
  | none =>
      obtain ⟨step_report, step_surroundings, concludes⟩ :=
        finish_cutAt limit flushFails received report summary
          (cut.searched program state budget).surroundings
      rw [run_of_finished cut_ending failure, cut_left, step_report, step_surroundings]
      exact
        { quiet := cuts.quiet
          reports := by
            refine ⟨report, received ++ more, received ++ more, rfl, rfl,
              ⟨.empty, ByteArray.append_empty.symm⟩, fun flushes => ⟨rfl, ?_⟩⟩
            rintro _ ⟨⟩
            exact concludes flushes
          succeeds := by
            rintro _ ⟨⟩
            rfl
          faults := fun _ => nofun }

end

/--
A report that fails is only cut.  Compared with a buffer that accepts all, a buffer that
accepts bytes up to a limit changes neither the search, nor what the program does, nor
what observers are told of it, nor what they write elsewhere.  It accepts a beginning of
the report, also if flushing fails.  If flushing does not fail it accepts as much as the
limit allows, and a search that finishes gives its summary exactly if the whole report
fits, and else the failure of the report, wherever in the report it was.  A fault of the
search comes before any failure of the report.
-/
theorem limit_only_cuts_the_report {σ : Type} (host : Host) (program : Program σ) (state : σ)
    (budget limit : Nat) (flushFails : Bool) (before : ByteArray) :
    let searched := host.search.run program state budget
    let limited := host.reportingTo (.cutAt limit flushFails before)
    let unlimited := host.reportingTo (.whole before)
    let cut := limited.run program state budget
    let whole := unlimited.run program state budget
    limited.search.visits program state budget = unlimited.search.visits program state budget ∧
    (cut.state = searched.2.state ∧ whole.state = searched.2.state) ∧
    (cut.host.search = searched.2.search ∧ whole.host.search = searched.2.search) ∧
    cut.host.attached = whole.host.attached ∧
    cut.events.filter Event.isOfSearch = whole.events.filter Event.isOfSearch ∧
    cut.host.surroundings.withoutReport = whole.host.surroundings.withoutReport ∧
    (∃ (report : Report) (held : Buffer) (received : ByteArray),
      cut.host.report = report.onto held ∧
      whole.host.report = report.onto (.whole received) ∧
      (∃ rest, received = held.accepted ++ rest) ∧
      (flushFails = false →
        held = .cutAt limit false received ∧
        held.accepted.size = min limit received.size ∧
        ∀ summary, searched.1 = .finished summary →
          cut.result =
            if received.size ≤ limit then .ok summary else .error (.report .full))) ∧
    (∀ summary, searched.1 = .finished summary → whole.result = .ok summary) ∧
    ∀ fault, searched.1 = .faulted fault →
      cut.result = .error (.search fault) ∧ whole.result = .error (.search fault) := by
  intro searched limited unlimited cut whole
  obtain ⟨received, cuts⟩ := heard_cuts host program state budget limit flushFails before
  have ends : EndsCut limit flushFails searched.1 cut whole := by
    cases ended : errorOf? searched.1 with
    | some error => exact endsCut_of_error cuts rfl rfl ended
    | none =>
        obtain ⟨summary, ending⟩ := finished_of_no_error ended
        rw [ending]
        exact endsCut_of_finished cuts ending ending
  obtain ⟨cut_state, cut_search, cut_attached, cut_events⟩ :=
    run_search limited program state budget
  obtain ⟨whole_state, whole_search, whole_attached, whole_events⟩ :=
    run_search unlimited program state budget
  refine ⟨rfl, ⟨cut_state, whole_state⟩, ⟨cut_search, whole_search⟩, ?_, ?_, ends.quiet, ?_,
    ends.succeeds, ends.faults⟩
  · rw [cut_attached, whole_attached, cuts.attached]
  · rw [cut_events, whole_events, cuts.heard]
  · obtain ⟨report, kept, full, cut_report, whole_report, ⟨rest, full_eq⟩, results⟩ := ends.reports
    obtain ⟨later, kept_eq⟩ := Buffer.exists_rest limit flushFails kept
    refine ⟨report, _, full, cut_report, whole_report, ⟨later ++ rest, ?_⟩, fun flushes => ?_⟩
    · rw [← ByteArray.append_assoc, ← kept_eq, full_eq]
    · obtain ⟨same, results⟩ := results flushes
      subst flushes
      exact ⟨same, by rw [same, Buffer.size_cutAt], results⟩

def tardy : Program Unit := fun _ =>
  .choose .bool fun value =>
    .done (if value = .bool true then some (.uncaught "late") else none, ())

def annotated : Host :=
  { config := .empty
    search := { options := {} }
    report := { channel := .standard }
    attached := [⟨.recorder "notes", true⟩] }

/-- The section of the recorder does not fit, and the run has the failure for its result. -/
theorem annotated_limit_only_cuts_the_report :
    let cut := (annotated.reportingTo (.cutAt 290 false .empty)).run tardy () 2
    let whole := (annotated.reportingTo (.whole .empty)).run tardy () 2
    cut.events.map Event.occasion = [.started, .violated, .publishFailed, .finished] ∧
    whole.host.report.accepted.size = 637 ∧
    cut.host.report.accepted.size = 290 ∧
    cut.result = .error (.report .full) := by
  have whole_size :
      ((annotated.reportingTo (.whole .empty)).run tardy () 2).host.report.accepted.size = 637 := by
    decide +kernel
  have finished : (annotated.search.run tardy () 2).1 =
      .finished (annotated.search.run tardy () 2).2.search.summary := by
    decide +kernel
  obtain ⟨-, -, -, -, -, -, ⟨report, held, received, cut_report, whole_report, -, results⟩, -⟩ :=
    limit_only_cuts_the_report annotated tardy () 2 290 false .empty
  obtain ⟨-, held_size, result⟩ := results rfl
  have received_size : received.size = 637 := by
    rw [whole_report, Report.accepted_onto] at whole_size
    exact whole_size
  refine ⟨by decide +kernel, whole_size, ?_, ?_⟩
  · rw [cut_report, Report.accepted_onto, held_size, received_size]
    rfl
  · rw [result _ finished, received_size]
    rfl

end Host

end ChoiceExplorer
