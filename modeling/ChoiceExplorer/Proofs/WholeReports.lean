import ChoiceExplorer.Proofs.ReportTexts

/-!
# Whole reports

Over a writer that never fails the report of a search that finishes is determined by the
target, the summary and what observers add.  It is written while the search goes on, a
section for each violation, and the sections of observers stand directly behind it.
-/

namespace ChoiceExplorer

open Output (Buffer Channel)
open Search (Notice Record Summary View)

def Attached.section? (member : Attached) (errorId : String) (view : View) : Option String :=
  if member.extension then member.observer.section? errorId view else none

/-- The sections that observers add, in the order in which they were attached. -/
def sectionsOf (attached : List Attached) (errorId : String) (view : View) : List String :=
  attached.filterMap (Attached.section? · errorId view)

namespace Passage

/-- The section of a violation, and those that observers add to it. -/
def ofViolation (attached : List Attached) (record : Record) (view : View) : List Passage :=
  own (printed (Report.violationLines record)) :: (sectionsOf attached record.id view).map added

def ofReport (target : String) (attached : List Attached) (summary : Summary)
    (views : List View) : List Passage :=
  own (printed (Report.startLines target)) ::
    (summary.violations.zip views).flatMap (fun told => ofViolation attached told.1 told.2) ++
    [own (printed (Report.finishLines summary))]

variable {attached : List Attached} {target : String} {summary : Summary} {views : List View}

theorem filter_ofViolation (attached : List Attached) (record : Record) (view : View) :
    (ofViolation attached record view).filter isOwn =
      [own (printed (Report.violationLines record))] := by
  have none_own (texts : List String) : (texts.map added).filter isOwn = [] := by
    induction texts with
    | nil => rfl
    | cons text rest ih => exact ih
  rw [ofViolation, List.filter_cons_of_pos rfl, none_own]

/-- What the report says itself tells of its target and of the summary only. -/
theorem filter_ofReport (same_length : summary.violations.length = views.length) :
    (ofReport target attached summary views).filter isOwn =
      own (printed (Report.startLines target)) ::
        summary.violations.map (fun record => own (printed (Report.violationLines record))) ++
        [own (printed (Report.finishLines summary))] := by
  have sections_eq : ((summary.violations.zip views).flatMap fun told =>
      ofViolation attached told.1 told.2).filter isOwn =
        summary.violations.map fun record => own (printed (Report.violationLines record)) := by
    have records_eq := List.map_fst_zip (Nat.le_of_eq same_length)
    rw [List.filter_flatMap, ← records_eq, List.map_map, records_eq]
    simp only [filter_ofViolation]
    exact List.map_eq_flatMap.symm
  rw [ofReport, List.filter_append, List.filter_cons_of_pos rfl, sections_eq]
  rfl

/-- If no observer adds sections a report has only what it says itself. -/
theorem filter_ofReport_of_no_extension
    (none_extends : ∀ member ∈ attached, member.extension = false) :
    (ofReport target attached summary views).filter isOwn =
      ofReport target attached summary views := by
  have nothing_added (errorId : String) (view : View) : sectionsOf attached errorId view = [] := by
    rw [sectionsOf, List.filterMap_eq_nil_iff]
    intro member there
    simp [Attached.section?, none_extends member there]
  have only_own (record : Record) (view : View) : ofViolation attached record view =
      (ofViolation attached record view).filter isOwn := by
    rw [filter_ofViolation, ofViolation, nothing_added]
    rfl
  rw [ofReport, List.filter_append, List.filter_cons_of_pos rfl, List.filter_flatMap]
  simp only [← only_own]
  rfl

end Passage

/-- The results say that there are no errors exactly if there are no violations. -/
theorem Report.mem_resultLines_iff (violations : List Record) :
    "no errors detected" ∈ resultLines violations ↔ violations = [] := by
  cases violations with
  | nil => simp [resultLines]
  | cons record rest =>
      constructor
      · intro among
        obtain ⟨told, -, same⟩ := List.mem_map.mp among
        have first := congrArg (fun text => text.toList.head?) same
        simp at first
      · intro empty
        cases empty

section

variable {attached : List Attached} {view : View}

/-- Calls that ask for no section write nothing. -/
theorem passages_callAll {occasion : Occasion} (other : occasion ≠ .published) :
    ((callAll occasion view attached).map .call).filterMap (Act.passage? attached) = [] := by
  rw [List.filterMap_eq_nil_iff]
  intro act member
  obtain ⟨callback, among, rfl⟩ := List.mem_map.mp member
  have same := Audience.mem_callAll among
  cases occasion with
  | published => exact absurd rfl other
  | started | violated | finished | publishFailed => simp only [Act.passage?, same]

theorem filterMap_places {β : Type} (attached : List Attached) (f : Attached → Option β) :
    (List.range attached.length).filterMap (fun place => attached[place]?.bind f) =
      attached.filterMap f := by
  have places : (List.range attached.length).map (attached[·]?) = attached.map some := by
    apply List.ext_getElem <;> simp
  calc
    _ = ((List.range attached.length).map (attached[·]?)).filterMap (·.bind f) :=
      List.filterMap_map.symm
    _ = attached.filterMap f := by
      rw [places, List.filterMap_map]
      rfl

/-- Observers that are called for their sections write them in turn. -/
theorem passages_callExtensions {record : Record} (seen : view.last? = some record) :
    ((callExtensions view attached).map .call).filterMap (Act.passage? attached) =
      (sectionsOf attached record.id view).map .added := by
  rw [sectionsOf, List.map_filterMap, ← filterMap_places, callExtensions, List.filterMap_map,
    List.filterMap_map, List.filterMap_filter]
  congr 1
  funext place
  simp only [Function.comp_apply, Act.passage?, seen, Option.bind_some]
  cases attached[place]? with
  | none => rfl
  | some member => cases extension : member.extension <;> simp [Attached.section?, extension]

theorem passages_started :
    (Audience.script attached (.started view)).filterMap (Act.passage? attached) =
      [.own (printed (Report.startLines view.target))] := by
  have opened : Act.passage? attached (.openReport view.target) =
      some (.own (printed (Report.startLines view.target))) := by
    rw [← Report.startText_eq]
    rfl
  have other : Occasion.started ≠ .published := by decide
  rw [Audience.script, List.filterMap_cons_some opened, passages_callAll other]

theorem passages_finished :
    (Audience.script attached (.finished view)).filterMap (Act.passage? attached) = [] :=
  passages_callAll (show Occasion.finished ≠ .published by decide)

/-- The texts that are written when a violation is heard of. -/
theorem passages_violated {record : Record} (seen : view.last? = some record) :
    (Audience.script attached (.violated view)).filterMap (Act.passage? attached) =
      Passage.ofViolation attached record view := by
  have begun : Act.passage? attached (.beginSection view) =
      some (.own (printed (Report.violationLines record))) := by
    rw [Act.passage?, seen, ← Report.violationText_eq]
    rfl
  have other : Occasion.violated ≠ .published := by decide
  rw [Audience.script, List.filterMap_append, passages_callAll other, List.nil_append,
    List.filterMap_cons_some begun, List.filterMap_append, passages_callExtensions seen]
  exact congrArg _ (List.append_nil _)

/-- The texts of violations are those of the records that are seen of them. -/
theorem passages_violations {records : List Record} {views : List View}
    (seen : views.map View.last? = records.map some) :
    (views.map Notice.violated).flatMap (fun notice =>
        (Audience.script attached notice).filterMap (Act.passage? attached)) =
      (records.zip views).flatMap fun told => Passage.ofViolation attached told.1 told.2 := by
  induction records generalizing views with
  | nil =>
      rw [List.map_eq_nil_iff.mp seen]
      rfl
  | cons record rest ih =>
      cases views with
      | nil => cases seen
      | cons view views =>
          obtain ⟨first, others⟩ := List.cons.inj seen
          rw [List.map_cons, List.flatMap_cons, passages_violated first, ih others]
          rfl

end

namespace Host

def withoutExtensions (host : Host) : Host :=
  { host with attached := host.attached.filter fun member => !member.extension }

def written {σ : Type} (host : Host) (program : Program σ) (state : σ) (budget : Nat) :
    List String :=
  let explored := host.search.run program state budget
  host.audience.written (host.audience.acts explored.2.notices) ++
    match explored.1, (host.heard program state budget).failure with
    | .finished summary, none => [Report.finishText summary]
    | _, _ => []

section

variable {σ : Type} {host : Host} {program : Program σ} {state : σ} {budget : Nat}
  {summary : Summary}

/-- The records of a summary are those that observers see, one after the other. -/
theorem alarms_of_finished
    (finished : (host.search.run program state budget).1 = .finished summary) :
    (host.search.alarms program state budget).map View.last? = summary.violations.map some := by
  rw [← host.search.run_violations program state budget,
    ← Search.Progress.summary_of_finished finished]
  rfl

theorem length_alarms
    (finished : (host.search.run program state budget).1 = .finished summary) :
    summary.violations.length = (host.search.alarms program state budget).length := by
  simpa using (congrArg List.length (alarms_of_finished finished)).symm

theorem unfailed_of_reliable (reliable : host.report.channel.Reliable host.surroundings) :
    (host.heard program state budget).failure = none := by
  have audience_reliable : host.audience.Reliable := reliable
  rw [heard, Audience.foldl_hear_eq_foldl_act, Audience.failure_foldl_act audience_reliable]
  rfl

/-- Over a writer that never fails the report of a search that finishes is complete. -/
theorem written_of_finished (reliable : host.report.channel.Reliable host.surroundings)
    (finished : (host.search.run program state budget).1 = .finished summary) :
    host.written program state budget =
      (Passage.ofReport host.search.options.target host.attached summary
        (host.search.alarms program state budget)).map Passage.text := by
  have audience_reliable : host.audience.Reliable := reliable
  have passages_eq : (host.audience.acts (host.search.run program state budget).2.notices).filterMap
      (Act.passage? host.attached) =
        .own (printed (Report.startLines host.search.options.target)) ::
          (summary.violations.zip (host.search.alarms program state budget)).flatMap fun told =>
            Passage.ofViolation host.attached told.1 told.2 := by
    rw [Audience.acts_eq_script audience_reliable, List.filterMap_flatMap, Search.run_notices,
      finished, List.flatMap_cons, List.flatMap_append,
      show host.audience.attached = host.attached from rfl, passages_started,
      passages_violations (alarms_of_finished finished), Search.closing, List.flatMap_singleton,
      passages_finished, List.append_nil]
    rfl
  have texts_eq := Audience.written_of_agreesAlong (host.agrees_of_run program state budget).1
    (show host.audience.attached.map Attached.role = host.attached.map Attached.role from rfl)
  simp only [written, finished, unfailed_of_reliable reliable]
  rw [texts_eq, passages_eq, Passage.ofReport, List.map_append, Report.finishText_eq]
  rfl

/-- Over a writer that never fails a search that finishes gives its summary. -/
theorem result_of_finished (reliable : host.report.channel.Reliable host.surroundings)
    (finished : (host.search.run program state budget).1 = .finished summary) :
    (host.run program state budget).result = .ok summary := by
  have audience_reliable : host.audience.Reliable := reliable
  have heard_reliable : (host.heard program state budget).Reliable := by
    rw [heard, Audience.foldl_hear_eq_foldl_act]
    exact audience_reliable.foldl_act _
  have closed := Channel.Reliable.writeOut heard_reliable (Report.finishText summary)
  rw [run_of_finished finished (unfailed_of_reliable reliable)]
  exact congrArg (concluded summary) closed

/-- A writer that nobody else writes to receives the report, and nothing else. -/
theorem holds_of_finished {received : ByteArray}
    (holds : host.report.channel.Holds host.surroundings received)
    (spares : ∀ member ∈ host.attached, member.observer.Spares host.report.channel.shared?)
    (finished : (host.search.run program state budget).1 = .finished summary) :
    let outcome := host.run program state budget
    outcome.host.report.channel.Holds outcome.host.surroundings
      (received ++ Buffer.bytesOf (host.written program state budget)) := by
  have unfailed : (host.heard program state budget).failure = none :=
    unfailed_of_reliable holds.reliable
  have holding : host.audience.Holds received := ⟨holds, spares⟩
  have heard_holds := (holding.foldl_act
    (host.audience.acts (host.search.run program state budget).2.notices)).holds
  rw [← Audience.foldl_hear_eq_foldl_act] at heard_holds
  have closed := heard_holds.writeOut (Report.finishText summary)
  simp only [written, finished, unfailed]
  rw [Buffer.bytesOf_append, Buffer.bytesOf_cons, Buffer.bytesOf_nil, ByteArray.append_empty,
    ← ByteArray.append_assoc, run_of_finished finished unfailed]
  exact closed

end

/--
Over a writer that never fails the report of a search that finishes follows from its target,
its summary and what observers add.  It tells the target, then of each record in order its
section and directly behind it the sections that observers add, in the order in which they
were attached, and last the results.  A host without the observers that add sections reports
the same without these.  The results say that there are no errors exactly if there is no
record.  If nobody else writes to the writer then it receives the report and nothing else.
-/
theorem report_follows_the_summary {σ : Type} (host : Host) (program : Program σ) (state : σ)
    (budget : Nat) (summary : Summary)
    (reliable : host.report.channel.Reliable host.surroundings)
    (finished : (host.search.run program state budget).1 = .finished summary) :
    let alarms := host.search.alarms program state budget
    let passages :=
      Passage.ofReport host.search.options.target host.attached summary alarms
    let plainPassages :=
      .own (printed (Report.startLines host.search.options.target)) ::
        summary.violations.map (fun record => .own (printed (Report.violationLines record))) ++
        [.own (printed (Report.finishLines summary))]
    let plain := host.withoutExtensions
    let outcome := host.run program state budget
    let plainOutcome := plain.run program state budget
    alarms.map View.last? = summary.violations.map some ∧
    outcome.result = .ok summary ∧
    host.written program state budget = passages.map Passage.text ∧
    plainOutcome.result = .ok summary ∧
    plain.written program state budget = plainPassages.map Passage.text ∧
    passages.filter Passage.isOwn = plainPassages ∧
    ((∀ member ∈ host.attached, member.extension = false) → passages = plainPassages) ∧
    ("no errors detected" ∈ Report.resultLines summary.violations ↔ summary.violations = []) ∧
    ∀ received, host.report.channel.Holds host.surroundings received →
      (∀ member ∈ host.attached, member.observer.Spares host.report.channel.shared?) →
        outcome.host.report.channel.Holds outcome.host.surroundings
          (received ++ Buffer.bytesOf (passages.map Passage.text)) ∧
        plainOutcome.host.report.channel.Holds plainOutcome.host.surroundings
          (received ++ Buffer.bytesOf (plainPassages.map Passage.text)) := by
  intro alarms passages plainPassages plain outcome plainOutcome
  have own_eq : passages.filter Passage.isOwn = plainPassages :=
    Passage.filter_ofReport (length_alarms finished)
  have plain_eq : Passage.ofReport host.search.options.target plain.attached summary alarms =
      plainPassages := by
    rw [← Passage.filter_ofReport_of_no_extension, Passage.filter_ofReport (length_alarms finished)]
    intro member there
    simpa using (List.mem_filter.mp there).2
  have plain_reliable : plain.report.channel.Reliable plain.surroundings := reliable
  have written_eq : host.written program state budget = passages.map Passage.text :=
    written_of_finished reliable finished
  have plain_written : plain.written program state budget = plainPassages.map Passage.text := by
    rw [← plain_eq]
    exact written_of_finished plain_reliable finished
  refine ⟨alarms_of_finished finished, result_of_finished reliable finished, written_eq,
    result_of_finished plain_reliable finished, plain_written, own_eq, fun none_extends => ?_,
    Report.mem_resultLines_iff _, fun received holds spares => ⟨?_, ?_⟩⟩
  · rw [← own_eq]
    exact (Passage.filter_ofReport_of_no_extension none_extends).symm
  · rw [← written_eq]
    exact holds_of_finished holds spares finished
  · have plain_holds : plain.report.channel.Holds plain.surroundings received := holds
    rw [← plain_written]
    exact holds_of_finished plain_holds
      (fun member there => spares member (List.mem_filter.mp there).1) finished

def uneven : Program Unit := fun _ =>
  .choose (.int 0 2) fun value =>
    .done (if value = .int 1 then none else some (.uncaught "uneven"), ())

def filing : Host :=
  { config := .empty
    search := { options := { target := "uneven", multipleErrors := true } }
    report := { channel := .file "report" 0 }
    attached :=
      [⟨.tracer ⟨{}, none⟩, true⟩, ⟨.tracer ⟨{}, some .standard⟩, false⟩, ⟨.recorder "pen", true⟩]
    surroundings := { directory := Table.insert .empty "report" .empty } }

theorem filing_report_follows_the_summary :
    let rule := "\n====================================================== "
    let summary := (filing.search.run uneven () 3).2.search.summary
    let passages := Passage.ofReport "uneven" filing.attached summary
      (filing.search.alarms uneven () 3)
    passages.map Passage.isOwn = [true, true, false, false, true, false, false, true] ∧
    (passages.filter Passage.isOwn).map Passage.text =
      [rule ++ "system under test\nuneven\n" ++ rule ++ "search started\n",
        rule ++ "error #1\nNoUncaughtExceptionsProperty\nuneven\n",
        rule ++ "error #2\nNoUncaughtExceptionsProperty\nuneven\n",
        rule ++ "results\nerror #1: NoUncaughtExceptionsProperty: uneven\n" ++
          "error #2: NoUncaughtExceptionsProperty: uneven\n" ++
          rule ++ "statistics\npaths explored:     3\ntruncated paths:    0\n" ++
          "max depth:          1\n" ++ rule ++ "search finished\n"] ∧
    (filing.run uneven () 3).result = .ok summary ∧
    filing.written uneven () 3 = passages.map Passage.text ∧
    (filing.run uneven () 3).host.surroundings.directory.get? "report" =
      some (Buffer.bytesOf (passages.map Passage.text)) := by
  have holds : filing.report.channel.Holds filing.surroundings .empty :=
    .file (by simp [filing, Table.get?_insert])
  have spares : ∀ member ∈ filing.attached,
      member.observer.Spares filing.report.channel.shared? := by
    simp only [filing, List.forall_mem_cons]
    exact ⟨.inr nofun, .inr nofun, .inr nofun, nofun⟩
  have finished : (filing.search.run uneven () 3).1 =
      .finished (filing.search.run uneven () 3).2.search.summary := by
    decide +kernel
  obtain ⟨-, result, written, -, -, -, -, -, held⟩ :=
    report_follows_the_summary filing uneven () 3 _ trivial finished
  have channel_eq : (filing.run uneven () 3).host.report.channel = .file "report" 1187 := by
    decide +kernel
  have received := (held .empty holds spares).1
  rw [channel_eq, ByteArray.empty_append] at received
  exact ⟨by decide +kernel, by decide +kernel, result, written, received.get?_file⟩

end Host

end ChoiceExplorer
