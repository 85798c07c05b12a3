import ChoiceExplorer.Host.Audience
import ChoiceExplorer.Proofs.CutBuffers
import ChoiceExplorer.Proofs.WarningsApart

/-!
# Sections of cut reports

A report that is led to a buffer receives its own texts and the sections of observers.
Whether these are written completely is seen by the observers that add them, and by
the warnings about them, but by nobody else.
-/

namespace ChoiceExplorer

open Output (Buffer Channel Failure Surroundings)
open Search (Summary View)

/-- Whether a warning tells of a section of the report. -/
def Warning.isOfReport : Warning → Bool
  | .traceNotPublished _ => true
  | _ => false

/-- Whether a call tells of the search, and not of a section of the report. -/
def Event.isOfSearch (event : Event) : Bool :=
  match event.occasion with
  | .started | .violated | .finished => true
  | .published | .publishFailed => false

namespace Output

def Surroundings.withoutReport (surroundings : Surroundings) : Surroundings :=
  { surroundings with
    warnings := surroundings.warnings.filter fun warning => !warning.isOfReport }

end Output

/-- Traces of their own go on without regard to the warnings about the report. -/
theorem Audience.tellViolated_withoutReport (view : View) (attached : List Attached)
    (surroundings : Surroundings) :
    tellViolated view attached surroundings.withoutReport =
      ((tellViolated view attached surroundings).1,
        (tellViolated view attached surroundings).2.withoutReport) :=
  tellViolated_rewarned (fun _ _ => List.filter_append ..) view attached surroundings

namespace Observer

/-- What an observer warns of about its section is a warning about the report. -/
theorem withoutReport_warn_section (observer : Observer) (result : Except Failure Unit)
    (surroundings : Surroundings) :
    (surroundings.warn (observer.sectionWarnings result)).withoutReport =
      surroundings.withoutReport := by
  have none_left : (observer.sectionWarnings result).filter (fun warning => !warning.isOfReport) =
      [] := by
    cases observer <;> cases result <;> rfl
  rw [Surroundings.warn, Surroundings.withoutReport, List.filter_append, none_left,
    List.append_nil]
  rfl

theorem filter_sectionEvents (observer : Observer) (result : Except Failure Unit) (view : View) :
    (observer.sectionEvents result view).filter Event.isOfSearch = [] := by
  cases observer <;> cases result <;> rfl

end Observer

namespace Report

def onto (report : Report) (buffer : Buffer) : Report := { report with channel := .buffer buffer }

def accepted (report : Report) : ByteArray :=
  match report.channel with
  | .buffer buffer => buffer.accepted
  | _ => .empty

@[simp] theorem accepted_onto (report : Report) (buffer : Buffer) :
    (report.onto buffer).accepted = buffer.accepted := rfl

def counted (report : Report) : Report :=
  { report with
    errorCount := report.errorCount + 1
    lastErrorId := Search.errorId (report.errorCount + 1) }

def sectionBytes (errorId : String) (view : View) (observer : Observer) : ByteArray :=
  ((observer.section? errorId view).getD "").toUTF8

def sectionsBytes (errorId : String) (view : View) : List Observer → ByteArray
  | [] => .empty
  | observer :: rest => sectionBytes errorId view observer ++ sectionsBytes errorId view rest

def nextText (report : Report) (view : View) : String :=
  violationText report.counted.lastErrorId view.last?

def violationBytes (report : Report) (view : View) (observers : List Observer) : ByteArray :=
  (report.nextText view).toUTF8 ++ sectionsBytes report.counted.lastErrorId view observers

theorem beginViolation_onto (report : Report) (buffer : Buffer) (view : View)
    (surroundings : Surroundings) :
    (report.onto buffer).beginViolation view surroundings =
      ⟨(buffer.write (report.nextText view)).1,
        report.counted.onto (buffer.write (report.nextText view)).2, surroundings⟩ :=
  rfl

section

variable {buffer : ByteArray → Buffer} (keeps : Buffer.Keeps buffer)

include keeps

/-- A section goes to the buffer of the report, and shows nowhere else. -/
theorem extend_onto (report : Report) (observer : Observer) (view : View) (received : ByteArray)
    (surroundings : Surroundings) :
    let extended := (report.onto (buffer received)).extend observer view surroundings
    extended.report =
        report.onto (buffer (received ++ sectionBytes report.lastErrorId view observer)) ∧
      extended.surroundings.withoutReport = surroundings.withoutReport ∧
      extended.events.filter Event.isOfSearch = [] := by
  have id_eq : (report.onto (buffer received)).lastErrorId = report.lastErrorId := rfl
  cases added : observer.section? report.lastErrorId view with
  | none =>
      have nothing : sectionBytes report.lastErrorId view observer = .empty := by
        rw [sectionBytes, added]
        rfl
      simp only [extend, id_eq, added, nothing, ByteArray.append_empty]
      exact ⟨trivial, trivial, rfl⟩
  | some text =>
      have bytes : sectionBytes report.lastErrorId view observer = text.toUTF8 := by
        rw [sectionBytes, added]
        rfl
      simp only [extend, id_eq, added, bytes]
      refine ⟨?_, observer.withoutReport_warn_section _ _, observer.filter_sectionEvents _ _⟩
      rw [← keeps]
      rfl

theorem extendAll_onto (view : View) (observers : List Observer) (report : Report)
    (received : ByteArray) (surroundings : Surroundings) :
    let extended := extendAll view observers (report.onto (buffer received)) surroundings
    extended.report =
        report.onto (buffer (received ++ sectionsBytes report.lastErrorId view observers)) ∧
      extended.surroundings.withoutReport = surroundings.withoutReport ∧
      extended.events.filter Event.isOfSearch = [] := by
  induction observers generalizing received surroundings with
  | nil =>
      rw [sectionsBytes, ByteArray.append_empty]
      exact ⟨rfl, rfl, rfl⟩
  | cons observer rest ih =>
      obtain ⟨report_eq, quiet, unheard⟩ :=
        extend_onto keeps report observer view received surroundings
      dsimp only [extendAll]
      rw [report_eq, List.filter_append, unheard, sectionsBytes, ← ByteArray.append_assoc, ← quiet]
      exact ih _ _

end

/-- A violation was reported, and nobody has heard of it but the report. -/
structure Leaves (surroundings : Surroundings) (reported : Step × List Event) (report : Report) :
    Prop where
  report_eq : reported.1.report = report
  quiet : reported.1.surroundings.withoutReport = surroundings.withoutReport
  unheard : reported.2.filter Event.isOfSearch = []

variable {limit : Nat} {flushFails : Bool}

/-- A failure that comes from the limit, which has been exceeded. -/
def FailsBeyond (limit : Nat) (received : ByteArray) (result : Except Failure Unit) : Prop :=
  ∀ cause, result = .error cause → cause = .full ∧ limit < received.size

theorem failsBeyond_ok (limit : Nat) (received : ByteArray) :
    FailsBeyond limit received (.ok ()) := nofun

theorem failsBeyond_write (limit : Nat) (flushFails : Bool) (received : ByteArray)
    (text : String) :
    FailsBeyond limit (received ++ text.toUTF8)
      ((Buffer.cutAt limit flushFails received).write text).1 := by
  intro cause failed
  rw [Buffer.write_cutAt] at failed
  cases room : Buffer.hasRoom limit received text.toUTF8 with
  | true =>
      rw [room] at failed
      cases failed
  | false =>
      rw [room] at failed
      cases failed
      exact ⟨rfl, Buffer.lt_of_not_hasRoom room⟩

theorem FailsBeyond.append {received : ByteArray} {result : Except Failure Unit}
    (beyond : FailsBeyond limit received result) (bytes : ByteArray) :
    FailsBeyond limit (received ++ bytes) result := by
  intro cause failed
  obtain ⟨full, lt⟩ := beyond cause failed
  rw [ByteArray.size_append]
  exact ⟨full, Nat.lt_add_right _ lt⟩

theorem violation_whole (report : Report) (observers : List Observer) (view : View)
    (received : ByteArray) (surroundings : Surroundings) :
    let reported := (report.onto (.whole received)).violation observers view surroundings
    Leaves surroundings reported
        (report.counted.onto (.whole (received ++ report.violationBytes view observers))) ∧
      reported.1.result = .ok () := by
  obtain ⟨report_eq, quiet, unheard⟩ := extendAll_onto Buffer.keeps_whole view observers
    report.counted (received ++ (report.nextText view).toUTF8) surroundings
  rw [ByteArray.append_assoc] at report_eq
  dsimp only [violation]
  rw [beginViolation_onto, Buffer.write_whole]
  dsimp only
  rw [report_eq]
  exact ⟨⟨rfl, quiet, unheard⟩, rfl⟩

/--
A violation is reported as far as the limit allows.  If its section does not fit then
the others are left out, which makes no difference to a buffer that is full.
-/
theorem violation_cutAt (report : Report) (observers : List Observer) (view : View)
    (received : ByteArray) (surroundings : Surroundings) :
    let reported :=
      (report.onto (.cutAt limit flushFails received)).violation observers view surroundings
    let more := report.violationBytes view observers
    Leaves surroundings reported
        (report.counted.onto (.cutAt limit flushFails (received ++ more))) ∧
      (flushFails = false → FailsBeyond limit (received ++ more) reported.1.result) := by
  dsimp only [violation]
  rw [beginViolation_onto, Buffer.write_cutAt]
  cases room : Buffer.hasRoom limit received (report.nextText view).toUTF8 with
  | true =>
      obtain ⟨report_eq, quiet, unheard⟩ := extendAll_onto (Buffer.keeps_cutAt limit flushFails)
        view observers report.counted (received ++ (report.nextText view).toUTF8) surroundings
      rw [ByteArray.append_assoc] at report_eq
      rw [if_pos rfl]
      dsimp only
      rw [report_eq]
      refine ⟨⟨rfl, quiet, unheard⟩, fun flushes => ?_⟩
      subst flushes
      exact failsBeyond_ok limit _
  | false =>
      have lt := Buffer.lt_of_not_hasRoom room
      have full : Buffer.cutAt limit flushFails
            (received ++ report.violationBytes view observers) =
          .cutAt limit flushFails (received ++ (report.nextText view).toUTF8) := by
        rw [violationBytes, ← ByteArray.append_assoc]
        exact Buffer.cutAt_append_of_le (Nat.le_of_lt lt) _
      rw [if_neg Bool.false_ne_true]
      refine ⟨⟨congrArg report.counted.onto full.symm, rfl, rfl⟩, fun _ => ?_⟩
      rw [violationBytes, ← ByteArray.append_assoc]
      refine FailsBeyond.append (fun cause failed => ?_) _
      cases failed
      exact ⟨rfl, lt⟩

def fresh (report : Report) : Report := { report with errorCount := 0, lastErrorId := "" }

theorem finish_onto (report : Report) (buffer : Buffer) (summary : Summary)
    (surroundings : Surroundings) :
    (report.onto buffer).finish summary surroundings =
      ⟨match (buffer.write (finishText summary)).1 with
        | .error cause => .error cause
        | .ok () => (buffer.write (finishText summary)).2.flush,
        report.onto (buffer.write (finishText summary)).2, surroundings⟩ := by
  cases result : (buffer.write (finishText summary)).1 <;>
    simp [finish, onto, Channel.writeOut, Channel.write, Channel.flush, after, result]

/-- The results take up bytes. -/
theorem finishText_nonempty (summary : Summary) :
    (finishText summary).toUTF8.isEmpty = false := by
  have last : 0 < (heading "search finished").utf8ByteSize := by decide
  have positive : 0 < (finishText summary).utf8ByteSize := by
    rw [finishText, String.utf8ByteSize_append]
    exact Nat.lt_add_left _ last
  exact beq_false_of_ne (Nat.ne_of_gt positive)

theorem start_onto (report : Report) (buffer : Buffer) (target : String)
    (surroundings : Surroundings) :
    (report.onto buffer).start target surroundings =
      ⟨(buffer.write (startText target)).1,
        report.fresh.onto (buffer.write (startText target)).2, surroundings⟩ :=
  rfl

end Report

end ChoiceExplorer
