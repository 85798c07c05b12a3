import ChoiceExplorer.Proofs.CutBuffers
import ChoiceExplorer.Proofs.Notices
import ChoiceExplorer.Proofs.PrintedLines
import ChoiceExplorer.Proofs.WarningsApart

/-!
# Trace sinks

A tracer that owns its writer is set among other observers.  Whatever becomes of the traces
is seen in the writer and in the warnings about it.  All else that an audience does is the
same for every writer.
-/

namespace ChoiceExplorer

open Output (Buffer Channel Failure Surroundings)
open Search (Notice View)
open Trace (Tracer)

/-- A writer of traces, by what it has received: what it holds, and how it has failed last. -/
structure Sink where
  holding : ByteArray → Buffer
  failure? : ByteArray → Option Failure
  writeOut_eq : ∀ received text surroundings, text.toUTF8.isEmpty = false →
    (Channel.buffer (holding received)).writeOut text surroundings =
      ⟨match failure? (received ++ text.toUTF8) with
        | some cause => .error cause
        | none => .ok (),
        .buffer (holding (received ++ text.toUTF8)), surroundings⟩

namespace Sink

def whole : Sink where
  holding := .whole
  failure? _ := none
  writeOut_eq received text surroundings _ := by
    simp only [Channel.writeOut, Channel.write, Buffer.write_whole]
    rfl

/-- A writer that accepts bytes up to a limit; flushing it may fail. -/
def cutAt (limit : Nat) (flushFails : Bool) : Sink where
  holding := .cutAt limit flushFails
  failure? received :=
    if limit < received.size then some .full else if flushFails then some .flush else none
  writeOut_eq received text surroundings nonempty := by
    simp only [Channel.writeOut, Channel.write, Buffer.write_cutAt, Buffer.hasRoom, nonempty,
      Bool.false_or]
    by_cases beyond : limit < (received ++ text.toUTF8).size
    · rw [decide_eq_false (Nat.not_le_of_lt beyond), if_pos beyond, if_neg Bool.false_ne_true]
    · rw [decide_eq_true (Nat.le_of_not_lt beyond), if_neg beyond]
      cases flushFails <;> rfl

def tracer (sink : Sink) (options : Trace.Options) (received : ByteArray) : Tracer :=
  ⟨options, some (.ofBuffer (sink.holding received))⟩

def warnings (sink : Sink) (received : ByteArray) : List Warning :=
  (sink.failure? received).toList.map .traceNotWritten

end Sink

def warningsFor (warnings : ByteArray → List Warning) (received : ByteArray) :
    List String → List (List Warning)
  | [] => []
  | text :: rest =>
      warnings (received ++ text.toUTF8) :: warningsFor warnings (received ++ text.toUTF8) rest

section

variable (warnings : ByteArray → List Warning) (received : ByteArray)

theorem length_warningsFor (texts : List String) :
    (warningsFor warnings received texts).length = texts.length := by
  induction texts generalizing received with
  | nil => rfl
  | cons text rest ih => exact congrArg (· + 1) (ih _)

theorem warningsFor_append (first second : List String) :
    warningsFor warnings received (first ++ second) =
      warningsFor warnings received first ++
        warningsFor warnings (received ++ Buffer.bytesOf first) second := by
  induction first generalizing received with
  | nil => simp [warningsFor, Buffer.bytesOf_nil]
  | cons text rest ih =>
      rw [List.cons_append, warningsFor, warningsFor, ih, Buffer.bytesOf_cons,
        ByteArray.append_assoc]
      rfl

/-- Whether there is a warning about a trace depends on all that was received with it. -/
theorem getElem?_warningsFor {texts : List String} {place : Nat} (within : place < texts.length) :
    (warningsFor warnings received texts)[place]? =
      some (warnings (received ++ Buffer.bytesOf (texts.take (place + 1)))) := by
  induction texts generalizing received place with
  | nil => cases within
  | cons text rest ih =>
      cases place with
      | zero => simp [warningsFor, Buffer.bytesOf]
      | succ place =>
          rw [warningsFor, List.getElem?_cons_succ, ih _ (Nat.lt_of_succ_lt_succ within),
            List.take_succ_cons, Buffer.bytesOf_cons, ByteArray.append_assoc]

end

def Sink.warningsOf (sink : Sink) : ByteArray → List String → List (List Warning) :=
  warningsFor sink.warnings

/-- Warnings of others, and after each part of them what is warned of in its turn. -/
def woven (others own : List (List Warning)) : List Warning :=
  (List.zipWith (· ++ ·) others own).flatten

theorem woven_append {first second own next : List (List Warning)}
    (same_length : first.length = own.length) :
    woven (first ++ second) (own ++ next) = woven first own ++ woven second next := by
  rw [woven, List.zipWith_append same_length, List.flatten_append]
  rfl

/-- A trace has marks at least. -/
theorem Trace.Tracer.traceText_nonempty (tracer : Tracer) (view : View) :
    (tracer.traceText view).toUTF8.isEmpty = false := by
  have not_empty : tracer.traceText view ≠ "" := by
    unfold traceText
    simp
  refine beq_false_of_ne fun empty => not_empty ?_
  exact String.utf8ByteSize_eq_zero_iff.mp empty

namespace Trace.Options

def traceOf (options : Options) (view : View) : String :=
  printed (traceLines view.target options.allowed (options.lines view.stack.toList))

def tracesOf (options : Options) (views : List View) : List String := views.map options.traceOf

end Trace.Options

/-- A trace goes to the sink, and there is a warning if that fails. -/
theorem Sink.trace_tracer (sink : Sink) (options : Trace.Options) (received : ByteArray)
    (view : View) (surroundings : Surroundings) :
    let more := (options.traceOf view).toUTF8
    (sink.tracer options received).trace view surroundings =
      (sink.tracer options (received ++ more),
        surroundings.warn (sink.warnings (received ++ more))) := by
  have text_eq : options.traceOf view = (sink.tracer options received).traceText view :=
    (Tracer.traceText_eq options view).symm
  have nonempty := (sink.tracer options received).traceText_nonempty view
  have written := sink.writeOut_eq received _ surroundings nonempty
  rw [text_eq]
  dsimp only [Tracer.trace, tracer, Trace.Outlet.ofBuffer] at written ⊢
  rw [written]
  simp only [warnings]
  cases sink.failure? _ with
  | none => exact congrArg _ surroundings.warn_nil.symm
  | some cause => rfl

/--
An observer that takes no part in the report and notes nothing down, by the traces of the
violations that it has been told of, and what is warned of when it is told of another one.
-/
structure Receiver (options : Trace.Options) where
  observer : ByteArray → Observer
  warnings : ByteArray → List Warning
  violated_eq : ∀ received view surroundings,
    let more := received ++ (options.traceOf view).toUTF8
    (observer received).violated view surroundings =
      (observer more, surroundings.warn (warnings more))
  unheard : ∀ received occasion view, (observer received).events occasion view = []
  silent : ∀ received errorId view, (observer received).section? errorId view = none

namespace Receiver

variable {options : Trace.Options}

def attached (receiver : Receiver options) (extension : Bool) (received : ByteArray) : Attached :=
  ⟨receiver.observer received, extension⟩

def ofSink (options : Trace.Options) (sink : Sink) : Receiver options where
  observer received := .tracer (sink.tracer options received)
  warnings := sink.warnings
  violated_eq received view surroundings := by
    simp only [Observer.violated, sink.trace_tracer]
  unheard _ _ _ := rfl
  silent _ _ _ := rfl

def idle (options : Trace.Options) : Receiver options where
  observer _ := .silent
  warnings _ := []
  violated_eq _ _ surroundings := congrArg _ surroundings.warn_nil.symm
  unheard _ _ _ := rfl
  silent _ _ _ := rfl

end Receiver

/--
An operation that goes on in the same way for every receiver.  It leads from one setting of the
receiver to another, and traces violations.  Of the warnings only those about the traces depend
on the receiver.
-/
def ForEveryReceiver {α β : Type} (options : Trace.Options) (extension : Bool)
    (received : ByteArray) (texts : List String) (operation : α → β)
    (before : Attached → List Warning → α) (after : Attached → List Warning → β) : Prop :=
  ∃ others : List (List Warning), others.length = texts.length ∧
    ∀ (receiver : Receiver options) (warned : List Warning),
      operation (before (receiver.attached extension received) warned) =
        after (receiver.attached extension (received ++ Buffer.bytesOf texts))
          (warned ++ woven others (warningsFor receiver.warnings received texts))

namespace ForEveryReceiver

variable {α β γ : Type} {options : Trace.Options} {extension : Bool} {received : ByteArray}
  {texts more : List String}

/-- What goes on so without traces. -/
theorem of_untraced {operation : α → β} {before : Attached → List Warning → α}
    {after : Attached → List Warning → β}
    (same : ∀ (receiver : Receiver options) (warned : List Warning),
      operation (before (receiver.attached extension received) warned) =
        after (receiver.attached extension received) warned) :
    ForEveryReceiver options extension received [] operation before after := by
  refine ⟨[], rfl, fun receiver warned => ?_⟩
  rw [Buffer.bytesOf_nil, ByteArray.append_empty,
    show woven [] _ = [] from rfl, List.append_nil]
  exact same receiver warned

/-- One operation after another goes on in the same way, and traces what both trace. -/
theorem comp {first : α → β} {second : β → γ} {before : Attached → List Warning → α}
    {between : Attached → List Warning → β} {after : Attached → List Warning → γ}
    (begins : ForEveryReceiver options extension received texts first before between)
    (goes_on : ForEveryReceiver options extension (received ++ Buffer.bytesOf texts) more second
      between after) :
    ForEveryReceiver options extension received (texts ++ more) (fun start => second (first start))
      before after := by
  obtain ⟨others, others_length, first_eq⟩ := begins
  obtain ⟨further, further_length, second_eq⟩ := goes_on
  refine ⟨others ++ further, by simp [others_length, further_length],
    fun receiver warned => ?_⟩
  have same_length : others.length = (warningsFor receiver.warnings received texts).length :=
    others_length.trans (length_warningsFor ..).symm
  dsimp only
  rw [first_eq, second_eq, Buffer.bytesOf_append, warningsFor_append, woven_append same_length,
    ByteArray.append_assoc, List.append_assoc]

end ForEveryReceiver

/-- Earlier warnings stay before later ones. -/
theorem Warning.keptBy_prepend (earlier : List Warning) (warning : Warning) :
    warning.KeptBy (earlier ++ ·) :=
  fun later => (List.append_assoc earlier later [warning]).symm

namespace Report

/-- An observer without a section makes no difference to the sections of others. -/
theorem extendAll_skip {observer : Observer}
    (silent : ∀ errorId view, observer.section? errorId view = none) (view : View)
    (before after : List Observer) (report : Report) (surroundings : Surroundings) :
    extendAll view (before ++ observer :: after) report surroundings =
      extendAll view (before ++ after) report surroundings := by
  induction before generalizing report surroundings with
  | nil => simp [extendAll, extend, silent]
  | cons first rest ih => simp only [List.cons_append, extendAll, ih]

theorem violation_skip {member : Attached}
    (silent : ∀ errorId view, member.observer.section? errorId view = none)
    (earlier later : List Attached) (report : Report) (view : View) (surroundings : Surroundings) :
    report.violation
        (((earlier ++ member :: later).filter Attached.extension).map Attached.observer) view
        surroundings =
      report.violation (((earlier ++ later).filter Attached.extension).map Attached.observer) view
        surroundings := by
  rw [List.filter_append, List.filter_append, List.filter_cons, List.map_append, List.map_append]
  split
  · rw [List.map_cons]
    simp only [violation, extendAll_skip silent]
  · rfl

end Report

namespace Audience

theorem tellViolated_append (view : View) (first second : List Attached)
    (surroundings : Surroundings) :
    let told := tellViolated view first surroundings
    let rest := tellViolated view second told.2
    tellViolated view (first ++ second) surroundings = (told.1 ++ rest.1, rest.2) := by
  induction first generalizing surroundings with
  | nil => rfl
  | cons member rest ih => simp only [List.cons_append, tellViolated, ih]

/-- What is left of a violation when its observers have been told and it has been reported. -/
theorem violated_eq {audience : Audience} {view : View} {attached : List Attached}
    {surroundings : Surroundings} {reported : Report.Step × List Event}
    (told_eq : tellViolated view audience.attached audience.surroundings =
      (attached, surroundings))
    (reported_eq : audience.report.violation
      ((attached.filter Attached.extension).map Attached.observer) view surroundings = reported) :
    audience.violated view =
      { audience.noteFailure reported.1.result with
        attached
        report := reported.1.report
        surroundings := reported.1.surroundings
        events := audience.events ++ audience.eventsOf .violated view ++ reported.2 } := by
  subst reported_eq
  dsimp only [violated]
  rw [told_eq]
  dsimp only [extensions, noteFailure]
  split <;> rfl

def joined (audience : Audience) (earlier later : List Attached) (member : Attached)
    (warned : List Warning) : Audience :=
  { audience with
    attached := earlier ++ member :: later
    surroundings := audience.surroundings.rewarned (warned ++ ·) }

section

variable (options : Trace.Options) (extension : Bool) (audience : Audience)
  (earlier later : List Attached) (received : ByteArray) (view : View)

/-- Others are told of a violation as if there were no receiver between them. -/
theorem tellViolated_joined :
    let more := (options.traceOf view).toUTF8
    let told := tellViolated view earlier audience.surroundings
    let rest := tellViolated view later (told.2.rewarned fun _ => [])
    ∀ (receiver : Receiver options) (warned : List Warning),
      let before := audience.joined earlier later (receiver.attached extension received) warned
      tellViolated view before.attached before.surroundings =
        (told.1 ++ receiver.attached extension (received ++ more) :: rest.1,
          rest.2.rewarned
            (warned ++ (told.2.warnings ++ receiver.warnings (received ++ more)) ++ ·)) := by
  intro more told rest receiver warned before
  have kept (earlier : List Warning) (cause : Failure) :=
    Warning.keptBy_prepend earlier (.traceNotWritten cause)
  -- Observers behind the receiver are told as if there were no warnings yet.
  have warned_eq : ((told.2.rewarned (warned ++ ·)).warn (receiver.warnings (received ++ more))) =
      (told.2.rewarned fun _ => []).rewarned
        (warned ++ (told.2.warnings ++ receiver.warnings (received ++ more)) ++ ·) := by
    simp [Surroundings.warn, Surroundings.rewarned]
  simp only [before, joined, Receiver.attached]
  rw [tellViolated_append, tellViolated_rewarned (kept warned)]
  simp only [tellViolated, receiver.violated_eq]
  rw [show (told.2.rewarned _).warn _ = _ from warned_eq, tellViolated_rewarned (kept _)]

/-- The receiver notes nothing down. -/
theorem eventsOf_joined (receiver : Receiver options) (warned : List Warning)
    (occasion : Occasion) :
    (audience.joined earlier later (receiver.attached extension received) warned).eventsOf
        occasion view =
      (earlier ++ later).flatMap fun member => member.observer.events occasion view := by
  simp [eventsOf, joined, Receiver.attached, receiver.unheard]

theorem noteFailure_joined (member : Attached) (warned : List Warning)
    (result : Except Failure Unit) :
    (audience.joined earlier later member warned).noteFailure result =
      (audience.noteFailure result).joined earlier later member warned := by
  cases audience with
  | mk attached report surroundings events failure =>
      cases result <;> cases failure <;> rfl

theorem started_joined :
    ∃ next : Audience, ForEveryReceiver options extension received [] (·.started view)
      (audience.joined earlier later) (next.joined earlier later) := by
  let step := audience.report.start view.target audience.surroundings
  let events := (earlier ++ later).flatMap fun member => member.observer.events .started view
  refine ⟨{ audience.noteFailure step.result with
    report := step.report
    surroundings := step.surroundings
    events := audience.events ++ events }, .of_untraced fun receiver warned => ?_⟩
  have opened : (audience.joined earlier later (receiver.attached extension received)
      warned).report.start view.target (audience.joined earlier later
        (receiver.attached extension received) warned).surroundings =
      step.rewarned (warned ++ ·) :=
    audience.report.start_rewarned view.target audience.surroundings
  simp only [started, eventsOf_joined, opened]
  rw [noteFailure_joined]
  rfl

theorem finished_joined :
    ∃ next : Audience, ForEveryReceiver options extension received [] (·.finished view)
      (audience.joined earlier later) (next.joined earlier later) := by
  let events := (earlier ++ later).flatMap fun member => member.observer.events .finished view
  refine ⟨{ audience with events := audience.events ++ events },
    .of_untraced fun receiver warned => ?_⟩
  simp only [finished, eventsOf_joined]
  rfl

theorem violated_joined :
    ∃ (next : Audience) (earlier' later' : List Attached),
      ForEveryReceiver options extension received [options.traceOf view]
        (·.violated view) (audience.joined earlier later) (next.joined earlier' later') := by
  let more := (options.traceOf view).toUTF8
  let told := tellViolated view earlier audience.surroundings
  let rest := tellViolated view later (told.2.rewarned fun _ => [])
  let observers := ((told.1 ++ rest.1).filter Attached.extension).map Attached.observer
  let reported := audience.report.violation observers view rest.2
  let events := (earlier ++ later).flatMap fun member => member.observer.events .violated view
  refine ⟨{ audience.noteFailure reported.1.result with
    report := reported.1.report
    surroundings := reported.1.surroundings
    events := audience.events ++ events ++ reported.2 }, told.1, rest.1, [told.2.warnings], rfl,
    fun receiver warned => ?_⟩
  have bytes_eq : Buffer.bytesOf [options.traceOf view] = more := by
    simp [Buffer.bytesOf, more]
  have woven_eq : woven [told.2.warnings]
      (warningsFor receiver.warnings received [options.traceOf view]) =
        told.2.warnings ++ receiver.warnings (received ++ more) := by
    simp [woven, warningsFor, more]
  have told_eq := tellViolated_joined options extension audience earlier later received view
    receiver warned
  -- The report asks the others only, since a receiver has no section.
  have silent : ∀ errorId view, (receiver.attached extension
      (received ++ more)).observer.section? errorId view = none := receiver.silent _
  have kept (cause : Failure) :=
    Warning.keptBy_prepend (warned ++ (told.2.warnings ++ receiver.warnings (received ++ more)))
      (.traceNotPublished cause)
  have reported_eq := (Report.violation_skip silent told.1 rest.1 audience.report view _).trans
    (Report.violation_rewarned kept audience.report observers view rest.2)
  rw [bytes_eq, woven_eq]
  refine (violated_eq told_eq reported_eq).trans ?_
  rw [eventsOf_joined, noteFailure_joined]
  rfl

/-- Hearing something goes on in the same way for every receiver. -/
theorem hear_joined (notice : Notice) :
    ∃ (next : Audience) (earlier' later' : List Attached),
      ForEveryReceiver options extension received (options.tracesOf notice.violation?.toList)
        (·.hear notice) (audience.joined earlier later) (next.joined earlier' later') := by
  cases notice with
  | started view =>
      obtain ⟨next, same⟩ := started_joined options extension audience earlier later received view
      exact ⟨next, earlier, later, same⟩
  | violated view => exact violated_joined options extension audience earlier later received view
  | finished view =>
      obtain ⟨next, same⟩ := finished_joined options extension audience earlier later received view
      exact ⟨next, earlier, later, same⟩

/-- Whatever is heard, it goes on in the same way for every receiver. -/
theorem foldl_hear_joined (notices : List Notice) :
    ∃ (next : Audience) (earlier' later' : List Attached),
      ForEveryReceiver options extension received
        (options.tracesOf (notices.filterMap Notice.violation?))
        (fun audience => notices.foldl hear audience) (audience.joined earlier later)
        (next.joined earlier' later') := by
  induction notices generalizing audience earlier later received with
  | nil => exact ⟨audience, earlier, later, .of_untraced fun _ _ => rfl⟩
  | cons notice rest ih =>
      obtain ⟨next, earlier', later', begins⟩ :=
        hear_joined options extension audience earlier later received notice
      obtain ⟨last, earlier', later', goes_on⟩ := ih next earlier' later'
        (received ++ Buffer.bytesOf (options.tracesOf notice.violation?.toList))
      refine ⟨last, earlier', later', ?_⟩
      have texts_eq : options.tracesOf ((notice :: rest).filterMap Notice.violation?) =
          options.tracesOf notice.violation?.toList ++
            options.tracesOf (rest.filterMap Notice.violation?) := by
        cases notice <;> rfl
      rw [texts_eq]
      exact begins.comp goes_on

end

end Audience

end ChoiceExplorer
