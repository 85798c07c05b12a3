import ChoiceExplorer.Host.Audience

/-!
# Warnings apart

What an output operation does depends on nothing that has been warned of before.  So it
makes no difference to it if earlier warnings are changed, as long as what it warns of
itself is kept.
-/

namespace ChoiceExplorer

open Output (Channel Surroundings Written)
open Search (Summary View)
open Trace (Tracer)

/-- A change of warnings that keeps one if it is given later. -/
def Warning.KeptBy (change : List Warning → List Warning) (warning : Warning) : Prop :=
  ∀ earlier, change (earlier ++ [warning]) = change earlier ++ [warning]

variable {change : List Warning → List Warning}

namespace Output

/-- The surroundings with other warnings. -/
def Surroundings.rewarned (change : List Warning → List Warning) (surroundings : Surroundings) :
    Surroundings :=
  { surroundings with warnings := change surroundings.warnings }

def Written.rewarned (change : List Warning → List Warning) (written : Written) : Written :=
  { written with surroundings := written.surroundings.rewarned change }

theorem Surroundings.warn_rewarned {warning : Warning} (kept : warning.KeptBy change)
    (surroundings : Surroundings) :
    (surroundings.rewarned change).warn [warning] =
      (surroundings.warn [warning]).rewarned change := by
  simp only [warn, rewarned, kept surroundings.warnings]

theorem Channel.write_rewarned (channel : Channel) (text : String) (surroundings : Surroundings) :
    channel.write text (surroundings.rewarned change) =
      (channel.write text surroundings).rewarned change := by
  cases channel <;> rfl

theorem Channel.writeOut_rewarned (channel : Channel) (text : String)
    (surroundings : Surroundings) :
    channel.writeOut text (surroundings.rewarned change) =
      (channel.writeOut text surroundings).rewarned change := by
  rw [writeOut, writeOut, write_rewarned]
  cases result : (channel.write text surroundings).result <;> simp [Written.rewarned, result]

end Output

section

variable (kept : ∀ cause, (Warning.traceNotWritten cause).KeptBy change)

include kept

theorem Trace.Tracer.trace_rewarned (tracer : Tracer) (view : View) (surroundings : Surroundings) :
    tracer.trace view (surroundings.rewarned change) =
      ((tracer.trace view surroundings).1,
        (tracer.trace view surroundings).2.rewarned change) := by
  cases owned : tracer.outlet with
  | none => simp [trace, owned]
  | some outlet =>
      simp only [trace, owned, Channel.writeOut_rewarned]
      cases result : (outlet.channel.writeOut (tracer.traceText view) surroundings).result with
      | ok => simp [Written.rewarned, result]
      | error cause => simp [Written.rewarned, result, Surroundings.warn_rewarned (kept cause)]

theorem Observer.violated_rewarned (observer : Observer) (view : View)
    (surroundings : Surroundings) :
    observer.violated view (surroundings.rewarned change) =
      ((observer.violated view surroundings).1,
        (observer.violated view surroundings).2.rewarned change) := by
  cases observer with
  | tracer owned => simp only [violated, owned.trace_rewarned kept]
  | recorder name => rfl
  | silent => rfl

theorem Audience.tellViolated_rewarned (view : View) (attached : List Attached)
    (surroundings : Surroundings) :
    tellViolated view attached (surroundings.rewarned change) =
      ((tellViolated view attached surroundings).1,
        (tellViolated view attached surroundings).2.rewarned change) := by
  induction attached generalizing surroundings with
  | nil => rfl
  | cons member rest ih =>
      simp only [tellViolated, member.observer.violated_rewarned kept, ih]

end

namespace Report

def Step.rewarned (change : List Warning → List Warning) (step : Step) : Step :=
  { step with surroundings := step.surroundings.rewarned change }

def Extended.rewarned (change : List Warning → List Warning) (extended : Extended) : Extended :=
  { extended with surroundings := extended.surroundings.rewarned change }

theorem write_rewarned (report : Report) (text : String) (surroundings : Surroundings) :
    report.write text (surroundings.rewarned change) =
      (report.write text surroundings).rewarned change := by
  rw [write, write, Channel.write_rewarned]
  rfl

theorem start_rewarned (report : Report) (target : String) (surroundings : Surroundings) :
    report.start target (surroundings.rewarned change) =
      (report.start target surroundings).rewarned change :=
  write_rewarned ..

theorem beginViolation_rewarned (report : Report) (view : View) (surroundings : Surroundings) :
    report.beginViolation view (surroundings.rewarned change) =
      (report.beginViolation view surroundings).rewarned change :=
  write_rewarned ..

theorem finish_rewarned (report : Report) (summary : Summary) (surroundings : Surroundings) :
    report.finish summary (surroundings.rewarned change) =
      (report.finish summary surroundings).rewarned change := by
  rw [finish, finish, Channel.writeOut_rewarned]
  rfl

section

variable (kept : ∀ cause, (Warning.traceNotPublished cause).KeptBy change)

include kept

theorem extend_rewarned (report : Report) (observer : Observer) (view : View)
    (surroundings : Surroundings) :
    report.extend observer view (surroundings.rewarned change) =
      (report.extend observer view surroundings).rewarned change := by
  unfold extend
  split
  · rfl
  · rename_i text _
    simp only [write_rewarned, Step.rewarned, Extended.rewarned]
    cases observer with
    | recorder name => simp only [Observer.sectionWarnings, Surroundings.warn_nil]
    | silent => simp only [Observer.sectionWarnings, Surroundings.warn_nil]
    | tracer owned =>
        cases (report.write text surroundings).result with
        | ok => simp only [Observer.sectionWarnings, Surroundings.warn_nil]
        | error cause =>
            simp only [Observer.sectionWarnings, Surroundings.warn_rewarned (kept cause)]

theorem extendAll_rewarned (view : View) (observers : List Observer) (report : Report)
    (surroundings : Surroundings) :
    extendAll view observers report (surroundings.rewarned change) =
      (extendAll view observers report surroundings).rewarned change := by
  induction observers generalizing report surroundings with
  | nil => rfl
  | cons observer rest ih =>
      simp only [extendAll, extend_rewarned kept, Extended.rewarned, ih]

theorem violation_rewarned (report : Report) (observers : List Observer) (view : View)
    (surroundings : Surroundings) :
    report.violation observers view (surroundings.rewarned change) =
      ((report.violation observers view surroundings).1.rewarned change,
        (report.violation observers view surroundings).2) := by
  simp only [violation, beginViolation_rewarned, Step.rewarned]
  split
  · rfl
  · simp only [extendAll_rewarned kept, Extended.rewarned]

end

end Report

end ChoiceExplorer
