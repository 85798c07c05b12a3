import ChoiceExplorer.Proofs.Callbacks
import ChoiceExplorer.Proofs.ReliableChannels

/-!
# Reliable reports

What an audience does depends on what its observers are to it, and on whether its report
fails.  Observers stay what they are, whatever is done.  If the report never fails then all
that an audience does follows from what it hears.
-/

namespace ChoiceExplorer

open Output (Surroundings)
open Search (Notice View)

/-- What an observer is to a host. -/
structure Role where
  extension : Bool
  events : Occasion → View → List Event
  adds : String → View → Option String

def Attached.role (member : Attached) : Role :=
  ⟨member.extension, member.observer.events, member.observer.section?⟩

/-- Telling an observer of a violation changes neither what it notes down nor what it adds. -/
theorem Observer.violated_same (observer : Observer) (view : View) (surroundings : Surroundings) :
    (observer.violated view surroundings).1.events = observer.events ∧
      (observer.violated view surroundings).1.section? = observer.section? := by
  cases observer with
  | recorder name => exact ⟨rfl, rfl⟩
  | silent => exact ⟨rfl, rfl⟩
  | tracer owned =>
      obtain ⟨options, outlet⟩ := owned
      cases outlet with
      | none => exact ⟨rfl, rfl⟩
      | some outlet =>
          simp only [violated, Trace.Tracer.trace]
          split <;> exact ⟨rfl, rfl⟩

section

variable {first second : List Attached} (same : first.map Attached.role = second.map Attached.role)

include same

theorem getElem?_role (place : Nat) :
    first[place]?.map Attached.role = second[place]?.map Attached.role := by
  rw [← List.getElem?_map, same, List.getElem?_map]

theorem length_eq_of_roles : first.length = second.length := by
  simpa using congrArg List.length same

theorem callAll_of_roles (occasion : Occasion) (view : View) :
    callAll occasion view first = callAll occasion view second := by
  rw [callAll, callAll, length_eq_of_roles same]

theorem callExtensions_of_roles (view : View) :
    callExtensions view first = callExtensions view second := by
  have extends_eq (place : Nat) :
      first[place]?.any Attached.extension = second[place]?.any Attached.extension := by
    have roles := getElem?_role same place
    cases here : first[place]? <;> cases there : second[place]? <;>
      simp [here, there, Attached.role] at roles ⊢
    exact roles.1
  simp only [callExtensions, length_eq_of_roles same, extends_eq]

end

namespace Report

variable {report : Report} {surroundings : Surroundings}

/-- An observer that is asked for its section notes this down when it has been written. -/
theorem extend_reliable (reliable : report.channel.Reliable surroundings) (observer : Observer)
    (view : View) :
    let extended := report.extend observer view surroundings
    extended.report.channel.Reliable extended.surroundings ∧
      extended.events = observer.events .published view := by
  dsimp only [extend]
  cases added : observer.section? report.lastErrorId view with
  | none =>
      refine ⟨reliable, ?_⟩
      cases observer with
      | tracer owned => rfl
      | recorder name => cases added
      | silent => rfl
  | some text =>
      obtain ⟨written, stays⟩ := reliable.write text
      refine ⟨stays.of_limit_eq rfl, ?_⟩
      dsimp only
      rw [show (report.write text surroundings).result = .ok () from written]
      rfl

/-- The section of a violation is written. -/
theorem beginViolation_reliable (reliable : report.channel.Reliable surroundings) (view : View) :
    (report.beginViolation view surroundings).result = .ok () :=
  (reliable.write _).1

end Report

namespace Audience

variable {audience : Audience}

def Reliable (audience : Audience) : Prop :=
  audience.report.channel.Reliable audience.surroundings

/-- Whatever is done, the observers keep their roles. -/
theorem roles_act (audience : Audience) (act : Act) :
    (audience.act act).attached.map Attached.role = audience.attached.map Attached.role := by
  cases act with
  | openReport target => simp [Audience.act, reported_eq]
  | beginSection view => simp [Audience.act, reported_eq]
  | flush => simp [Audience.act, noteFailure_eq]
  | call callback =>
      simp only [Audience.act, call]
      cases there : audience.attached[callback.place]? with
      | none => rfl
      | some member =>
          cases occasion : callback.occasion with
          | violated =>
              obtain ⟨within, rfl⟩ := List.getElem?_eq_some_iff.mp there
              let changed := { audience.attached[callback.place] with
                observer := (audience.attached[callback.place].observer.violated callback.view
                  audience.surroundings).1 }
              have mapped : callback.place < (audience.attached.map Attached.role).length := by
                rwa [List.length_map]
              have role_eq :
                  changed.role = (audience.attached.map Attached.role)[callback.place] := by
                simp [changed, Attached.role, Observer.violated_same]
              dsimp only
              rw [List.map_set, role_eq, List.set_getElem_self]
          | started | finished | published | publishFailed => rfl

theorem Reliable.act (reliable : audience.Reliable) (act : Act) : (audience.act act).Reliable := by
  cases act with
  | openReport target =>
      rw [Audience.act, reported_eq]
      exact (Output.Channel.Reliable.write reliable _).2
  | beginSection view =>
      rw [Audience.act, reported_eq]
      exact (Output.Channel.Reliable.write reliable _).2
  | flush =>
      rw [Audience.act, noteFailure_eq]
      exact reliable
  | call callback =>
      simp only [Audience.act, call]
      cases audience.attached[callback.place]? with
      | none => exact reliable
      | some member =>
          cases callback.occasion with
          | violated =>
              exact Output.Channel.Reliable.of_limit_eq reliable
                (member.observer.violated_limit _ _)
          | published => exact (Report.extend_reliable reliable member.observer _).1
          | started | finished | publishFailed => exact reliable

theorem roles_foldl_act (audience : Audience) (acts : List Act) :
    (acts.foldl act audience).attached.map Attached.role = audience.attached.map Attached.role := by
  induction acts generalizing audience with
  | nil => rfl
  | cons act rest ih => rw [List.foldl_cons, ih, roles_act]

theorem Reliable.foldl_act (reliable : audience.Reliable) (acts : List Act) :
    (acts.foldl Audience.act audience).Reliable := by
  induction acts generalizing audience with
  | nil => exact reliable
  | cons act rest ih => exact ih (reliable.act act)

/-- What an audience does when it hears something, if its report never fails. -/
def script (attached : List Attached) : Notice → List Act
  | .started view => .openReport view.target :: (callAll .started view attached).map .call
  | .violated view =>
      (callAll .violated view attached).map .call ++
        .beginSection view :: ((callExtensions view attached).map .call ++ [.flush])
  | .finished view => (callAll .finished view attached).map .call

theorem script_of_roles {first second : List Attached}
    (same : first.map Attached.role = second.map Attached.role) :
    script first = script second := by
  funext notice
  cases notice with
  | started view => rw [script, script, callAll_of_roles same]
  | violated view => rw [script, script, callAll_of_roles same, callExtensions_of_roles same]
  | finished view => rw [script, script, callAll_of_roles same]

theorem actsOf_eq_script (reliable : audience.Reliable) (notice : Notice) :
    audience.actsOf notice = script audience.attached notice := by
  cases notice with
  | started view => rfl
  | finished view => rfl
  | violated view =>
      let calls := (callAll .violated view audience.attached).map Act.call
      have section_written := Report.beginViolation_reliable (reliable.foldl_act calls) view
      have same := callExtensions_of_roles (audience.roles_foldl_act calls) view
      simp only [actsOf, sectionActs, script]
      rw [section_written, same]

/-- If the report never fails, what an audience does follows from what it hears. -/
theorem acts_eq_script (reliable : audience.Reliable) (notices : List Notice) :
    audience.acts notices = notices.flatMap (script audience.attached) := by
  induction notices generalizing audience with
  | nil => rfl
  | cons notice rest ih =>
      have heard := audience.hear_eq_foldl_act notice
      have heard_reliable : (audience.hear notice).Reliable := heard ▸ reliable.foldl_act _
      have same : script (audience.hear notice).attached = script audience.attached :=
        script_of_roles (heard ▸ audience.roles_foldl_act _)
      rw [acts, actsOf_eq_script reliable, ih heard_reliable, same, List.flatMap_cons]

end Audience

end ChoiceExplorer
