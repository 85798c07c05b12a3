import ChoiceExplorer.Proofs.ErrorIds
import ChoiceExplorer.Proofs.OwnWriters
import ChoiceExplorer.Proofs.ReliableReports

/-!
# The texts of a report

An act of an audience lets the report write a text, or none.  If the numberings of search
and report agree, then the text follows from the act and from what the observers are.  A
writer that nobody shares receives these texts and nothing else.
-/

namespace ChoiceExplorer

open Output (Buffer Channel)

/-- A text of a report: one of its own, or a section that an observer adds. -/
inductive Passage where
  | own (text : String)
  | added (text : String)
  deriving DecidableEq

namespace Passage

def text : Passage → String
  | own text | added text => text

def isOwn : Passage → Bool
  | own _ => true
  | added _ => false

end Passage

/-- What the report writes in an act, if every section is about the violation that is seen. -/
def Act.passage? (attached : List Attached) : Act → Option Passage
  | openReport target => some (.own (Report.startText target))
  | beginSection view =>
      view.last?.map fun record => .own (Report.violationText record.id (some record))
  | call callback =>
      match callback.occasion with
      | .published =>
          callback.view.last?.bind fun record =>
            attached[callback.place]?.bind fun member =>
              (member.observer.section? record.id callback.view).map .added
      | _ => none
  | flush => none

namespace Audience

variable {audience : Audience}

def text? (audience : Audience) : Act → Option String
  | .openReport target => some (Report.startText target)
  | .beginSection view =>
      some (Report.violationText audience.report.counted.lastErrorId view.last?)
  | .call callback =>
      match callback.occasion with
      | .published =>
          audience.attached[callback.place]?.bind fun member =>
            member.observer.section? audience.report.lastErrorId callback.view
      | _ => none
  | .flush => none

def written (audience : Audience) : List Act → List String
  | [] => []
  | act :: rest => (audience.text? act).toList ++ (audience.act act).written rest

/-- What is written to the channel of the report in an act is this text. -/
theorem channel_act (audience : Audience) (act : Act) :
    (audience.act act).report.channel =
      match audience.text? act with
      | none => audience.report.channel
      | some text => (audience.report.channel.write text audience.surroundings).channel := by
  cases act with
  | openReport target =>
      rw [Audience.act, reported_eq]
      rfl
  | beginSection view =>
      rw [Audience.act, reported_eq]
      rfl
  | flush =>
      rw [Audience.act, noteFailure_eq]
      rfl
  | call callback =>
      simp only [Audience.act, call, text?]
      cases audience.attached[callback.place]? with
      | none => cases callback.occasion <;> rfl
      | some member =>
          cases callback.occasion with
          | published =>
              dsimp only [Option.bind_some, Report.extend]
              cases member.observer.section? audience.report.lastErrorId callback.view <;> rfl
          | started | violated | finished | publishFailed => rfl

/-- If the numberings agree then the text of an act follows from what the observers are. -/
theorem text?_of_agrees {attached : List Attached} {act : Act} (agrees : audience.Agrees act)
    (same : audience.attached.map Attached.role = attached.map Attached.role) :
    audience.text? act = (act.passage? attached).map Passage.text := by
  cases act with
  | openReport target => rfl
  | flush => rfl
  | beginSection view =>
      obtain ⟨record, seen, id_eq⟩ := agrees
      simp only [text?, Act.passage?, seen, id_eq]
      rfl
  | call callback =>
      cases occasion : callback.occasion with
      | started | violated | finished | publishFailed =>
          simp only [text?, Act.passage?, occasion]
          rfl
      | published =>
          obtain ⟨record, seen, id_eq⟩ := agrees occasion
          have roles := getElem?_role same callback.place
          simp only [text?, Act.passage?, occasion, seen, id_eq, Option.bind_some]
          cases here : audience.attached[callback.place]? <;>
            cases there : attached[callback.place]? <;>
            simp [here, there, Attached.role] at roles ⊢
          rw [roles.2.2]
          exact (congrFun Option.map_id _).symm

/-- The texts of acts along which the numberings agree. -/
theorem written_of_agreesAlong {attached : List Attached} {acts : List Act}
    (along : audience.AgreesAlong acts)
    (same : audience.attached.map Attached.role = attached.map Attached.role) :
    audience.written acts = (acts.filterMap (Act.passage? attached)).map Passage.text := by
  induction acts generalizing audience with
  | nil => rfl
  | cons act rest ih =>
      have later := ih along.2 ((audience.roles_act act).trans same)
      rw [written, later, text?_of_agrees along.1 same, List.filterMap_cons]
      cases act.passage? attached <;> rfl

/-- A report that never fails is not remembered to have failed. -/
theorem failure_act (reliable : audience.Reliable) (act : Act) :
    (audience.act act).failure = audience.failure := by
  cases act with
  | openReport target =>
      have written := Channel.Reliable.write reliable (Report.startText target)
      rw [Audience.act, reported_eq, show Report.Step.result _ = _ from written.1]
      simp [cause?]
  | beginSection view =>
      have written := Report.beginViolation_reliable reliable view
      rw [Audience.act, reported_eq, written]
      simp [cause?]
  | flush =>
      rw [Audience.act, noteFailure_eq, Channel.Reliable.flush reliable]
      simp [cause?]
  | call callback =>
      simp only [Audience.act, call]
      cases audience.attached[callback.place]? with
      | none => rfl
      | some member => cases callback.occasion <;> rfl

theorem failure_foldl_act (reliable : audience.Reliable) (acts : List Act) :
    (acts.foldl act audience).failure = audience.failure := by
  induction acts generalizing audience with
  | nil => rfl
  | cons act rest ih => rw [List.foldl_cons, ih (reliable.act act), failure_act reliable]

/-- An audience whose report has a writer that nobody else writes to. -/
structure Holds (audience : Audience) (received : ByteArray) : Prop where
  holds : audience.report.channel.Holds audience.surroundings received
  spares : ∀ member ∈ audience.attached, member.observer.Spares audience.report.channel.shared?

namespace Holds

variable {received : ByteArray}

/-- Observers that write elsewhere go on to do so. -/
theorem spares_act (holding : audience.Holds received) (act : Act) :
    ∀ member ∈ (audience.act act).attached,
      member.observer.Spares (audience.act act).report.channel.shared? := by
  have place_eq : (audience.act act).report.channel.shared? =
      audience.report.channel.shared? := by
    rw [channel_act]
    cases audience.text? act <;> simp
  rw [place_eq]
  cases act with
  | openReport target =>
      rw [Audience.act, reported_eq]
      exact holding.spares
  | beginSection view =>
      rw [Audience.act, reported_eq]
      exact holding.spares
  | flush =>
      rw [Audience.act, noteFailure_eq]
      exact holding.spares
  | call callback =>
      simp only [Audience.act, call]
      cases there : audience.attached[callback.place]? with
      | none => exact holding.spares
      | some called =>
          cases callback.occasion with
          | started | finished | published | publishFailed => exact holding.spares
          | violated =>
              intro member among
              rcases List.mem_or_eq_of_mem_set among with other | rfl
              · exact holding.spares member other
              · have spares := holding.spares called (List.mem_of_getElem? there)
                rwa [Observer.Spares, Observer.shared?_violated]

/-- The writer of the report receives the text of an act, and nothing else. -/
theorem act (holding : audience.Holds received) (act : Act) :
    (audience.act act).Holds (received ++ Buffer.bytesOf (audience.text? act).toList) := by
  refine ⟨?_, holding.spares_act act⟩
  have received_text (text : String) :
      received ++ text.toUTF8 = received ++ Buffer.bytesOf (some text).toList := by
    simp [Buffer.bytesOf]
  have received_none : received = received ++ Buffer.bytesOf (none : Option String).toList := by
    simp [Buffer.bytesOf_nil]
  cases act with
  | openReport target =>
      rw [Audience.act, reported_eq, text?, ← received_text]
      exact holding.holds.write _
  | beginSection view =>
      rw [Audience.act, reported_eq, text?, ← received_text]
      exact holding.holds.write _
  | flush =>
      rw [Audience.act, noteFailure_eq, text?, ← received_none]
      exact holding.holds
  | call callback =>
      simp only [Audience.act, call, text?]
      cases there : audience.attached[callback.place]? with
      | none =>
          cases callback.occasion <;>
            · rw [Option.bind_none, ← received_none]
              exact holding.holds
      | some called =>
          have spares := holding.spares called (List.mem_of_getElem? there)
          cases callback.occasion with
          | started | finished | publishFailed =>
              rw [← received_none]
              exact holding.holds
          | violated =>
              rw [← received_none]
              exact spares.holds holding.holds _
          | published =>
              dsimp only [Option.bind_some, Report.extend]
              cases added : called.observer.section? audience.report.lastErrorId callback.view with
              | none =>
                  rw [← received_none]
                  exact holding.holds
              | some text =>
                  rw [← received_text]
                  exact (holding.holds.write text).warn _

theorem foldl_act (holding : audience.Holds received) (acts : List Act) :
    (acts.foldl Audience.act audience).Holds
      (received ++ Buffer.bytesOf (audience.written acts)) := by
  induction acts generalizing audience received with
  | nil =>
      rw [written, Buffer.bytesOf_nil, ByteArray.append_empty]
      exact holding
  | cons act rest ih =>
      rw [written, Buffer.bytesOf_append, ← ByteArray.append_assoc]
      exact ih (holding.act act)

end Holds

end Audience

end ChoiceExplorer
