import ChoiceExplorer.Proofs.ReportTexts

/-!
# Writings

Whatever an audience writes goes into the report or into the outlet of an observer.  An act
writes one text or none, and touches nothing else that is written to.  If the report never
fails then all that is written follows from what is heard and from what the observers are.
-/

namespace ChoiceExplorer

open Output (Buffer Channel Shared Surroundings)
open Search (View)

/-- What a text is written into: the report, or the outlet of the observer at a place. -/
inductive Destination where
  | report
  | outlet (place : Nat)
  deriving DecidableEq

theorem Destination.report_ne_outlet (place : Nat) : report ≠ outlet place := nofun

/-- A text that is written, with the place of the observer that it comes from, if any. -/
structure Writing where
  into : Destination
  author : Option Nat
  text : String
  deriving DecidableEq

def textsInto (into : Destination) (writings : List Writing) : List String :=
  (writings.filter fun writing => writing.into == into).map Writing.text

theorem textsInto_append (into : Destination) (first second : List Writing) :
    textsInto into (first ++ second) = textsInto into first ++ textsInto into second := by
  rw [textsInto, List.filter_append, List.map_append]
  rfl

theorem textsInto_map_here {α : Type} {into : Destination} {write : α → Writing}
    (here : ∀ item, (write item).into = into) (items : List α) :
    textsInto into (items.map write) = items.map fun item => (write item).text := by
  have all : (items.map write).filter (fun writing => writing.into == into) = items.map write := by
    simp [here]
  rw [textsInto, all, List.map_map]
  rfl

theorem textsInto_map_elsewhere {α : Type} {into : Destination} {write : α → Writing}
    (elsewhere : ∀ item, (write item).into ≠ into) (items : List α) :
    textsInto into (items.map write) = [] := by
  have nothing : (items.map write).filter (fun writing => writing.into == into) = [] := by
    simp [elsewhere]
  rw [textsInto, nothing, List.map_nil]

namespace Output

/-- Flushing what was written changes nothing. -/
theorem Channel.writeOut_eq_write (channel : Channel) (text : String)
    (surroundings : Surroundings) :
    (channel.writeOut text surroundings).channel = (channel.write text surroundings).channel ∧
      (channel.writeOut text surroundings).surroundings =
        (channel.write text surroundings).surroundings := by
  unfold writeOut
  dsimp only
  split <;> exact ⟨rfl, rfl⟩

end Output

namespace Observer

def outside? (observer : Observer) (view : View) : Option String :=
  match observer with
  | tracer owned => owned.outlet.map fun _ => owned.traceText view
  | recorder _ | silent => none

def channel? : Observer → Option Channel
  | tracer owned => owned.outlet.map Trace.Outlet.channel
  | recorder _ | silent => none

/-- An observer without an outlet is not changed by a violation. -/
theorem violated_of_none {observer : Observer} {view : View} (surroundings : Surroundings)
    (nothing : observer.outside? view = none) :
    observer.violated view surroundings = (observer, surroundings) := by
  cases observer with
  | recorder name => rfl
  | silent => rfl
  | tracer owned =>
      obtain ⟨options, outlet⟩ := owned
      cases outlet with
      | none => rfl
      | some outlet => cases nothing

/-- What an observer writes about a violation goes to the channel of its outlet. -/
theorem violated_of_some {observer : Observer} {view : View} {text : String}
    (surroundings : Surroundings) (traced : observer.outside? view = some text) :
    ∃ channel, observer.channel? = some channel ∧
      (observer.violated view surroundings).1.channel? =
        some (channel.write text surroundings).channel ∧
      ∃ warnings, (observer.violated view surroundings).2 =
        (channel.write text surroundings).surroundings.warn warnings := by
  cases observer with
  | recorder name => cases traced
  | silent => cases traced
  | tracer owned =>
      obtain ⟨options, outlet⟩ := owned
      cases outlet with
      | none => cases traced
      | some outlet =>
          cases traced
          obtain ⟨channel_eq, surroundings_eq⟩ := outlet.channel.writeOut_eq_write
            ((⟨options, some outlet⟩ : Trace.Tracer).traceText view) surroundings
          refine ⟨outlet.channel, rfl, ?_⟩
          rw [← channel_eq, ← surroundings_eq]
          simp only [violated, Trace.Tracer.trace]
          split
          · exact ⟨rfl, [], (Surroundings.warn_nil _).symm⟩
          · exact ⟨rfl, _, rfl⟩

theorem outside?_violated (observer : Observer) (view : View) (surroundings : Surroundings) :
    (observer.violated view surroundings).1.outside? = observer.outside? := by
  cases observer with
  | recorder name => rfl
  | silent => rfl
  | tracer owned =>
      obtain ⟨options, outlet⟩ := owned
      cases outlet with
      | none => rfl
      | some outlet =>
          simp only [violated, Trace.Tracer.trace]
          split <;> rfl

end Observer

/-- What an observer is to a host, and what it writes elsewhere. -/
structure Part where
  role : Role
  outside? : View → Option String

def Attached.part (member : Attached) : Part := ⟨member.role, member.observer.outside?⟩

theorem roles_of_parts {first second : List Attached}
    (same : first.map Attached.part = second.map Attached.part) :
    first.map Attached.role = second.map Attached.role := by
  have roles := congrArg (List.map Part.role) same
  rwa [List.map_map, List.map_map] at roles

/-- What is written in an act, if every section is about the violation that is seen. -/
def Act.writing? (attached : List Attached) (act : Act) : Option Writing :=
  match act with
  | call callback =>
      match callback.occasion with
      | .violated =>
          attached[callback.place]?.bind fun member =>
            (member.observer.outside? callback.view).map fun text =>
              ⟨.outlet callback.place, some callback.place, text⟩
      | _ => (act.passage? attached).map fun passage => ⟨.report, some callback.place, passage.text⟩
  | _ => (act.passage? attached).map fun passage => ⟨.report, none, passage.text⟩

namespace Audience

variable {audience : Audience}

def channel? (audience : Audience) : Destination → Option Channel
  | .report => some audience.report.channel
  | .outlet place => audience.attached[place]?.bind fun member => member.observer.channel?

def writing? (audience : Audience) (act : Act) : Option Writing :=
  match act with
  | .call callback =>
      match callback.occasion with
      | .violated =>
          audience.attached[callback.place]?.bind fun member =>
            (member.observer.outside? callback.view).map fun text =>
              ⟨.outlet callback.place, some callback.place, text⟩
      | _ => (audience.text? act).map fun text => ⟨.report, some callback.place, text⟩
  | _ => (audience.text? act).map fun text => ⟨.report, none, text⟩

def writings (audience : Audience) : List Act → List Writing
  | [] => []
  | act :: rest => (audience.writing? act).toList ++ (audience.act act).writings rest

/-- An audience goes on with a writing, or without one, to the next. -/
inductive Writes (audience next : Audience) : Option Writing → Prop where
  | nothing {warnings : List Warning} (channels : next.channel? = audience.channel?)
      (surroundings_eq : next.surroundings = audience.surroundings.warn warnings) :
      Writes audience next none
  | text {writing : Writing} {channel : Channel} {warnings : List Warning}
      (there : audience.channel? writing.into = some channel)
      (channels : ∀ into, next.channel? into =
        if into = writing.into then
          some (channel.write writing.text audience.surroundings).channel
        else audience.channel? into)
      (surroundings_eq : next.surroundings =
        (channel.write writing.text audience.surroundings).surroundings.warn warnings) :
      Writes audience next (some writing)

/-- What the report writes goes to its channel. -/
theorem writes_report {text : String} {report : Report} {surroundings : Surroundings}
    {events : List Event} {failure : Option Output.Failure} {author : Option Nat}
    {warnings : List Warning}
    (channel_eq : report.channel =
      (audience.report.channel.write text audience.surroundings).channel)
    (surroundings_eq : surroundings =
      (audience.report.channel.write text audience.surroundings).surroundings.warn warnings) :
    Writes audience ⟨audience.attached, report, surroundings, events, failure⟩
      (some ⟨.report, author, text⟩) := by
  refine .text rfl (fun into => ?_) surroundings_eq
  cases into with
  | report => rw [if_pos rfl, ← channel_eq]; rfl
  | outlet place => rw [if_neg (Destination.report_ne_outlet place).symm]; rfl

/-- A call about a violation writes into the outlet of the observer called. -/
theorem writes_violated {callback : Callback} (occasion : callback.occasion = .violated) :
    Writes audience (audience.act (.call callback)) (audience.writing? (.call callback)) := by
  simp only [act, call, writing?, occasion]
  cases there : audience.attached[callback.place]? with
  | none => exact .nothing rfl (Surroundings.warn_nil _).symm
  | some member =>
      simp only [Option.bind_some]
      have within := (List.getElem?_eq_some_iff.mp there).1
      cases traced : member.observer.outside? callback.view with
      | none =>
          rw [Observer.violated_of_none _ traced]
          have unchanged : audience.attached.set callback.place member = audience.attached := by
            obtain ⟨_, rfl⟩ := List.getElem?_eq_some_iff.mp there
            exact List.set_getElem_self within
          refine .nothing ?_ (Surroundings.warn_nil _).symm
          funext into
          cases into with
          | report => rfl
          | outlet place => simp only [channel?, unchanged]
      | some text =>
          obtain ⟨channel, owns, written, warnings, surroundings_eq⟩ :=
            Observer.violated_of_some audience.surroundings traced
          have own : audience.channel? (.outlet callback.place) = some channel := by
            simp only [channel?, there, Option.bind_some, owns]
          refine .text own (fun into => ?_) surroundings_eq
          cases into with
          | report => rw [if_neg (Destination.report_ne_outlet _)]; rfl
          | outlet place =>
              by_cases here : place = callback.place
              · subst here
                rw [if_pos rfl, ← written, channel?, List.getElem?_set_self within]
                rfl
              · rw [if_neg (fun same => here (Destination.outlet.inj same)), channel?,
                  List.getElem?_set_ne (Ne.symm here)]
                rfl

/-- An act writes what it writes to the channel of its destination, and touches no other. -/
theorem writes_act (audience : Audience) (act : Act) :
    Writes audience (audience.act act) (audience.writing? act) := by
  have same (surroundings : Surroundings) : surroundings = surroundings.warn [] :=
    surroundings.warn_nil.symm
  cases act with
  | openReport target =>
      rw [Audience.act, reported_eq]
      exact writes_report rfl (same _)
  | beginSection view =>
      rw [Audience.act, reported_eq]
      exact writes_report rfl (same _)
  | flush =>
      rw [Audience.act, noteFailure_eq]
      exact .nothing rfl (same _)
  | call callback =>
      cases occasion : callback.occasion with
      | violated => exact writes_violated occasion
      | started | finished | publishFailed =>
          simp only [Audience.act, call, writing?, text?, occasion]
          cases audience.attached[callback.place]? with
          | none => exact .nothing rfl (same _)
          | some member => exact .nothing rfl (same _)
      | published =>
          simp only [Audience.act, call, writing?, text?, occasion]
          cases audience.attached[callback.place]? with
          | none => exact .nothing rfl (same _)
          | some member =>
              simp only [Option.bind_some, Report.extend]
              cases member.observer.section? audience.report.lastErrorId callback.view with
              | none => exact .nothing rfl (same _)
              | some text => exact writes_report rfl rfl

/-- An audience goes on with writings, one after the other, to the last. -/
inductive Performs : Audience → List Writing → Audience → Prop where
  | nothing (audience : Audience) : Performs audience [] audience
  | after {audience next last : Audience} {writing : Option Writing} {rest : List Writing}
      (writes : Writes audience next writing) (performs : Performs next rest last) :
      Performs audience (writing.toList ++ rest) last

theorem performs_foldl_act (audience : Audience) (acts : List Act) :
    Performs audience (audience.writings acts) (acts.foldl act audience) := by
  induction acts generalizing audience with
  | nil => exact .nothing audience
  | cons act rest ih => exact .after (audience.writes_act act) (ih (audience.act act))

theorem Performs.append {next last : Audience} {first second : List Writing}
    (begins : Performs audience first next) (goes_on : Performs next second last) :
    Performs audience (first ++ second) last := by
  induction begins with
  | nothing audience => exact goes_on
  | after writes performs ih =>
      rw [List.append_assoc]
      exact .after writes (ih goes_on)

/-- What a violation does not change of an observer stays through every act. -/
theorem map_attached_act {β : Type} {keep : Attached → β}
    (same : ∀ (member : Attached) (view : View) (surroundings : Surroundings),
      keep { member with observer := (member.observer.violated view surroundings).1 } = keep member)
    (audience : Audience) (act : Act) :
    (audience.act act).attached.map keep = audience.attached.map keep := by
  cases act with
  | openReport target => rw [Audience.act, reported_eq]
  | beginSection view => rw [Audience.act, reported_eq]
  | flush => rw [Audience.act, noteFailure_eq]
  | call callback =>
      simp only [Audience.act, call]
      cases there : audience.attached[callback.place]? with
      | none => rfl
      | some member =>
          cases callback.occasion with
          | started | finished | published | publishFailed => rfl
          | violated =>
              obtain ⟨within, rfl⟩ := List.getElem?_eq_some_iff.mp there
              have mapped : callback.place < (audience.attached.map keep).length := by
                rwa [List.length_map]
              dsimp only
              rw [List.map_set, same, ← List.getElem_map keep (h := mapped),
                List.set_getElem_self]

theorem parts_act (audience : Audience) (act : Act) :
    (audience.act act).attached.map Attached.part = audience.attached.map Attached.part := by
  refine map_attached_act (fun member view surroundings => ?_) audience act
  simp [Attached.part, Attached.role, Observer.violated_same, Observer.outside?_violated]

theorem parts_foldl_act (audience : Audience) (acts : List Act) :
    (acts.foldl act audience).attached.map Attached.part =
      audience.attached.map Attached.part := by
  induction acts generalizing audience with
  | nil => rfl
  | cons act rest ih => rw [List.foldl_cons, ih, parts_act]

/-- If the numberings agree then what is written follows from the act and the observers. -/
theorem writing?_of_agrees {attached : List Attached} {act : Act} (agrees : audience.Agrees act)
    (same : audience.attached.map Attached.part = attached.map Attached.part) :
    audience.writing? act = act.writing? attached := by
  have text_eq := text?_of_agrees agrees (roles_of_parts same)
  cases act with
  | openReport target => rfl
  | flush => rfl
  | beginSection view =>
      simp only [writing?, Act.writing?, text_eq, Option.map_map]
      rfl
  | call callback =>
      cases occasion : callback.occasion with
      | started | finished | publishFailed | published =>
          simp only [writing?, Act.writing?, text_eq, occasion, Option.map_map]
          rfl
      | violated =>
          have parts : audience.attached[callback.place]?.map Attached.part =
              attached[callback.place]?.map Attached.part := by
            rw [← List.getElem?_map, same, List.getElem?_map]
          simp only [writing?, Act.writing?, occasion]
          cases here : audience.attached[callback.place]? <;>
            cases there : attached[callback.place]? <;>
            simp [here, there, Attached.part] at parts ⊢
          rw [parts.2]

/-- The writings of acts along which the numberings agree. -/
theorem writings_of_agreesAlong {attached : List Attached} {acts : List Act}
    (along : audience.AgreesAlong acts)
    (same : audience.attached.map Attached.part = attached.map Attached.part) :
    audience.writings acts = acts.filterMap (Act.writing? attached) := by
  induction acts generalizing audience with
  | nil => rfl
  | cons act rest ih =>
      rw [writings, ih along.2 ((audience.parts_act act).trans same),
        writing?_of_agrees along.1 same, List.filterMap_cons]
      cases act.writing? attached <;> rfl

/-! ## What is received -/

def shared? (audience : Audience) (into : Destination) : Option Shared :=
  (audience.channel? into).bind Channel.shared?

theorem Writes.shared?_eq {next : Audience} {writing : Option Writing}
    (writes : Writes audience next writing) : next.shared? = audience.shared? := by
  funext into
  cases writes with
  | nothing channels surroundings_eq => rw [shared?, shared?, channels]
  | text there channels surroundings_eq =>
      rw [shared?, shared?, channels]
      split
      · rename_i same
        rw [same, there, Option.bind_some, Option.bind_some, Channel.shared?_write]
      · rfl

theorem Performs.shared?_eq {last : Audience} {writings : List Writing}
    (performs : Performs audience writings last) : last.shared? = audience.shared? := by
  induction performs with
  | nothing audience => rfl
  | after writes performs ih => exact ih.trans writes.shared?_eq

/-- A destination that nobody else writes to, and what it has received. -/
structure Receives (audience : Audience) (into : Destination) (received : ByteArray) : Prop where
  holds : ∃ channel, audience.channel? into = some channel ∧
    channel.Holds audience.surroundings received
  apart : ∀ other, other ≠ into →
    audience.shared? into = none ∨ audience.shared? other ≠ audience.shared? into

namespace Receives

variable {into : Destination} {received : ByteArray}

theorem writes {next : Audience} {writing : Option Writing}
    (receives : audience.Receives into received) (writes : Writes audience next writing) :
    next.Receives into (received ++ Buffer.bytesOf (textsInto into writing.toList)) := by
  obtain ⟨⟨channel, own, holds⟩, apart⟩ := receives
  refine ⟨?_, by rw [writes.shared?_eq]; exact apart⟩
  cases writes with
  | nothing channels surroundings_eq =>
      refine ⟨channel, channels ▸ own, ?_⟩
      rw [surroundings_eq]
      simpa [textsInto, Buffer.bytesOf_nil] using holds.warn _
  | @text writing other _ there channels surroundings_eq =>
      rw [surroundings_eq, channels]
      -- What is written elsewhere is not received, since nobody else writes here.
      by_cases here : into = writing.into
      · subst here
        cases own.symm.trans there
        refine ⟨_, if_pos rfl, ?_⟩
        simpa [textsInto, Buffer.bytesOf] using (holds.write writing.text).warn _
      · have spared : channel.shared? = none ∨ other.shared? ≠ channel.shared? := by
          have apart := apart writing.into (Ne.symm here)
          rwa [shared?, shared?, own, there] at apart
        have elsewhere : (writing.into == into) = false := beq_false_of_ne (Ne.symm here)
        refine ⟨channel, by rw [if_neg here, own], ?_⟩
        simpa [textsInto, elsewhere, Buffer.bytesOf_nil]
          using (holds.elsewhere spared writing.text).warn _

/-- A file that nobody else writes to has what it has received for its content. -/
theorem get?_file {name : String} (receives : audience.Receives into received)
    (leads : audience.shared? into = some (.file name)) :
    audience.surroundings.directory.get? name = some received := by
  obtain ⟨⟨channel, own, holds⟩, -⟩ := receives
  rw [shared?, own, Option.bind_some] at leads
  cases channel with
  | file other offset =>
      cases leads
      exact holds.get?_file
  | standard => cases leads
  | buffer owned => cases leads

theorem performs {last : Audience} {writings : List Writing}
    (receives : audience.Receives into received) (performs : Performs audience writings last) :
    last.Receives into (received ++ Buffer.bytesOf (textsInto into writings)) := by
  induction performs generalizing received with
  | nothing audience => simpa [textsInto, Buffer.bytesOf_nil] using receives
  | after writes performs ih =>
      rw [textsInto_append, Buffer.bytesOf_append, ← ByteArray.append_assoc]
      exact ih (receives.writes writes)

/-- An observer that is alone, and that the report does not write to. -/
theorem of_alone {member : Attached} {channel : Channel}
    (alone : audience.attached = [member]) (own : member.observer.channel? = some channel)
    (holds : channel.Holds audience.surroundings received)
    (apart : audience.report.channel.shared? ≠ channel.shared?) :
    audience.Receives (.outlet 0) received := by
  have there : audience.channel? (.outlet 0) = some channel := by simp [channel?, alone, own]
  refine ⟨⟨channel, there, holds⟩, fun other distinct => ?_⟩
  rw [shared?, shared?, there, Option.bind_some]
  rcases other with - | (- | place)
  · exact .inr apart
  · exact absurd rfl distinct
  · have nobody : audience.channel? (.outlet (place + 1)) = none := by simp [channel?, alone]
    rw [nobody, Option.bind_none]
    cases channel.shared? with
    | none => exact .inl rfl
    | some shared => exact .inr (Option.some_ne_none shared).symm

end Receives

def textsShown (audience : Audience) (writings : List Writing) : List String :=
  (writings.filter fun writing => audience.shared? writing.into == some .standard).map
    Writing.text

/-- The standard output gets what is written to it, by whomever, and nothing else. -/
theorem Writes.stdout_eq {next : Audience} {writing : Option Writing}
    (writes : Writes audience next writing)
    (unlimited : audience.surroundings.stdout.limit = none) :
    next.surroundings.stdout.limit = none ∧
      next.surroundings.stdout.accepted = audience.surroundings.stdout.accepted ++
        Buffer.bytesOf (audience.textsShown writing.toList) := by
  cases writes with
  | nothing channels surroundings_eq =>
      rw [surroundings_eq]
      exact ⟨unlimited, by simp [textsShown, Surroundings.warn, Buffer.bytesOf_nil]⟩
  | @text writing channel _ there channels surroundings_eq =>
      rw [surroundings_eq]
      refine ⟨(channel.write_limit _ _).trans unlimited, ?_⟩
      have leads : audience.shared? writing.into = channel.shared? := by
        rw [shared?, there, Option.bind_some]
      simp only [textsShown, Option.toList_some, List.filter_cons, leads]
      cases channel with
      | file name offset =>
          simp [Channel.shared?, Channel.write, Surroundings.warn, Buffer.bytesOf_nil]
      | buffer owned =>
          simp [Channel.shared?, Channel.write, Surroundings.warn, Buffer.bytesOf_nil]
      | standard =>
          simp [Channel.shared?, Channel.write, Surroundings.warn, Buffer.bytesOf,
            Buffer.write_of_unlimited unlimited]

theorem Performs.stdout_eq {last : Audience} {writings : List Writing}
    (performs : Performs audience writings last)
    (unlimited : audience.surroundings.stdout.limit = none) :
    last.surroundings.stdout.limit = none ∧
      last.surroundings.stdout.accepted = audience.surroundings.stdout.accepted ++
        Buffer.bytesOf (audience.textsShown writings) := by
  induction performs with
  | nothing audience => exact ⟨unlimited, by simp [textsShown, Buffer.bytesOf_nil]⟩
  | @after audience next last writing rest writes performs ih =>
      obtain ⟨still, accepted_eq⟩ := writes.stdout_eq unlimited
      obtain ⟨last_still, all_eq⟩ := ih still
      have shown_eq (writings : List Writing) :
          next.textsShown writings = audience.textsShown writings := by
        rw [textsShown, textsShown, writes.shared?_eq]
      refine ⟨last_still, ?_⟩
      rw [all_eq, accepted_eq, shown_eq, ByteArray.append_assoc, ← Buffer.bytesOf_append,
        textsShown, textsShown, textsShown, List.filter_append, List.map_append]

end Audience

end ChoiceExplorer
