import ChoiceExplorer.Proofs.CallbackOrder
import ChoiceExplorer.Proofs.WholeReports
import ChoiceExplorer.Proofs.Writings
import Mathlib.Data.List.Nodup

/-!
# What a run writes

A run writes what its audience writes, and at last the results.  If the report never fails
then an observer writes about each violation, in the order of the violations, and about
nothing else, and it alone writes into its outlet.
-/

namespace ChoiceExplorer

open Output (Failure)
open Search (Ending Notice Record View)

def Attached.writings (member : Attached) (place : Nat) (record : Record) (view : View) :
    List Writing :=
  ((member.observer.outside? view).map (⟨.outlet place, some place, ·⟩)).toList ++
    ((member.section? record.id view).map (⟨.report, some place, ·⟩)).toList

def writingsBy (place : Nat) (writings : List Writing) : List Writing :=
  writings.filter fun writing => writing.author == some place

theorem writingsBy_append (place : Nat) (first second : List Writing) :
    writingsBy place (first ++ second) = writingsBy place first ++ writingsBy place second :=
  List.filter_append ..

section

variable {attached : List Attached} {member : Attached} {place : Nat} {view : View}
  {record : Record}

/-- If each place writes in its own name then the writings of one place are what it writes. -/
theorem writingsBy_places {write : Nat → Option Writing}
    (own : ∀ other writing, write other = some writing → writing.author = some other)
    {length : Nat} (within : place < length) :
    writingsBy place ((List.range length).filterMap write) = (write place).toList := by
  have once : (List.range length).filter (· == place) = [place] := by
    rw [List.filter_beq, List.count_eq_one_of_mem List.nodup_range (List.mem_range.mpr within)]
    rfl
  have mine : ∀ other,
      (write other).filter (fun writing => writing.author == some place) =
        if other == place then write other else none := by
    intro other
    cases written : write other with
    | none => simp
    | some writing => simp [Option.filter_some, own other writing written]
  calc
    _ = (List.range length).filterMap fun other =>
          (write other).filter fun writing => writing.author == some place :=
      List.filter_filterMap ..
    _ = ((List.range length).filter (· == place)).filterMap write := by
      rw [List.filterMap_filter]
      exact congrArg (List.filterMap · _) (funext mine)
    _ = (write place).toList := by
      rw [once, List.filterMap_cons]
      cases write place <;> rfl

/-- The observer that is called writes into the report or into its own outlet. -/
theorem author_of_call {callback : Callback} {writing : Writing}
    (written : (Act.call callback).writing? attached = some writing) :
    writing.author = some callback.place ∧
      (writing.into = .report ∨ writing.into = .outlet callback.place) := by
  simp only [Act.writing?] at written
  split at written
  · obtain ⟨called, -, traced⟩ := Option.bind_eq_some_iff.mp written
    obtain ⟨text, -, rfl⟩ := Option.map_eq_some_iff.mp traced
    exact ⟨rfl, .inr rfl⟩
  · obtain ⟨passage, -, rfl⟩ := Option.map_eq_some_iff.mp written
    exact ⟨rfl, .inl rfl⟩

/-- Only the observer at a place writes into its outlet. -/
theorem author_of_outlet {act : Act} {writing : Writing}
    (written : act.writing? attached = some writing) (into : writing.into = .outlet place) :
    writing.author = some place := by
  cases act with
  | openReport target =>
      cases written
      cases into
  | flush => cases written
  | beginSection view =>
      obtain ⟨passage, -, rfl⟩ := Option.map_eq_some_iff.mp written
      cases into
  | call callback =>
      obtain ⟨author_eq, reported | own⟩ := author_of_call written
      · cases into.symm.trans reported
      · cases into.symm.trans own
        exact author_eq

/-- Observers that hear of the start or of the end write nothing. -/
theorem writings_callAll {occasion : Occasion}
    (plain : occasion = .started ∨ occasion = .finished) :
    ((callAll occasion view attached).map .call).filterMap (Act.writing? attached) = [] := by
  rw [List.filterMap_eq_nil_iff]
  intro act member
  obtain ⟨callback, among, rfl⟩ := List.mem_map.mp member
  have same := Audience.mem_callAll among
  rcases plain with rfl | rfl <;> simp only [Act.writing?, Act.passage?, same, Option.map_none]

/-- Of those that are told of a violation an observer writes into its outlet. -/
theorem writingsBy_callAll (there : attached[place]? = some member) :
    writingsBy place
        (((callAll .violated view attached).map .call).filterMap (Act.writing? attached)) =
      ((member.observer.outside? view).map (⟨.outlet place, some place, ·⟩)).toList := by
  rw [callAll, List.filterMap_map, List.filterMap_map, writingsBy_places ?_
    (List.getElem?_eq_some_iff.mp there).1]
  · simp [Act.writing?, there]
  · intro other writing written
    exact (author_of_call
      (show (Act.call ⟨other, .violated, view⟩).writing? attached = _ from written)).1

/-- Of those that are asked for their sections an observer writes its own into the report. -/
theorem writingsBy_callExtensions (there : attached[place]? = some member)
    (seen : view.last? = some record) :
    writingsBy place
        (((callExtensions view attached).map .call).filterMap (Act.writing? attached)) =
      ((member.section? record.id view).map (⟨.report, some place, ·⟩)).toList := by
  rw [callExtensions, List.filterMap_map, List.filterMap_map, List.filterMap_filter,
    writingsBy_places ?_ (List.getElem?_eq_some_iff.mp there).1]
  · cases extension : member.extension <;>
      simp [Act.writing?, Act.passage?, Attached.section?, there, seen, extension]
    rfl
  · intro other writing written
    split at written
    · exact (author_of_call
        (show (Act.call ⟨other, .published, view⟩).writing? attached = _ from written)).1
    · cases written

theorem writingsBy_started :
    writingsBy place
      ((Audience.script attached (.started view)).filterMap (Act.writing? attached)) = [] := by
  have opened : (Act.openReport view.target).writing? attached =
      some ⟨.report, none, Report.startText view.target⟩ := rfl
  rw [Audience.script, List.filterMap_cons_some opened, writings_callAll (.inl rfl)]
  rfl

theorem writings_finished :
    (Audience.script attached (.finished view)).filterMap (Act.writing? attached) = [] :=
  writings_callAll (.inr rfl)

/-- When a violation is heard of an observer writes into its outlet, then into the report. -/
theorem writingsBy_violated (there : attached[place]? = some member)
    (seen : view.last? = some record) :
    writingsBy place
        ((Audience.script attached (.violated view)).filterMap (Act.writing? attached)) =
      member.writings place record view := by
  have begun : (Act.beginSection view).writing? attached =
      some ⟨.report, none, Report.violationText record.id (some record)⟩ := by
    simp only [Act.writing?, Act.passage?, seen, Option.map_some]
    rfl
  rw [Audience.script, List.filterMap_append, List.filterMap_cons_some begun,
    List.filterMap_append, List.filterMap_cons_none rfl, List.filterMap_nil, List.append_nil,
    writingsBy_append, writingsBy_callAll there, Attached.writings,
    ← writingsBy_callExtensions there seen]
  rfl

/-- Of violations an observer writes one after the other. -/
theorem writingsBy_violations {records : List Record} {views : List View}
    (there : attached[place]? = some member)
    (seen : views.map View.last? = records.map some) :
    writingsBy place ((views.map Notice.violated).flatMap fun notice =>
        (Audience.script attached notice).filterMap (Act.writing? attached)) =
      (records.zip views).flatMap fun told => member.writings place told.1 told.2 := by
  induction records generalizing views with
  | nil =>
      rw [List.map_eq_nil_iff.mp seen]
      rfl
  | cons record rest ih =>
      cases views with
      | nil => cases seen
      | cons view views =>
          obtain ⟨first, others⟩ := List.cons.inj seen
          rw [List.map_cons, List.flatMap_cons, writingsBy_append,
            writingsBy_violated there first, ih others]
          rfl

end

namespace Host

def closing? (ending : Ending) (failure : Option Failure) : Option Writing :=
  match ending, failure with
  | .finished summary, none => some ⟨.report, none, Report.finishText summary⟩
  | _, _ => none

/-- All that is written in a run, one text after the other. -/
def writings {σ : Type} (host : Host) (program : Program σ) (state : σ) (budget : Nat) :
    List Writing :=
  let explored := host.search.run program state budget
  host.audience.writings (host.audience.acts explored.2.notices) ++
    (closing? explored.1 (host.heard program state budget).failure).toList

variable {σ : Type} {host : Host} {program : Program σ} {state : σ} {budget : Nat}

/-- After the search a run writes the results, if it comes to that. -/
theorem run_writes (host : Host) (program : Program σ) (state : σ) (budget : Nat) :
    Audience.Writes (host.heard program state budget)
      (host.run program state budget).host.audience
      (closing? (host.search.run program state budget).1
        (host.heard program state budget).failure) := by
  have unchanged : Audience.Writes (host.heard program state budget)
      (host.searched program state budget).audience none :=
    .nothing rfl (Output.Surroundings.warn_nil _).symm
  cases ended : errorOf? (host.search.run program state budget).1 with
  | some error =>
      rw [run_of_error ended]
      cases ending : (host.search.run program state budget).1 with
      | faulted fault => exact unchanged
      | unfinished => exact unchanged
      | finished summary =>
          rw [ending] at ended
          cases ended
  | none =>
      obtain ⟨summary, ending⟩ := finished_of_no_error ended
      rw [ending]
      cases failure : (host.heard program state budget).failure with
      | some cause =>
          rw [run_of_failure ending failure]
          exact unchanged
      | none =>
          obtain ⟨channel_eq, surroundings_eq⟩ :=
            (host.heard program state budget).report.channel.writeOut_eq_write
              (Report.finishText summary) (host.heard program state budget).surroundings
          rw [run_of_finished ending failure]
          exact Audience.writes_report channel_eq
            (surroundings_eq.trans (Output.Surroundings.warn_nil _).symm)

/-- A run performs its writings, and writes nothing else. -/
theorem run_performs (host : Host) (program : Program σ) (state : σ) (budget : Nat) :
    host.audience.Performs (host.writings program state budget)
      (host.run program state budget).host.audience := by
  have heard := host.audience.performs_foldl_act
    (host.audience.acts (host.search.run program state budget).2.notices)
  rw [← Audience.foldl_hear_eq_foldl_act] at heard
  have closed := Audience.Performs.after (host.run_writes program state budget) (.nothing _)
  rw [List.append_nil] at closed
  exact heard.append closed

/-- Over a report that never fails all that is written follows from the search. -/
theorem writings_of_reliable (reliable : host.report.channel.Reliable host.surroundings) :
    host.writings program state budget =
      ((host.search.run program state budget).2.notices.flatMap
          (Audience.script host.attached)).filterMap (Act.writing? host.attached) ++
        (closing? (host.search.run program state budget).1 none).toList := by
  have audience_reliable : host.audience.Reliable := reliable
  have along := (host.agrees_of_run program state budget).1
  rw [writings, unfailed_of_reliable reliable, Audience.writings_of_agreesAlong along rfl,
    Audience.acts_eq_script audience_reliable]
  rfl

/-- Over a report that never fails a search that ends gives its own result. -/
theorem result_of_reliable (reliable : host.report.channel.Reliable host.surroundings) :
    (host.run program state budget).result =
      match (host.search.run program state budget).1 with
      | .finished summary => .ok summary
      | .faulted fault => .error (.search fault)
      | .unfinished => .error .unfinished := by
  cases ending : (host.search.run program state budget).1 with
  | finished summary => exact result_of_finished reliable ending
  | faulted fault =>
      rw [run_of_error (by rw [ending]; rfl)]
  | unfinished =>
      rw [run_of_error (by rw [ending]; rfl)]

/-- Only the observer at a place writes into its outlet. -/
theorem textsInto_outlet (reliable : host.report.channel.Reliable host.surroundings)
    (place : Nat) :
    textsInto (.outlet place) (host.writings program state budget) =
      textsInto (.outlet place)
        (writingsBy place (host.writings program state budget)) := by
  have own : ∀ writing ∈ host.writings program state budget,
      writing.into = .outlet place → writing.author = some place := by
    intro writing member into
    rw [writings_of_reliable reliable] at member
    rcases List.mem_append.mp member with heard | closed
    · obtain ⟨act, -, written⟩ := List.mem_filterMap.mp heard
      exact author_of_outlet written into
    · unfold closing? at closed
      split at closed
      · cases List.mem_singleton.mp closed
        cases into
      · cases closed
  rw [textsInto, textsInto, writingsBy, List.filter_filter]
  refine congrArg _ (List.filter_congr fun writing member => ?_)
  cases into : writing.into == .outlet place with
  | false => rfl
  | true => simp [own writing member (eq_of_beq into)]

/-- Over a report that never fails an observer writes about the violations, in their order. -/
theorem writingsBy_of_reliable (reliable : host.report.channel.Reliable host.surroundings)
    {member : Attached} {place : Nat} (there : host.attached[place]? = some member) :
    let records := (host.search.run program state budget).2.search.violations
    let alarms := host.search.alarms program state budget
    writingsBy place (host.writings program state budget) =
      (records.zip alarms).flatMap fun told => member.writings place told.1 told.2 := by
  intro records alarms
  have seen : alarms.map View.last? = records.map some :=
    (host.search.run_violations program state budget).symm
  rw [writings_of_reliable reliable, List.filterMap_flatMap, Search.run_notices,
    List.flatMap_cons, List.flatMap_append, writingsBy_append, writingsBy_append,
    writingsBy_append, writingsBy_started, writingsBy_violations there seen]
  cases (host.search.run program state budget).1 with
  | finished summary => simp [Search.closing, closing?, writings_finished, writingsBy]
  | faulted fault => simp [Search.closing, closing?, writingsBy]
  | unfinished => simp [Search.closing, closing?, writingsBy]

end Host

end ChoiceExplorer
