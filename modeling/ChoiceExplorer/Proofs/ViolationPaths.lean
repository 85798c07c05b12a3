import ChoiceExplorer.Proofs.Endings
import ChoiceExplorer.Proofs.GeneratorTexts
import ChoiceExplorer.Proofs.StrictProgress

/-!
# Paths of violations

A search reports each violation with the texts of the path that led to it.  Paths move
forward from run to run, so two of them part at one generator that stands at two
positions, and its text tells these apart.  No two reports have the same path.
-/

namespace ChoiceExplorer

/-- One generator at one position has one text, retired or not. -/
theorem Generator.Same.text_eq {before after : Generator} (same : before.Same after)
    (taken_eq : before.taken = after.taken) : before.text = after.text := by
  obtain ⟨id, alternatives, taken, retired, location, taken_le⟩ := before
  obtain ⟨_, _, _, _, _, _⟩ := after
  obtain ⟨id_eq, alternatives_eq, -⟩ := same
  cases id_eq
  cases alternatives_eq
  cases taken_eq
  rfl

namespace Search

/-- Above the depth of their agreement two paths have the same texts. -/
theorem AgreeTo.take_texts {moved : Nat → Nat → Prop} {depth : Nat}
    {first second : List Generator} (agree : AgreeTo moved depth first second) :
    (first.map Generator.text).take depth = (second.map Generator.text).take depth := by
  induction depth generalizing first second with
  | zero => rfl
  | succ depth ih =>
      match first, second, agree with
      | _ :: _, _ :: _, ⟨same, stays, agree⟩ =>
          rw [List.map_cons, List.map_cons, List.take_succ_cons, List.take_succ_cons,
            same.text_eq stays, ih agree]

def Record.failure (record : Record) : Violation × List String := (record.violation, record.path)

def Visit.report? (visit : Visit (Option Violation)) : Option (Violation × List String) :=
  if visit.fault.isNone then
    visit.failure?.map fun (violation, path) => (violation, path.map Generator.text)
  else none

theorem Summary.failures_add (summary : Summary) (visit : Visit (Option Violation)) :
    (summary.add visit).violations.map Record.failure =
      summary.violations.map Record.failure ++
        (visit.failure?.map fun (violation, path) =>
          (violation, path.map Generator.text)).toList := by
  cases found : visit.result <;> simp [add, Visit.record?, Visit.failure?, Record.failure, found]

/-- Counting runs reports those of them that failed. -/
theorem Summary.failures_foldl (visits : List (Visit (Option Violation))) (summary : Summary) :
    ((visits.filter fun visit => visit.fault.isNone).foldl add summary).violations.map
        Record.failure =
      summary.violations.map Record.failure ++ visits.filterMap Visit.report? := by
  induction visits generalizing summary with
  | nil => simp
  | cons visit visits ih =>
      rw [List.filter_cons, List.filterMap_cons, Visit.report?]
      cases unfaulted : visit.fault.isNone with
      | false => exact ih summary
      | true =>
          rw [if_pos rfl, if_pos rfl, List.foldl_cons, ih, failures_add, List.append_assoc]
          cases visit.failure? <;> rfl

namespace Progress

variable {σ : Type} {program : Program σ}

def report? (program : Program σ) (progress : Progress σ) : Option (Violation × List String) :=
  (progress.visit program).report?

theorem report?_eq_some {progress : Progress σ} {violation : Violation} {texts : List String}
    (reported : progress.report? program = some (violation, texts)) :
    (progress.attempt program).1.1 = some violation ∧
      texts = (progress.left program).texts := by
  unfold report? Visit.report? at reported
  split at reported
  · rw [Visit.failure?, visit_result, visit_path] at reported
    cases found : (progress.attempt program).1.1 with
    | none =>
        rw [found] at reported
        cases reported
    | some other =>
        rw [found] at reported
        cases reported
        refine ⟨rfl, ?_⟩
        rw [ChoiceStack.texts, List.map_map]
        rfl
  · cases reported

/-- The reports of a search are those of its runs, in their order. -/
theorem failures_explore (program : Program σ) (budget : Nat) (progress : Progress σ) :
    (explore program budget progress).2.search.violations.map Record.failure =
      progress.search.violations.map Record.failure ++
        (progress.trail program budget).filterMap (report? program) := by
  have summary_eq := congrArg Summary.violations (explore_summary program budget progress)
  have reports := Summary.failures_foldl (progress.visits program budget) progress.search.summary
  rw [← summary_eq, visits, List.filterMap_map] at reports
  exact reports

end Progress

/-- A record reports the run at a place of a trail: its violation and the path it left. -/
structure Record.Reports {σ : Type} (record : Record) (program : Program σ)
    (turns : List (Progress σ)) (place : Nat) (turn : Progress σ) : Prop where
  here : turns[place]? = some turn
  violation_eq : (turn.attempt program).1.1 = some record.violation
  path_eq : record.path = (turn.left program).texts

/--
The paths of two records have the same texts down to a depth, and there the texts of one
generator at two positions, which differ.
-/
structure PartAt (depth : Nat) (first second : Record) (earlier later : ChoiceStack) : Prop where
  above : first.path.take depth = second.path.take depth
  moved : ∃ before after, earlier.get? depth = some before ∧ later.get? depth = some after ∧
    before.Same after ∧ before.taken < after.taken
  texts : ∃ text other, first.path[depth]? = some text ∧ second.path[depth]? = some other ∧
    text ≠ other

theorem PartAt.path_ne {depth : Nat} {first second : Record} {earlier later : ChoiceStack}
    (parts : PartAt depth first second earlier later) : first.path ≠ second.path := by
  obtain ⟨text, other, here, there, differ⟩ := parts.texts
  intro same
  rw [same, there] at here
  exact differ (Option.some.inj here).symm

/--
Two records report an earlier and a later run.  Their paths part at a generator that has
been on all paths in between, at the same place, and has not moved back.
-/
def Parted {σ : Type} (program : Program σ) (turns : List (Progress σ))
    (first second : Record) : Prop :=
  ∃ (place later_place depth : Nat) (earlier later : Progress σ), place < later_place ∧
    first.Reports program turns place earlier ∧ second.Reports program turns later_place later ∧
    PartAt depth first second (earlier.left program) (later.left program) ∧
    ∀ (between_place : Nat) (between : Progress σ), place ≤ between_place →
      between_place ≤ later_place → turns[between_place]? = some between →
      AgreeTo (· ≤ ·) depth (earlier.left program).toList (between.left program).toList

theorem Parted.path_ne {σ : Type} {program : Program σ} {turns : List (Progress σ)}
    {first second : Record} (parted : Parted program turns first second) :
    first.path ≠ second.path := by
  obtain ⟨_, _, _, _, _, -, -, -, parts, -⟩ := parted
  exact parts.path_ne

/-- The reports of a run and of a later one are parted. -/
theorem Progress.parted_of_lt {σ : Type} {program : Program σ} {progress : Progress σ}
    {budget place later_place : Nat} {earlier later : Progress σ} {first second : Record}
    (lt : place < later_place)
    (here : (progress.trail program budget)[place]? = some earlier)
    (there : (progress.trail program budget)[later_place]? = some later)
    (reported : earlier.report? program = some first.failure)
    (later_reported : later.report? program = some second.failure) :
    Parted program (progress.trail program budget) first second := by
  obtain ⟨depth, agree, stays⟩ := agree_of_lt lt here there
  obtain ⟨before, after, at_before, at_after, same, moves⟩ := agree.exists_moved
  obtain ⟨violation_eq, path_eq⟩ := report?_eq_some reported
  obtain ⟨later_violation_eq, later_path_eq⟩ := report?_eq_some later_reported
  have differ : before.text ≠ after.text := by
    intro text_eq
    have stood := Generator.taken_eq_of_text same.id_eq same.alternatives_eq text_eq
    exact absurd stood (Nat.ne_of_lt moves)
  refine ⟨place, later_place, depth, earlier, later, lt, ⟨here, violation_eq, path_eq⟩,
    ⟨there, later_violation_eq, later_path_eq⟩, ⟨?_, ?_, ?_⟩, stays⟩
  · rw [path_eq, later_path_eq]
    exact agree.take_texts
  · exact ⟨before, after, at_before, at_after, same, moves⟩
  · refine ⟨before.text, after.text, ?_, ?_, differ⟩
    · rw [path_eq, ChoiceStack.texts, List.getElem?_map, at_before]
      rfl
    · rw [later_path_eq, ChoiceStack.texts, List.getElem?_map, at_after]
      rfl

/--
No two violations of a search are reported with the same path.  Any two paths part at
one generator at two positions, and there their texts differ: the text of a generator,
before its start or at any alternative, determines its position.
-/
theorem violation_paths_part {σ : Type} (search : Search) (program : Program σ) (state : σ)
    (budget : Nat) :
    ((search.run program state budget).2.search.violations.Pairwise fun first second =>
      first.path ≠ second.path ∧
        Parted program (search.trail program state budget) first second) ∧
    (∀ summary, (search.run program state budget).1 = .finished summary →
      summary.violations = (search.run program state budget).2.search.violations) ∧
    ∀ first second : Generator, first.id = second.id →
      first.alternatives = second.alternatives → first.text = second.text →
      first.taken = second.taken := by
  refine ⟨?_, ?_, fun first second => Generator.taken_eq_of_text⟩
  · have reports := Progress.failures_explore program budget (search.outset state)
    rw [show (search.outset state).search.violations = [] from rfl, List.map_nil,
      List.nil_append] at reports
    -- The order of the trail is inherited by the runs that are reported.
    have parted : ((search.trail program state budget).filterMap
        (Progress.report? program)).Pairwise fun failure other =>
          ∀ first second : Record, first.failure = failure → second.failure = other →
            Parted program (search.trail program state budget) first second := by
      rw [List.pairwise_filterMap, List.pairwise_iff_getElem]
      intro place later_place within later_within lt failure reported other later_reported
      rintro first second rfl rfl
      exact Progress.parted_of_lt lt (List.getElem?_eq_getElem within)
        (List.getElem?_eq_getElem later_within) reported later_reported
    rw [Search.trail, ← reports, List.pairwise_map] at parted
    refine parted.imp fun {first second} parts => ?_
    have two := parts first second rfl rfl
    exact ⟨two.path_ne, two⟩
  · intro summary finished
    exact (congrArg Summary.violations (Progress.summary_of_finished finished)).symm

def hopeless : Program Unit := fun _ =>
  .choose .bool fun _ => .done (some (.uncaught "hopeless"), ())

theorem hopeless_violation_paths_part :
    let search : Search := { options := { multipleErrors := true } }
    let found := (search.run hopeless () 2).2.search.violations
    found.map Record.path =
      [[(Request.bool.pick 0).text], [(Request.bool.pick 1).text]] ∧
    (∃ summary, (search.run hopeless () 2).1 = .finished summary ∧ summary.violations = found) ∧
    found.Pairwise fun first second => first.path ≠ second.path := by
  intro search found
  obtain ⟨parted, finishes, -⟩ := violation_paths_part search hopeless () 2
  have finished : (search.run hopeless () 2).1 =
      .finished (search.run hopeless () 2).2.search.summary := by
    decide +kernel
  refine ⟨by decide +kernel, ⟨_, finished, finishes _ finished⟩, ?_⟩
  exact parted.imp fun parts => parts.1

end Search

end ChoiceExplorer
