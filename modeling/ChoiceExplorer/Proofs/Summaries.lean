import ChoiceExplorer.Proofs.Trail

/-!
# What a search finds

The ending and the summary of a search in closed form, as functions of the list
of its visits.
-/

namespace ChoiceExplorer.Search

def Visit.failure? (visit : Visit (Option Violation)) : Option (Violation × List Generator) :=
  visit.result.map fun violation => (violation, visit.path)

/-- The records of the runs that failed, numbered in their order. -/
def records (visits : List (Visit (Option Violation))) : List Record :=
  (visits.filterMap Visit.failure?).mapIdx fun before (violation, path) =>
    { id := errorId (before + 1)
      violation
      depth := path.length
      path := path.map Generator.text }

def longest {α : Type} (visits : List (Visit α)) : Nat :=
  (visits.map fun visit => visit.path.length).foldl max 0

/-- What is found in some runs, each of its parts read off their list. -/
def Summary.closed (visits : List (Visit (Option Violation))) : Summary where
  violations := records visits
  pathsExplored := visits.length
  truncatedPaths := visits.countP Visit.truncated
  maxDepth := longest visits

/-- One more run is added to each part at the end. -/
theorem Summary.closed_concat (visits : List (Visit (Option Violation)))
    (visit : Visit (Option Violation)) :
    (closed visits).add visit = closed (visits ++ [visit]) := by
  have violations : (closed visits).violations ++
      (visit.record? ((closed visits).violations.length + 1)).toList =
        records (visits ++ [visit]) := by
    simp only [closed, records, Visit.record?, List.filterMap_append, List.mapIdx_append,
      List.length_mapIdx]
    cases found : visit.result <;> simp [Visit.failure?, found, Nat.add_comm]
  have depth : max (closed visits).maxDepth visit.path.length = longest (visits ++ [visit]) := by
    simp [closed, longest]
  simp only [add, violations, depth]
  cases truncated : visit.truncated <;> simp [closed, truncated]

theorem Summary.foldl_add (before after : List (Visit (Option Violation))) :
    after.foldl add (closed before) = closed (before ++ after) := by
  induction after generalizing before with
  | nil => rw [List.append_nil, List.foldl_nil]
  | cons visit after ih =>
      rw [List.foldl_cons, closed_concat, ih, List.append_assoc]
      rfl

theorem Summary.ofVisits_eq (visits : List (Visit (Option Violation))) :
    Summary.ofVisits visits = closed visits :=
  foldl_add [] visits

namespace Ending

variable {before after : List (Visit (Option Violation))}

/-- Runs without a fault are all counted. -/
theorem ofVisits_append (unfaulted : ∀ visit ∈ before, visit.fault = none) (summary : Summary) :
    ofVisits summary (before ++ after) = ofVisits (before.foldl Summary.add summary) after := by
  induction before generalizing summary with
  | nil => rfl
  | cons first rest ih =>
      rw [List.forall_mem_cons] at unfaulted
      rw [List.cons_append, ofVisits, unfaulted.1]
      exact ih unfaulted.2 (summary.add first)

/-- A search whose runs have no fault finds what its runs show. -/
theorem ofVisits_of_unfaulted (unfaulted : ∀ visit ∈ before, visit.fault = none) :
    ofVisits {} before = .finished (.closed before) := by
  rw [← List.append_nil before, ofVisits_append unfaulted, ← Summary.ofVisits,
    Summary.ofVisits_eq, List.append_nil]
  rfl

/-- A search ends at the first fault of a run. -/
theorem ofVisits_of_fault {stuck : Visit (Option Violation)} {fault : Fault}
    (unfaulted : ∀ visit ∈ before, visit.fault = none) (faulted : stuck.fault = some fault) :
    ofVisits {} (before ++ [stuck]) = .faulted fault := by
  rw [ofVisits_append unfaulted, ofVisits, faulted]

/-- A search that finishes has had no fault. -/
theorem unfaulted_of_ofVisits {summary found : Summary}
    (finished : ofVisits summary before = .finished found) :
    ∀ visit ∈ before, visit.fault = none := by
  induction before generalizing summary with
  | nil => exact fun _ member => nomatch member
  | cons first rest ih =>
      rw [ofVisits] at finished
      cases fault : first.fault with
      | some reason =>
          rw [fault] at finished
          cases finished
      | none =>
          rw [fault] at finished
          exact List.forall_mem_cons.mpr ⟨fault, ih finished⟩

end Ending

end ChoiceExplorer.Search
