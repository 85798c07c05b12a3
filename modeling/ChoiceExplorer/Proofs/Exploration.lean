import ChoiceExplorer.Proofs.Leaves
import ChoiceExplorer.Proofs.StrictProgress
import ChoiceExplorer.Proofs.Summaries
import ChoiceExplorer.Proofs.TreeWalk

/-!
# Exact exploration

A search of a program that does the same in every run visits the leaves of the
choice tree from left to right, up to the first that halts it.  The invariant
ties the stack before each run to a place in the tree, from which what is left
to visit is read off.
-/

namespace ChoiceExplorer.Search

namespace Progress

variable {σ : Type} {program : Program σ} {body : Run (Option Violation)}

theorem visit_of_repeats (repeats : program.Repeats body) (progress : Progress σ) :
    progress.visit program =
      (Execution.start progress.search.options progress.search.stack).visit body := by
  rw [visit, ← Execution.visit_map]
  exact congrArg (Execution.visit _) (repeats progress.state)

theorem left_of_repeats (repeats : program.Repeats body) (progress : Progress σ) :
    progress.left program =
      ((Execution.start progress.search.options progress.search.stack).perform body).2.stack := by
  rw [← repeats progress.state, Execution.perform_map]
  rfl

def remaining (body : Run (Option Violation)) (progress : Progress σ) :
    List (Visit (Option Violation)) :=
  (body.wholeTree progress.search.options).remaining progress.search.stack.toList

/-- The stack before a run marks a place in the tree of the program. -/
def Fits (body : Run (Option Violation)) (progress : Progress σ) : Prop :=
  (body.wholeTree progress.search.options).Fits progress.search.stack.toList

/-- The next run is the first one that remains, and its path stands before the others. -/
theorem remaining_eq (repeats : program.Repeats body) {progress : Progress σ}
    (fits : progress.Fits body) :
    ∃ rest, progress.remaining body = progress.visit program :: rest ∧
      ((progress.visit program).fault = none →
        (body.wholeTree progress.search.options).Completes (progress.left program).toList ∧
          rest = (body.wholeTree progress.search.options).beyond
            (progress.left program).toList) := by
  let started := Execution.start progress.search.options progress.search.stack
  obtain ⟨rest, first, leaves⟩ := Execution.visits body started [] fits
  rw [Visit.after_nil] at first
  rw [visit_of_repeats repeats]
  refine ⟨rest, first, fun unfaulted => ?_⟩
  obtain ⟨path, reached, passed, completes, rest_eq⟩ := leaves unfaulted
  have left : (progress.left program).toList = path := by
    have fresh : started.passed = [] := rfl
    rw [left_of_repeats repeats, Execution.toList_stack, reached, passed, fresh]
    simp [retireIf]
  rw [left]
  exact ⟨completes, rest_eq⟩

/-- A step keeps the place in the tree and leaves the other runs to visit. -/
theorem Follows.remaining_eq (repeats : program.Repeats body) {progress next : Progress σ}
    (follows : Follows program progress next) (fits : progress.Fits body) :
    next.Fits body ∧
      progress.remaining body = progress.visit program :: next.remaining body := by
  obtain ⟨rest, first, leaves⟩ := Progress.remaining_eq repeats fits
  obtain ⟨completes, rfl⟩ := leaves (Visit.fault_of_goes_on follows.goes_on)
  have beyond := ChoiceTree.beyond_eq _ completes
  rw [follows.nextPath?_eq] at beyond
  obtain ⟨fits, remaining⟩ := beyond
  rw [first, ← remaining, Fits, Progress.remaining, follows.options_eq]
  exact ⟨fits, rfl⟩

/-- A search that has no next path has visited all that remained. -/
theorem remaining_of_exhausted (repeats : program.Repeats body) {progress : Progress σ}
    (fits : progress.Fits body) (unfaulted : (progress.visit program).fault = none)
    (exhausted : (progress.left program).next? = none) :
    progress.remaining body = [progress.visit program] := by
  obtain ⟨rest, first, leaves⟩ := Progress.remaining_eq repeats fits
  obtain ⟨completes, rfl⟩ := leaves unfaulted
  have beyond := ChoiceTree.beyond_eq _ completes
  rw [← next?_toList, exhausted] at beyond
  rw [first]
  exact congrArg (progress.visit program :: ·) beyond

/-- With enough budget a search visits what remains, up to the first run that halts it. -/
theorem visits_eq (repeats : program.Repeats body) (budget : Nat) {progress : Progress σ}
    (fits : progress.Fits body)
    (enough : (upTo (Visit.halts progress.search.options)
      (progress.remaining body)).length ≤ budget) :
    progress.visits program budget =
        upTo (Visit.halts progress.search.options) (progress.remaining body) ∧
      (progress.explore program budget).1 ≠ .unfinished := by
  induction budget generalizing progress with
  | zero =>
      obtain ⟨rest, first, -⟩ := Progress.remaining_eq repeats fits
      rw [first, upTo] at enough
      exact absurd enough (Nat.not_succ_le_zero _)
  | succ budget ih =>
      rcases step_cases program progress with
          ⟨fault, last, faulted, stepped⟩ | ⟨last, unfaulted, ends, stepped⟩ | ⟨next, follows⟩
      · obtain ⟨rest, first, -⟩ := Progress.remaining_eq repeats fits
        have halts : (progress.visit program).halts progress.search.options = true := by
          rw [Visit.halts, faulted]
          rfl
        rw [visits, trail_of_ended stepped, explore_of_ended stepped, first, upTo, if_pos halts]
        exact ⟨rfl, by simp⟩
      · rw [visits, trail_of_ended stepped, explore_of_ended stepped]
        rcases ends with halts | exhausted
        · obtain ⟨rest, first, -⟩ := Progress.remaining_eq repeats fits
          rw [first, upTo, if_pos halts]
          exact ⟨rfl, by simp⟩
        · rw [remaining_of_exhausted repeats fits unfaulted exhausted]
          simp [upTo]
      · obtain ⟨next_fits, first⟩ := follows.remaining_eq repeats fits
        rw [first, upTo, follows.goes_on] at enough ⊢
        rw [visits, trail_of_step follows.stepped, explore_of_step follows.stepped]
        rw [← follows.options_eq] at enough ⊢
        obtain ⟨rest, ended⟩ := ih next_fits (Nat.le_of_succ_le_succ enough)
        exact ⟨congrArg (progress.visit program :: ·) rest, ended⟩

end Progress

/-- A search visits the leaves of the choice tree, up to the first that halts it. -/
theorem makes_of_repeats {σ : Type} {program : Program σ} {body : Run (Option Violation)}
    (repeats : program.Repeats body) (search : Search) (state : σ) :
    let visits := upTo (Visit.halts search.options) (body.wholeTree search.options).leaves
    search.Makes program state visits (.ofVisits {} visits) := by
  intro visits
  let outset := search.outset state
  have remaining : outset.remaining body = (body.wholeTree search.options).leaves :=
    ChoiceTree.remaining_nil _
  have fits : outset.Fits body := ChoiceTree.fits_nil _
  have enough : (upTo (Visit.halts search.options) (outset.remaining body)).length ≤
      visits.length :=
    Nat.le_of_eq (congrArg (fun left => (upTo (Visit.halts search.options) left).length) remaining)
  obtain ⟨visited, ended⟩ := Progress.visits_eq repeats visits.length fits enough
  have makes := search.makes_of_run ended
  have same : search.visits program state visits.length = visits := by
    rw [remaining] at visited
    exact visited
  rw [makes.ending_eq, same] at makes
  exact makes

/-- A search that goes on after violations is halted by faults only. -/
theorem halts_eq {options : Options} (multiple : options.multipleErrors = true)
    (visit : Visit (Option Violation)) : visit.halts options = visit.fault.isSome := by
  simp [Visit.halts, multiple]

/-- A search without faults that goes on after violations visits all leaves. -/
theorem makes_leaves {σ : Type} {program : Program σ} {body : Run (Option Violation)}
    (repeats : program.Repeats body) (search : Search) (state : σ)
    (multiple : search.options.multipleErrors = true)
    (unfaulted : ∀ leaf ∈ (body.wholeTree search.options).leaves, leaf.fault = none) :
    search.Makes program state (body.wholeTree search.options).leaves
      (.finished (.closed (body.wholeTree search.options).leaves)) := by
  have makes := makes_of_repeats repeats search state
  have all : upTo (Visit.halts search.options) (body.wholeTree search.options).leaves =
      (body.wholeTree search.options).leaves := by
    refine upTo_of_forall fun leaf member => ?_
    rw [halts_eq multiple, unfaulted leaf member]
    rfl
  simp only [all, Ending.ofVisits_of_unfaulted unfaulted] at makes
  exact makes

/-- A search that goes on after violations and finishes has visited all leaves. -/
theorem eq_leaves_of_finished {σ : Type} {program : Program σ} {body : Run (Option Violation)}
    {search : Search} {state : σ} {visits : List (Visit (Option Violation))} {summary : Summary}
    (repeats : program.Repeats body) (multiple : search.options.multipleErrors = true)
    (makes : search.Makes program state visits (.finished summary)) :
    visits = (body.wholeTree search.options).leaves ∧
      (∀ visit ∈ visits, visit.fault = none) ∧ summary = .closed visits := by
  obtain ⟨visits_eq, -⟩ := makes.unique (makes_of_repeats repeats search state)
  have unfaulted := Ending.unfaulted_of_ofVisits makes.ending_eq.symm
  refine ⟨?_, unfaulted, ?_⟩
  · rw [visits_eq] at unfaulted ⊢
    refine upTo_eq_self fun visit member => ?_
    rw [halts_eq multiple, unfaulted visit member]
    rfl
  · have finished := Ending.ofVisits_of_unfaulted unfaulted
    rw [← makes.ending_eq] at finished
    exact Ending.finished.inj finished

/--
Without a depth limit, and going on after violations, a search visits exactly the
leaves of the choice tree, from left to right and each once, where the positions of
a choice point run through its alternatives in their order: false before true, from
the least number to the greatest, and as they are listed.  If no leaf asks for an
empty choice it finds the failing leaves in their order, and else it ends at the
first that does.  Every script that never asks for the number of the run has such a
tree.
-/
theorem visits_exactly_the_leaves {σ : Type} (search : Search) (program : Program σ) (state : σ)
    (body : Run (Option Violation)) (repeats : program.Repeats body)
    (unlimited : search.options.depthLimit = none)
    (multiple : search.options.multipleErrors = true) :
    let leaves := (body.wholeTree search.options).leaves
    ((∀ leaf ∈ leaves, leaf.fault = none) →
      search.Makes program state leaves
        (.finished
          { violations := records leaves
            pathsExplored := leaves.length
            truncatedPaths := 0
            maxDepth := longest leaves })) ∧
    (∀ before stuck after, leaves = before ++ stuck :: after →
      (∀ leaf ∈ before, leaf.fault = none) → stuck.fault ≠ none →
      ∃ id, stuck.fault = some (.emptyChoice id) ∧
        search.Makes program state (before ++ [stuck]) (.faulted (.emptyChoice id))) ∧
    (∀ visits ending, search.Makes program state visits ending →
      (visits.map Visit.path).Pairwise fun earlier later =>
        ∃ depth, AgreeTo (· < ·) depth earlier later) ∧
    (∀ request : Request,
      (List.range request.alternatives.size).map request.value = request.alternatives.toList) ∧
    Request.bool.alternatives.toList = [.bool false, .bool true] ∧
    (∀ min max : Int, (Request.int min max).alternatives.toList =
      (List.range (max + 1 - min).toNat).map fun (offset : Nat) => .int (min + offset)) ∧
    ∀ script, Script.numberlessAll script = true →
      (Script.program script).Repeats (Script.body script) := by
  intro leaves
  refine ⟨fun unfaulted => ?_, fun before stuck after parted unfaulted faulted => ?_,
    fun visits ending makes => makes.pairwise_agree, Request.values_eq,
    rfl, Request.int_values, fun script => Script.program_repeats⟩
  · have makes := makes_leaves repeats search state multiple unfaulted
    have untruncated : leaves.countP Visit.truncated = 0 := by
      rw [List.countP_eq_zero]
      intro leaf member
      rw [Options.untruncated_of_mem_leaves unlimited body member]
      exact Bool.false_ne_true
    rw [Summary.closed, untruncated] at makes
    exact makes
  · have member : stuck ∈ leaves := by
      rw [parted]
      exact List.mem_append_right _ List.mem_cons_self
    rcases search.options.fault_of_mem_leaves body member with none_here | ⟨id, fault⟩
    · exact absurd none_here faulted
    · refine ⟨id, fault, ?_⟩
      have makes := makes_of_repeats repeats search state
      have first : upTo (Visit.halts search.options) leaves = before ++ [stuck] := by
        rw [parted]
        refine upTo_append_cons (fun leaf member => ?_) ?_
        · rw [halts_eq multiple, unfaulted leaf member]
          rfl
        · rw [halts_eq multiple, fault]
          rfl
      simp only [leaves] at first
      simp only [first, Ending.ofVisits_of_fault unfaulted fault] at makes
      exact makes

def prunedScript : List Script.Statement :=
  [.ask (.choose .bool) none (some "flag"),
    .branch [("flag", "true")] [.fail none [.text "no number"]] [],
    .ask (.choose (.int 1 3)) none (some "number"),
    .branch [("number", "2")] [.ignoreRest] []]

theorem pruned_visits_exactly_the_leaves :
    let search : Search := { options := { multipleErrors := true } }
    let leaves := ((Script.body prunedScript).wholeTree search.options).leaves
    leaves.map Visit.answers =
      [[.value (.bool false), .value (.int 1)], [.value (.bool false), .value (.int 2)],
        [.value (.bool true)]] ∧
    search.Makes (Script.program prunedScript) #[] leaves
      (.finished
        { violations := records leaves
          pathsExplored := 3
          truncatedPaths := 0
          maxDepth := 2 }) := by
  intro search leaves
  have repeats : (Script.program prunedScript).Repeats (Script.body prunedScript) :=
    Script.program_repeats rfl
  have unfaulted : ∀ leaf ∈ leaves, leaf.fault = none := by decide
  exact ⟨rfl, (visits_exactly_the_leaves search (Script.program prunedScript) #[]
    (Script.body prunedScript) repeats rfl rfl).1 unfaulted⟩

end ChoiceExplorer.Search
