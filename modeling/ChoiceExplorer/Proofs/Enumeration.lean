import ChoiceExplorer.Proofs.BlindRuns
import ChoiceExplorer.Proofs.Draws
import ChoiceExplorer.Proofs.Exploration
import Mathlib.Data.List.Flatten

/-!
# Enumerated random values

Where random values are enumerated, a choice point stands for each draw.  What is
drawn is one of its alternatives, so that each run with drawn values goes as one of
the runs with enumerated values, in the same order.
-/

namespace ChoiceExplorer.Search

def Options.withEnumeration (options : Options) (enumerate : Bool) : Options :=
  { options with enumerateRandom := enumerate }

def withEnumeration (search : Search) (enumerate : Bool) : Search :=
  { search with options := search.options.withEnumeration enumerate }

variable {α : Type}

/-- What a run was given and how it ended, apart from its path. -/
def Visit.outcome (visit : Visit α) : List Answer × Option Fault × α :=
  (visit.answers, visit.fault, visit.result)

/-- A run that has a fault comes to an end with it. -/
theorem Course.exists_leaf_of_fault (options : Options) (run : Run α) {course : Course}
    {reason : Fault} (faulted : course.fault = some reason) :
    ∃ leaf ∈ (run.tree options course).leaves, leaf.fault = some reason := by
  have is_some : ∀ {course : Course}, course.fault = some reason →
      course.fault.isSome = true := fun faulted => by rw [faulted]; rfl
  induction run generalizing course with
  | done result => exact ⟨_, List.mem_singleton_self _, faulted⟩
  | tag location next ih => exact ih faulted
  | ignoreRest next ih =>
      rw [Run.tree, if_pos (is_some faulted)]
      exact ih faulted
  | depth next ih => exact ih _ faulted
  | choose request next ih =>
      rw [Run.tree, ask_of_fault (is_some faulted)]
      exact ih _ faulted
  | draw source next ih =>
      rw [Run.tree]
      split
      · rw [ask_of_fault (is_some faulted)]
        exact ih _ faulted
      · exact ih _ faulted

section

variable {options : Options} {request : Request} {next : Value → Run α} {course : Course}

/-- A request after which no run has a fault offers alternatives. -/
theorem offers_of_unfaulted (fault : course.fault = none)
    (unfaulted : ∀ leaf ∈ (course.ask options request fun value course =>
      (next value).tree options course).leaves, leaf.fault = none) :
    request.alternatives.size ≠ 0 := by
  intro empty
  rw [Course.ask_of_empty fault empty] at unfaulted
  let stuck : Course :=
    { course.note (.value request.alternatives.fallback) with
      fault := some (.emptyChoice request.id) }
  have is_stuck : stuck.fault = some (.emptyChoice request.id) := rfl
  obtain ⟨leaf, member, faulted⟩ :=
    Course.exists_leaf_of_fault options (next request.alternatives.fallback) is_stuck
  rw [unfaulted leaf member] at faulted
  cases faulted

/-- Without a depth limit a request leads to the runs of a blind program after each alternative. -/
theorem leaves_ask_of_blind (unlimited : options.depthLimit = none) (fault : course.fault = none)
    (offers : request.alternatives.size ≠ 0)
    (blind : ∀ position, (next (request.value position)).Blind) :
    (course.ask options request fun value course => (next value).tree options course).leaves =
      (List.range request.alternatives.size).flatMap fun position =>
        ((next (request.value position)).tree options (course.pass request position)).leaves := by
  have room : options.isFull course.path.length = false := by
    rw [Options.isFull, unlimited]
    rfl
  rw [Course.ask_of_room fault offers room]
  exact leaves_node_of_blind fun position => givesUp_of_blind (blind position) _ _

end

/-- Runs with drawn values go as some of those with enumerated values, in their order. -/
theorem outcomes_sublist {options : Options} (unlimited : options.depthLimit = none)
    {run : Run α} (blind : run.Blind) (listed : run.Listed) {drawing enumerating : Course}
    (same : drawing.answers = enumerating.answers) (drawing_fault : drawing.fault = none)
    (enumerating_fault : enumerating.fault = none)
    (unfaulted : ∀ leaf ∈ (run.tree (options.withEnumeration true) enumerating).leaves,
      leaf.fault = none) :
    ((run.tree (options.withEnumeration false) drawing).leaves.map Visit.outcome).Sublist
      ((run.tree (options.withEnumeration true) enumerating).leaves.map Visit.outcome) := by
  have still (enumerate : Bool) : (options.withEnumeration enumerate).depthLimit = none :=
    unlimited
  induction run generalizing drawing enumerating with
  | done result =>
      have equal : (drawing.visit result).outcome = (enumerating.visit result).outcome := by
        simp [Visit.outcome, Course.visit, same, drawing_fault, enumerating_fault]
      simp only [Run.tree, ChoiceTree.leaves, List.map_singleton, equal, List.Sublist.refl]
  | tag location next ih => exact ih blind listed same drawing_fault enumerating_fault unfaulted
  | ignoreRest next ih => exact blind.elim
  | depth next ih => exact blind.elim
  | choose request next ih =>
      have offers := offers_of_unfaulted enumerating_fault unfaulted
      have branches := leaves_ask_of_blind (still true) enumerating_fault offers blind
      rw [Run.tree, branches] at unfaulted
      rw [Run.tree, Run.tree, branches, List.map_flatMap,
        leaves_ask_of_blind (still false) drawing_fault offers blind, List.map_flatMap]
      refine List.Sublist.flatMap_right _ fun position member => ?_
      refine ih _ (blind position) (listed position) ?_ drawing_fault enumerating_fault
        fun leaf below => unfaulted leaf (List.mem_flatMap.mpr ⟨position, member, below⟩)
      simp [Course.pass, Course.note, same]
  | draw source next ih =>
      obtain ⟨is_listed, drawn_listed, asked_listed⟩ := listed
      have drawn : ((Run.draw source next).tree (options.withEnumeration false) drawing) =
          (next (source.take drawing.random).1).tree (options.withEnumeration false)
            { drawing.note (.value (source.take drawing.random).1) with
              random := (source.take drawing.random).2 } := rfl
      have asks : (options.withEnumeration true).request? source = source.request? := rfl
      rw [drawn]
      rw [Run.tree, asks] at unfaulted ⊢
      cases asked : source.request? with
      | none =>
          simp only [asked, source.take_of_unasked is_listed asked] at unfaulted ⊢
          have at_zero := blind.1 enumerating.random
          have listed_at_zero := drawn_listed enumerating.random
          rw [source.take_of_unasked is_listed asked] at at_zero listed_at_zero
          refine ih _ at_zero listed_at_zero ?_ drawing_fault enumerating_fault unfaulted
          simp [Course.note, same]
      | some request =>
          simp only [asked] at unfaulted ⊢
          have offers := offers_of_unfaulted enumerating_fault unfaulted
          rw [leaves_ask_of_blind (still true) enumerating_fault offers (blind.2 request asked)]
            at unfaulted ⊢
          -- The drawn value is one alternative, and the runs after it are those of one branch.
          obtain ⟨position, within, value_eq⟩ :=
            source.exists_position is_listed asked drawing.random
          have member : position ∈ List.range request.alternatives.size :=
            List.mem_range.mpr within
          rw [← value_eq, List.map_flatMap]
          refine List.Sublist.trans ?_
            ((List.singleton_sublist.mpr member).flatMap _)
          rw [List.flatMap_singleton]
          refine ih _ (blind.2 request asked position) (asked_listed request asked position) ?_
            drawing_fault enumerating_fault
            fun leaf below => unfaulted leaf (List.mem_flatMap.mpr ⟨position, member, below⟩)
          simp [Course.pass, Course.note, same]

/-- The violations found are those that the runs ended with. -/
theorem violation_records (visits : List (Visit (Option Violation))) :
    (records visits).map Record.violation = (visits.map Visit.outcome).filterMap (·.2.2) := by
  have unnumbered : (records visits).map Record.violation =
      (visits.filterMap Visit.failure?).map Prod.fst := by
    refine List.ext_getElem? fun place => ?_
    rw [records, List.getElem?_map, List.getElem?_mapIdx, List.getElem?_map, Option.map_map]
    rfl
  rw [unnumbered, List.map_filterMap, List.filterMap_map]
  refine congrArg (List.filterMap · visits) (funext fun visit => ?_)
  rw [Visit.failure?, Option.map_map]
  exact Option.map_id'

/--
If a search that enumerates random values finishes, so does the search that draws
them.  Its runs are given the values of some of the runs of the other, in the same
order and with the same results, and what it finds is found by the other too.  This
is said without a depth limit and going on after violations, of programs that do the
same in every run, that draw only truth values and whole numbers, and that neither
ask how deep they are nor give up alternatives, as scripts that do so do.
-/
theorem enumerating_covers_drawing {σ : Type} (search : Search) (program : Program σ) (state : σ)
    (body : Run (Option Violation)) (visits : List (Visit (Option Violation))) (summary : Summary)
    (repeats : program.Repeats body) (blind : body.Blind) (listed : body.Listed)
    (unlimited : search.options.depthLimit = none)
    (multiple : search.options.multipleErrors = true)
    (makes : (search.withEnumeration true).Makes program state visits (.finished summary)) :
    (∃ drawn found,
      (search.withEnumeration false).Makes program state drawn (.finished found) ∧
      (drawn.map Visit.answers).Sublist (visits.map Visit.answers) ∧
      (drawn.map fun visit => (visit.answers, visit.result)).Sublist
        (visits.map fun visit => (visit.answers, visit.result)) ∧
      ∀ record ∈ found.violations, ∃ other ∈ summary.violations,
        other.violation = record.violation) ∧
    ∀ script, Script.blindAll script = true → Script.listedAll script = true →
      (Script.body script).Blind ∧ (Script.body script).Listed := by
  refine ⟨?_, fun script blind listed => ⟨Script.body_blind blind, Script.body_listed listed⟩⟩
  have going (enumerate : Bool) :
      (search.withEnumeration enumerate).options.multipleErrors = true := multiple
  obtain ⟨rfl, unfaulted, rfl⟩ := eq_leaves_of_finished repeats (going true) makes
  let drawn := (body.wholeTree (search.withEnumeration false).options).leaves
  let enumerated := (body.wholeTree (search.withEnumeration true).options).leaves
  have covered : (drawn.map Visit.outcome).Sublist (enumerated.map Visit.outcome) :=
    outcomes_sublist unlimited blind listed rfl rfl rfl unfaulted
  have drawn_unfaulted : ∀ visit ∈ drawn, visit.fault = none := by
    intro visit member
    obtain ⟨other, other_member, same⟩ :=
      List.mem_map.mp (covered.subset (List.mem_map_of_mem member))
    have fault_eq : other.fault = visit.fault := congrArg (·.2.1) same
    rw [← fault_eq, unfaulted other other_member]
  have found := covered.filterMap (·.2.2)
  rw [← violation_records, ← violation_records] at found
  have answers := covered.map (·.1)
  have results := covered.map fun outcome => (outcome.1, outcome.2.2)
  rw [List.map_map, List.map_map] at answers results
  refine ⟨drawn, .closed drawn, makes_leaves repeats _ state (going false) drawn_unfaulted,
    answers, results, fun record member => ?_⟩
  obtain ⟨other, other_member, same⟩ :=
    List.mem_map.mp (found.subset (List.mem_map_of_mem member))
  exact ⟨other, other_member, same⟩

def drawingScript : List Script.Statement :=
  [.ask (.draw (.int 0)) none none,
    .ask (.draw (.int 3)) none (some "number"),
    .ask (.choose .bool) none (some "flag"),
    .branch [("flag", "true"), ("number", "2")] [.fail none [.text "two"]] []]

theorem drawing_enumerating_covers_drawing :
    let search : Search := { options := { seed := 4, multipleErrors := true } }
    let enumerating := search.options.withEnumeration true
    let visits := ((Script.body drawingScript).wholeTree enumerating).leaves
    visits.length = 6 ∧
    ∃ drawn found,
      (search.withEnumeration false).Makes (Script.program drawingScript) #[] drawn
        (.finished found) ∧
      drawn.map Visit.answers =
        [[.value (.int 0), .value (.int 2), .value (.bool false)],
          [.value (.int 0), .value (.int 2), .value (.bool true)]] ∧
      (drawn.map Visit.answers).Sublist (visits.map Visit.answers) ∧
      found.violations.map Record.violation = [.uncaught "two"] ∧
      ∀ record ∈ found.violations, ∃ other ∈ records visits,
        other.violation = record.violation := by
  intro search enumerating visits
  have repeats : (Script.program drawingScript).Repeats (Script.body drawingScript) :=
    Script.program_repeats rfl
  have enumerated : (search.withEnumeration true).Makes (Script.program drawingScript) #[] visits
      (.finished (.closed visits)) :=
    makes_leaves repeats (search.withEnumeration true) #[] rfl (by decide)
  obtain ⟨⟨drawn, found, makes, answers, -, covered⟩, -⟩ :=
    enumerating_covers_drawing search (Script.program drawingScript) #[]
      (Script.body drawingScript) visits (.closed visits) repeats (Script.body_blind rfl)
      (Script.body_listed rfl) rfl rfl enumerated
  obtain ⟨drawn_eq, -, found_eq⟩ := eq_leaves_of_finished repeats rfl makes
  have outcomes : drawn.map Visit.outcome =
      [([.value (.int 0), .value (.int 2), .value (.bool false)], none, none),
        ([.value (.int 0), .value (.int 2), .value (.bool true)], none,
          some (.uncaught "two"))] := by
    rw [drawn_eq]
    decide +kernel
  have logs := congrArg (List.map Prod.fst) outcomes
  rw [List.map_map] at logs
  refine ⟨rfl, drawn, found, makes, logs, answers, ?_, covered⟩
  rw [found_eq]
  show (records drawn).map Record.violation = _
  rw [violation_records, outcomes]
  rfl

end ChoiceExplorer.Search
