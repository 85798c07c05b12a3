import ChoiceExplorer.Proofs.Keeping
import ChoiceExplorer.Proofs.Trail

/-!
# Walking a choice tree

A path of generators marks a place in the tree of a run.  What remains to be
visited from there is read off the tree: the leaves under the path and those
under later positions of its generators.  A run visits the first remaining leaf,
and the next path stands before the second one.
-/

namespace ChoiceExplorer.Search

namespace ChoiceTree

variable {α : Type}

/-- The runs at a choice point from a position on. -/
def later (size : Nat) (below : Nat → ChoiceTree α) (first : Nat) : List (Visit α) :=
  (upTo (fun position => (below position).givesUp)
    (List.range' first (size - first))).flatMap fun position => (below position).leaves

variable {size first : Nat} {below : Nat → ChoiceTree α}

theorem later_of_lt (lt : first < size) :
    later size below first =
      (below first).leaves ++
        if (below first).givesUp then [] else later size below (first + 1) := by
  obtain ⟨count, left⟩ : ∃ count, size - first = count + 1 := ⟨size - first - 1, by omega⟩
  have next : size - (first + 1) = count := by omega
  rw [later, left, List.range'_succ, upTo, List.flatMap_cons, later, next]
  split <;> rfl

theorem later_of_le (le : size ≤ first) : later size below first = [] := by
  rw [later, Nat.sub_eq_zero_of_le le]
  rfl

theorem leaves_node (request : Request) :
    (node request below).leaves = later request.alternatives.size below 0 := by
  rw [leaves, later, List.range_eq_range', Nat.sub_zero]

/-- A path whose generators stand at choice points of the tree, retired only where it says so. -/
def Fits : ChoiceTree α → List Generator → Prop
  | leaf _, path => path = []
  | ignored rest, path => rest.Fits path
  | node _ _, [] => True
  | node request below, generator :: path =>
      generator.Serves request ∧
        (generator.retired = true → (below (generator.taken - 1)).givesUp = true) ∧
        (below (generator.taken - 1)).Fits path

/-- A path that leads to a leaf, with every generator retired that the program gave up. -/
def Completes : ChoiceTree α → List Generator → Prop
  | leaf _, path => path = []
  | ignored rest, path => rest.Completes path
  | node _ _, [] => False
  | node request below, generator :: path =>
      generator.Serves request ∧
        generator.retired = (below (generator.taken - 1)).givesUp ∧
        (below (generator.taken - 1)).Completes path

/-- What is left to visit from a path on, the runs under the path included. -/
def remaining : ChoiceTree α → List Generator → List (Visit α)
  | leaf visit, _ => [visit]
  | ignored rest, path => rest.remaining path
  | node request below, [] => (node request below).leaves
  | node request below, generator :: path =>
      (below (generator.taken - 1)).remaining path ++
        if (below (generator.taken - 1)).givesUp then []
        else later request.alternatives.size below generator.taken

def beyond : ChoiceTree α → List Generator → List (Visit α)
  | leaf _, _ => []
  | ignored rest, path => rest.beyond path
  | node _ _, [] => []
  | node request below, generator :: path =>
      (below (generator.taken - 1)).beyond path ++
        if generator.retired then []
        else later request.alternatives.size below generator.taken

theorem fits_nil (tree : ChoiceTree α) : tree.Fits [] := by
  induction tree with
  | leaf visit => rfl
  | ignored rest ih => exact ih
  | node request below ih => trivial

theorem remaining_nil (tree : ChoiceTree α) : tree.remaining [] = tree.leaves := by
  induction tree with
  | leaf visit => rfl
  | ignored rest ih => exact ih
  | node request below ih => rfl

/-- A generator that advances stands before the later alternatives of its choice point. -/
theorem later_of_hasMore {request : Request} {generator : Generator}
    (serves : generator.Serves request) (more : generator.hasMore = true) :
    (node request below).Fits [generator.advance] ∧
      (node request below).remaining [generator.advance] =
        later request.alternatives.size below generator.taken := by
  obtain ⟨-, -, taken_eq, unretired, -⟩ := Generator.advance_of_hasMore more
  have lt : generator.taken < request.alternatives.size := by
    rw [← serves.alternatives_eq]
    exact Generator.taken_lt_of_hasMore more
  constructor
  · refine ⟨serves.advance more, fun gone => ?_, fits_nil _⟩
    rw [unretired] at gone
    cases gone
  · rw [remaining, taken_eq, Nat.add_sub_cancel, remaining_nil, later_of_lt lt]

/-- The next path stands before what is left to visit after a run. -/
theorem beyond_eq (tree : ChoiceTree α) {path : List Generator} (completes : tree.Completes path) :
    match nextPath? path with
    | none => tree.beyond path = []
    | some next => tree.Fits next ∧ tree.remaining next = tree.beyond path := by
  induction tree generalizing path with
  | leaf visit =>
      cases completes
      rfl
  | ignored rest ih => exact ih completes
  | node request below ih =>
      match path, completes with
      | generator :: path, ⟨serves, retired, completes⟩ =>
          have deeper := ih (generator.taken - 1) completes
          rw [nextPath?]
          cases found : nextPath? path with
          | some next =>
              rw [found] at deeper
              obtain ⟨fits, same⟩ := deeper
              refine ⟨⟨serves, fun gone => retired ▸ gone, fits⟩, ?_⟩
              rw [remaining, same, beyond, ← retired]
          | none =>
              rw [found] at deeper
              rw [beyond, deeper, List.nil_append]
              cases more : generator.hasMore with
              | true =>
                  rw [Generator.unretired_of_hasMore more]
                  exact later_of_hasMore serves more
              | false =>
                  cases gone : generator.retired with
                  | true => rfl
                  | false =>
                      have le := Generator.size_le_of_exhausted more gone
                      rw [serves.alternatives_eq] at le
                      exact later_of_le le

end ChoiceTree

namespace Course

variable {α : Type} {options : Options}

/-- Whether no choice point can be passed any more. -/
def Closed (options : Options) (course : Course) : Prop :=
  course.fault.isSome = true ∨ options.isFull course.path.length = true

/-- A request at a closed course leads to a closed course. -/
theorem ask_of_closed {course : Course} {request : Request} {next : Value → Course → ChoiceTree α}
    (closed : course.Closed options) :
    ∃ value reached, Closed options reached ∧
      course.ask options request next = next value reached := by
  cases fault : course.fault with
  | some reason =>
      have isSome : course.fault.isSome = true := by rw [fault]; rfl
      exact ⟨_, course.note _, .inl isSome, ask_of_fault isSome⟩
  | none =>
      have full : options.isFull course.path.length = true := by
        rcases closed with isSome | full
        · rw [fault] at isSome
          cases isSome
        · exact full
      by_cases offers : request.alternatives.size = 0
      · exact ⟨_, { course.note _ with fault := some _ }, .inl rfl, ask_of_empty fault offers⟩
      · exact ⟨_, { course.note _ with truncated := true }, .inr full,
          ask_of_full fault offers full⟩

/-- No choice point is left in the tree of a closed course. -/
theorem fits_of_closed (run : Run α) {course : Course} (closed : course.Closed options)
    {path : List Generator} (fits : (run.tree options course).Fits path) : path = [] := by
  induction run generalizing course with
  | done result => exact fits
  | tag location next ih => exact ih closed fits
  | ignoreRest next ih =>
      rw [Run.tree] at fits
      split at fits
      · exact ih closed fits
      · exact ih closed fits
  | depth next ih =>
      have still : Closed options (course.note (.passed course.path.length)) := closed
      exact ih _ still fits
  | choose request next ih =>
      rw [Run.tree] at fits
      obtain ⟨value, reached, still, same⟩ := ask_of_closed closed
      rw [same] at fits
      exact ih value still fits
  | draw source next ih =>
      rw [Run.tree] at fits
      split at fits
      · obtain ⟨value, reached, still, same⟩ := ask_of_closed closed
        rw [same] at fits
        exact ih value still fits
      · let drawn := source.take course.random
        have still : Closed options
            { course.note (.value drawn.1) with random := drawn.2 } := closed
        exact ih drawn.1 still fits

end Course

/-- Retire the newest generator of a path, newest first, if the program gives it up. -/
def retireIf (givenUp : Bool) : List Generator → List Generator
  | [] => []
  | newest :: older => if givenUp then newest.retire :: older else newest :: older

/--
A run visits the first leaf that remains, and a run without a fault leaves the
path of this leaf behind.
-/
def Reaches {α : Type} (tree : ChoiceTree α) (passed ahead : List Generator) (visit : Visit α)
    (final : Execution) : Prop :=
  ∃ rest, tree.remaining ahead = visit :: rest ∧
    (final.fault = none → ∃ path, final.ahead = [] ∧
      final.passed = path.reverse ++ retireIf tree.givesUp passed ∧
      tree.Completes path ∧ rest = tree.beyond path)

@[simp] theorem retireIf_false (passed : List Generator) : retireIf false passed = passed := by
  cases passed <;> rfl

namespace Reaches

variable {α : Type} {visit : Visit α} {final : Execution} {passed ahead : List Generator}

/-- A generator that is passed stands at a node of the tree. -/
theorem pass {request : Request} {below : Nat → ChoiceTree α} {generator : Generator}
    {deeper : List Generator} (serves : generator.Serves request)
    (retired : generator.retired = true → (below (generator.taken - 1)).givesUp = true)
    (remaining_eq : (ChoiceTree.node request below).remaining ahead =
      (below (generator.taken - 1)).remaining deeper ++
        if (below (generator.taken - 1)).givesUp then []
        else ChoiceTree.later request.alternatives.size below generator.taken)
    (reaches : Reaches (below (generator.taken - 1)) (generator :: passed) deeper visit final) :
    Reaches (.node request below) passed ahead visit final := by
  obtain ⟨rest, first, leaves⟩ := reaches
  refine ⟨_, by rw [remaining_eq, first, List.cons_append], fun unfaulted => ?_⟩
  obtain ⟨path, reached, passed_eq, completes, rfl⟩ := leaves unfaulted
  cases givenUp : (below (generator.taken - 1)).givesUp with
  | true =>
      rw [givenUp] at passed_eq
      refine ⟨generator.retire :: path, reached, ?_, ⟨serves.retire, givenUp.symm, completes⟩, ?_⟩
      · rw [ChoiceTree.givesUp, retireIf_false, List.reverse_cons, List.append_assoc]
        exact passed_eq
      · simp [ChoiceTree.beyond, Generator.retire]
  | false =>
      have kept : generator.retired = false := by
        cases gone : generator.retired with
        | true => simp [retired gone] at givenUp
        | false => rfl
      rw [givenUp] at passed_eq
      refine ⟨generator :: path, reached, ?_, ⟨serves, kept.trans givenUp.symm, completes⟩, ?_⟩
      · rw [ChoiceTree.givesUp, retireIf_false, List.reverse_cons, List.append_assoc]
        exact passed_eq
      · simp [ChoiceTree.beyond, kept]

end Reaches

namespace Execution

variable {α : Type}

def course (execution : Execution) (log : List Answer) : Course where
  path := execution.passed.reverse.map Generator.bare
  answers := log
  random := execution.random
  truncated := execution.truncated
  fault := execution.fault

def Visits (execution : Execution) (run : Run α) : Prop :=
  ∀ log, (run.tree execution.options (execution.course log)).Fits execution.ahead →
    Reaches (run.tree execution.options (execution.course log)) execution.passed execution.ahead
      ((execution.visit run).after log) (execution.perform run).2

theorem course_pass {execution : Execution} {request : Request} {generator : Generator}
    (serves : generator.Serves request) (ahead : List Generator) (log : List Answer) :
    Execution.course
        { execution with passed := generator :: execution.passed, ahead, location := none }
        (log ++ [.value (request.value (generator.taken - 1))]) =
      (execution.course log).pass request (generator.taken - 1) := by
  simp [course, Course.pass, Course.note, serves.bare_eq]

/-- A generator that is passed at a choice point leads on to where the rest is visited. -/
theorem pass_visits {execution : Execution} {request : Request} {next : Value → Run α}
    {generator : Generator} {deeper : List Generator} {log : List Answer}
    (ih : ∀ value reached, Visits reached (next value)) (serves : generator.Serves request) :
    let below position := (next (request.value position)).tree execution.options
      ((execution.course log).pass request position)
    let value := request.value (generator.taken - 1)
    let passed : Execution :=
      { execution with
        passed := generator :: execution.passed, ahead := deeper, location := none }
    (generator.retired = true → (below (generator.taken - 1)).givesUp = true) →
    (below (generator.taken - 1)).Fits deeper →
    (ChoiceTree.node request below).remaining execution.ahead =
      (below (generator.taken - 1)).remaining deeper ++
        (if (below (generator.taken - 1)).givesUp then []
        else ChoiceTree.later request.alternatives.size below generator.taken) →
    Reaches (.node request below) execution.passed execution.ahead
      ((passed.visit (next value)).after (log ++ [.value value]))
      (passed.perform (next value)).2 := by
  intro below value passed retired fits remaining_eq
  have reaches := ih value passed (log ++ [.value value])
  rw [course_pass serves] at reaches
  exact .pass serves retired remaining_eq (reaches fits)

/-- Answering a request leads on to where the rest of the run is visited. -/
theorem choose_visits {execution : Execution} {request : Request} {next : Value → Run α}
    (ih : ∀ value reached, Visits reached (next value)) (log : List Answer)
    (fits : ((execution.course log).ask execution.options request fun value course =>
      (next value).tree execution.options course).Fits execution.ahead) :
    Reaches
      ((execution.course log).ask execution.options request fun value course =>
        (next value).tree execution.options course)
      execution.passed execution.ahead
      (((execution.choose request).2.visit (next (execution.choose request).1)).after
        (log ++ [.value (execution.choose request).1]))
      ((execution.choose request).2.perform (next (execution.choose request).1)).2 := by
  cases fault : execution.fault with
  | some reason =>
      have isSome : (execution.course log).fault.isSome = true := by
        rw [course, fault]
        rfl
      rw [Course.ask_of_fault isSome] at fits ⊢
      rw [choose_of_fault isSome]
      exact ih _ { execution with location := none } _ fits
  | none =>
      have unfaulted : (execution.course log).fault = none := fault
      by_cases offers : request.alternatives.size = 0
      · rw [Course.ask_of_empty unfaulted offers] at fits ⊢
        have reached : execution.ahead = [] := Course.fits_of_closed _ (.inl rfl) fits
        rw [choose_of_empty fault reached offers]
        exact ih _ { execution with location := none, fault := some (.emptyChoice request.id) }
          _ fits
      · cases full : execution.options.isFull execution.passed.length with
        | true =>
            have path_full :
                execution.options.isFull (execution.course log).path.length = true := by
              simp [course, full]
            rw [Course.ask_of_full unfaulted offers path_full] at fits ⊢
            have closed : Course.Closed execution.options
                { (execution.course log).note (.value (request.value 0)) with truncated := true } :=
              .inr path_full
            have reached : execution.ahead = [] := Course.fits_of_closed _ closed fits
            rw [choose_of_full fault reached offers full]
            exact ih _ { execution with location := none, truncated := true } _ fits
        | false =>
            have room : execution.options.isFull (execution.course log).path.length = false := by
              simp [course, full]
            rw [Course.ask_of_room unfaulted offers room] at fits ⊢
            cases reached : execution.ahead with
            | cons recorded ahead =>
                -- What is recorded is replayed, and the path goes on in the tree under it.
                rw [reached] at fits
                obtain ⟨serves, retired, fits⟩ := fits
                rw [choose_of_recorded fault reached serves.kind_eq, serves.value_eq, ← reached]
                refine pass_visits ih serves retired fits ?_
                rw [reached]
                rfl
            | nil =>
                -- A new generator takes the first alternative, and all leaves of the node are left.
                obtain ⟨serves, first, unretired, -⟩ := generator_serves execution offers
                have start : request.value 0 =
                    request.value ((execution.generator request).taken - 1) := by
                  rw [first]
                rw [choose_of_new fault reached offers full, start, ← reached]
                refine pass_visits ih serves ?_ ?_ ?_
                · intro gone
                  rw [unretired] at gone
                  cases gone
                · rw [reached]
                  exact ChoiceTree.fits_nil _
                · have lt : 0 < request.alternatives.size := Nat.pos_of_ne_zero offers
                  rw [reached, first, ChoiceTree.remaining_nil, ChoiceTree.remaining_nil,
                    ChoiceTree.leaves_node, ChoiceTree.later_of_lt lt]

theorem retireIf_ignoreRest (givenUp : Bool) (execution : Execution) :
    retireIf givenUp execution.ignoreRest.passed = retireIf true execution.passed := by
  unfold ignoreRest
  split
  · rename_i passed
    rw [passed]
    rfl
  · rename_i newest older passed
    rw [passed]
    cases givenUp <;> rfl

theorem course_ignoreRest (execution : Execution) (log : List Answer) :
    execution.ignoreRest.course log = execution.course log := by
  unfold ignoreRest
  split
  · rfl
  · rename_i newest older passed
    simp [course, passed, Generator.bare_retire]

/-- Every run visits the first leaf that remains under the path it begins with. -/
theorem visits (run : Run α) (execution : Execution) : execution.Visits run := by
  induction run generalizing execution with
  | done result =>
      intro log fits
      refine ⟨[], ?_, fun _ => ⟨[], fits, ?_, rfl, rfl⟩⟩
      · have reached : execution.ahead = [] := fits
        simp [Run.tree, ChoiceTree.remaining, Course.visit, course, visit, answers, perform,
          Visit.after, toList_stack, reached]
      · simp [Run.tree, ChoiceTree.givesUp, perform]
  | tag location next ih => exact ih (execution.tag location)
  | ignoreRest next ih =>
      intro log fits
      have reaches := ih execution.ignoreRest log
      rw [course_ignoreRest, ahead_ignoreRest, ignoreRest_options] at reaches
      rw [Run.tree] at fits ⊢
      split at fits
      · rename_i faulted
        rw [if_pos faulted]
        obtain ⟨rest, first, -⟩ := reaches fits
        -- Nothing is said of the path that a run with a fault leaves behind.
        refine ⟨rest, first, fun unfaulted => ?_⟩
        obtain ⟨fault, fault_eq⟩ := Option.isSome_iff_exists.mp faulted
        rw [perform_fault fault_eq] at unfaulted
        cases unfaulted
      · rename_i unfaulted
        rw [if_neg unfaulted]
        obtain ⟨rest, first, leaves⟩ := reaches fits
        refine ⟨rest, first, fun unfaulted => ?_⟩
        obtain ⟨path, reached, passed_eq, completes, rest_eq⟩ := leaves unfaulted
        rw [retireIf_ignoreRest] at passed_eq
        exact ⟨path, reached, passed_eq, completes, rest_eq⟩
  | depth next ih =>
      intro log fits
      have count : (execution.course log).path.length = execution.depth := by
        simp [course, depth]
      rw [Run.tree, count] at fits ⊢
      have reaches := ih execution.depth execution (log ++ [Answer.passed execution.depth]) fits
      rw [← Visit.after_after] at reaches
      exact reaches
  | choose request next ih =>
      intro log fits
      have reaches := choose_visits ih log fits
      rw [← Visit.after_after] at reaches
      exact reaches
  | draw source next ih =>
      intro log fits
      rw [Run.tree] at fits ⊢
      cases asked : execution.options.request? source with
      | some request =>
          simp only [asked] at fits ⊢
          have reaches := choose_visits ih log fits
          rw [← Visit.after_after, ← draw_of_request asked] at reaches
          exact reaches
      | none =>
          simp only [asked] at fits ⊢
          let value := (source.take execution.random).1
          let drawn : Execution :=
            { execution with random := (source.take execution.random).2, location := none }
          have answered : execution.draw source = (value, drawn) := draw_of_none asked
          have visit_eq : execution.visit (.draw source next) =
              (drawn.visit (next value)).after [.value value] := by
            simp only [visit, perform, answers, answered]
            rfl
          have final_eq : execution.perform (.draw source next) = drawn.perform (next value) := by
            simp only [perform, answered]
          rw [visit_eq, final_eq, Visit.after_after]
          exact ih value drawn (log ++ [Answer.value value]) fits

end Execution

end ChoiceExplorer.Search
