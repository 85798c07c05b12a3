import ChoiceExplorer.Proofs.Keeping

/-!
# Late calls

A call that gives up alternatives is late when the choice before it was taken
past the depth limit.  A run and the run without its late calls are performed in
step: they get the same answers, and leave the same path as long as the late
calls find nothing to give up.
-/

namespace ChoiceExplorer

namespace Generator

/-- A generator as a search goes on with it: retired when nothing is left of it. -/
def prospect (generator : Generator) : Generator :=
  { generator with retired := !generator.hasMore }

@[simp] theorem bare_prospect (generator : Generator) :
    generator.prospect.bare = generator.bare := rfl

@[simp] theorem hasMore_prospect (generator : Generator) :
    generator.prospect.hasMore = generator.hasMore := by
  simp [prospect, hasMore]

theorem prospect_retire (generator : Generator) :
    generator.retire.prospect = generator.prospect.retire := rfl

theorem prospect_of_hasMore {generator : Generator} (more : generator.hasMore = true) :
    generator.prospect = generator := by
  have unretired := unretired_of_hasMore more
  cases generator
  simp_all [prospect]

/-- Nothing changes when a generator is retired of which nothing is left. -/
theorem prospect_retire_of_exhausted {generator : Generator}
    (exhausted : generator.hasMore = false) : generator.retire.prospect = generator.prospect := by
  rw [prospect_retire, prospect, exhausted]
  rfl

end Generator

namespace Search

/-- Whether the last of so many choices is taken past the depth limit. -/
def Options.isPast (options : Options) (count : Nat) : Bool :=
  options.depthLimit.any fun limit => limit < count

def Options.countDraw (options : Options) (source : Chance.Draw) (count : Nat) : Nat :=
  if (options.request? source).isSome then count + 1 else count

end Search

open Search (Options Execution)

/-- A run without its late calls, from where it has asked for so many choices. -/
def Run.withoutLate {α : Type} (options : Options) : Run α → Nat → Run α
  | done result, _ => done result
  | tag location next, count => tag location (withoutLate options next count)
  | ignoreRest next, count =>
      if options.isPast count then withoutLate options next count
      else ignoreRest (withoutLate options next count)
  | depth next, count => depth fun passed => withoutLate options (next passed) count
  | choose request next, count =>
      choose request fun value => withoutLate options (next value) (count + 1)
  | draw source next, count =>
      draw source fun value => withoutLate options (next value) (options.countDraw source count)

namespace Search.Execution

variable {α : Type}

def AtLateCalls (property : Execution → Prop) : Execution → Run α → Nat → Prop
  | _, .done _, _ => True
  | execution, .tag location next, count =>
      AtLateCalls property (execution.tag location) next count
  | execution, .ignoreRest next, count =>
      (execution.options.isPast count = true → property execution) ∧
        AtLateCalls property execution.ignoreRest next count
  | execution, .depth next, count =>
      AtLateCalls property execution (next execution.depth) count
  | execution, .choose request next, count =>
      let (value, execution) := execution.choose request
      AtLateCalls property execution (next value) (count + 1)
  | execution, .draw source next, count =>
      let count := execution.options.countDraw source count
      let (value, execution) := execution.draw source
      AtLateCalls property execution (next value) count

/-- A call that gives up alternatives would find none left. -/
def Spent (execution : Execution) : Prop :=
  ∀ newest ∈ execution.passed.head?, newest.hasMore = false

/-- A call that gives up alternatives would not change how the newest generator looks. -/
def Unseen (view : Generator → Generator) (execution : Execution) : Prop :=
  ∀ newest ∈ execution.passed.head?, view newest.retire = view newest

theorem Spent.unseen {execution : Execution} (spent : execution.Spent) :
    execution.Unseen Generator.prospect :=
  fun newest member => Generator.prospect_retire_of_exhausted (spent newest member)

/-- Two executions whose generators look the same, and that agree otherwise. -/
structure Alike (view : Generator → Generator) (first second : Execution) : Prop where
  options_eq : first.options = second.options
  passed_eq : first.passed.map view = second.passed.map view
  ahead_eq : first.ahead.map view = second.ahead.map view
  random_eq : first.random = second.random
  location_eq : first.location = second.location
  truncated_eq : first.truncated = second.truncated
  fault_eq : first.fault = second.fault

/-- A view of generators that tells their values, and what they look like once retired. -/
structure Tells (view : Generator → Generator) : Prop where
  bare_eq : ∀ first second, view first = view second → first.bare = second.bare
  retire_eq : ∀ first second, view first = view second → view first.retire = view second.retire

theorem tells_bare : Tells Generator.bare :=
  ⟨fun _ _ same => same, fun _ _ same => same⟩

theorem tells_prospect : Tells Generator.prospect where
  bare_eq first second same := by
    rw [← Generator.bare_prospect, same, Generator.bare_prospect]
  retire_eq first second same := by
    rw [Generator.prospect_retire, same, Generator.prospect_retire]

namespace Tells

variable {view : Generator → Generator} {first second : Generator}

theorem kind_eq (tells : Tells view) (same : view first = view second) :
    first.kind = second.kind := by
  have kinds := congrArg Generator.kind (tells.bare_eq first second same)
  exact kinds

theorem value_eq (tells : Tells view) (same : view first = view second) :
    first.value? = second.value? := by
  have values := congrArg Generator.value? (tells.bare_eq first second same)
  exact values

end Tells

theorem draw_options (execution : Execution) (source : Chance.Draw) :
    (execution.draw source).2.options = execution.options := by
  cases asked : execution.options.request? source with
  | some request =>
      rw [draw_of_request asked]
      exact (choose_extends execution request).1
  | none => rw [draw_of_none asked]

namespace Alike

variable {view : Generator → Generator} {first second : Execution}

/-- Executions with the same prospects are told apart by no call. -/
theorem bare (alike : Alike Generator.prospect first second) :
    Alike Generator.bare first second := by
  have bare_eq {list other : List Generator}
      (same : list.map Generator.prospect = other.map Generator.prospect) :
      list.map Generator.bare = other.map Generator.bare := by
    have bares := congrArg (List.map Generator.bare) same
    simp only [List.map_map, Function.comp_def, Generator.bare_prospect] at bares
    exact bares
  exact { alike with passed_eq := bare_eq alike.passed_eq, ahead_eq := bare_eq alike.ahead_eq }

theorem depth_eq (alike : Alike view first second) : first.depth = second.depth := by
  have lengths := congrArg List.length alike.passed_eq
  rw [List.length_map, List.length_map] at lengths
  exact lengths

theorem tag (alike : Alike view first second) (location : String) :
    Alike view (first.tag location) (second.tag location) :=
  { alike with location_eq := rfl }

theorem ignoreRest (alike : Alike view first second) (tells : Tells view) :
    Alike view first.ignoreRest second.ignoreRest := by
  have passed_eq := alike.passed_eq
  unfold Execution.ignoreRest
  match first_passed : first.passed, second_passed : second.passed with
  | [], [] => exact alike
  | [], _ :: _ =>
      rw [first_passed, second_passed] at passed_eq
      cases passed_eq
  | _ :: _, [] =>
      rw [first_passed, second_passed] at passed_eq
      cases passed_eq
  | newest :: older, other :: others =>
      rw [first_passed, second_passed, List.map_cons, List.map_cons, List.cons.injEq] at passed_eq
      obtain ⟨same, rest⟩ := passed_eq
      refine { alike with passed_eq := ?_ }
      simp only [List.map_cons, tells.retire_eq newest other same, rest]

/-- What lies ahead of the first of two executions lies ahead of the second. -/
theorem ahead_cons (alike : Alike view first second) {recorded : Generator}
    {ahead : List Generator} (reached : first.ahead = recorded :: ahead) :
    ∃ other others, second.ahead = other :: others ∧ view recorded = view other ∧
      ahead.map view = others.map view := by
  have ahead_eq := alike.ahead_eq
  rw [reached] at ahead_eq
  match second_ahead : second.ahead with
  | [] =>
      rw [second_ahead] at ahead_eq
      cases ahead_eq
  | other :: others =>
      rw [second_ahead, List.map_cons, List.map_cons, List.cons.injEq] at ahead_eq
      exact ⟨other, others, rfl, ahead_eq.1, ahead_eq.2⟩

theorem ahead_nil (alike : Alike view first second) (reached : first.ahead = []) :
    second.ahead = [] := by
  have ahead_eq := alike.ahead_eq
  rw [reached] at ahead_eq
  exact List.map_eq_nil_iff.mp ahead_eq.symm

/-- A request has the same answer for both and keeps them alike. -/
theorem choose (alike : Alike view first second) (tells : Tells view) (request : Request) :
    (first.choose request).1 = (second.choose request).1 ∧
      Alike view (first.choose request).2 (second.choose request).2 := by
  apply choose_cases (motive := fun answer =>
    answer.1 = (second.choose request).1 ∧ Alike view answer.2 (second.choose request).2)
  case faulted =>
      intro fault
      rw [alike.fault_eq] at fault
      rw [choose_of_fault fault]
      exact ⟨rfl, { alike with location_eq := rfl }⟩
  case replayed =>
      intro recorded ahead fault reached kind
      rw [alike.fault_eq] at fault
      obtain ⟨other, others, other_reached, same, rest⟩ := alike.ahead_cons reached
      rw [tells.kind_eq same] at kind
      rw [choose_of_recorded fault other_reached kind, tells.value_eq same]
      refine ⟨rfl, { alike with passed_eq := ?_, ahead_eq := rest, location_eq := rfl }⟩
      rw [List.map_cons, List.map_cons, same, alike.passed_eq]
  case diverged =>
      intro recorded ahead fault reached kind
      rw [alike.fault_eq] at fault
      obtain ⟨other, others, other_reached, same, rest⟩ := alike.ahead_cons reached
      rw [tells.kind_eq same] at kind ⊢
      rw [choose_of_other fault other_reached kind, alike.depth_eq]
      exact ⟨rfl, { alike with location_eq := rfl, fault_eq := rfl }⟩
  case empty =>
      intro fault reached empty
      rw [alike.fault_eq] at fault
      rw [choose_of_empty fault (alike.ahead_nil reached) empty]
      exact ⟨rfl, { alike with location_eq := rfl, fault_eq := rfl }⟩
  case forced =>
      intro fault reached offers full
      rw [alike.fault_eq] at fault
      rw [alike.options_eq, show first.passed.length = second.passed.length from alike.depth_eq]
        at full
      rw [choose_of_full fault (alike.ahead_nil reached) offers full]
      exact ⟨rfl, { alike with location_eq := rfl, truncated_eq := rfl }⟩
  case new =>
      intro fault reached offers room
      rw [alike.fault_eq] at fault
      rw [alike.options_eq, show first.passed.length = second.passed.length from alike.depth_eq]
        at room
      have made : first.generator request = second.generator request := by
        rw [generator, generator, alike.location_eq]
      rw [choose_of_new fault (alike.ahead_nil reached) offers room, made]
      refine ⟨rfl, { alike with passed_eq := ?_, location_eq := rfl }⟩
      rw [List.map_cons, List.map_cons, alike.passed_eq]

/-- A random value has the same answer for both and keeps them alike. -/
theorem draw (alike : Alike view first second) (tells : Tells view) (source : Chance.Draw) :
    (first.draw source).1 = (second.draw source).1 ∧
      Alike view (first.draw source).2 (second.draw source).2 := by
  cases asked : first.options.request? source with
  | some request =>
      rw [draw_of_request asked, draw_of_request (alike.options_eq ▸ asked)]
      exact alike.choose tells request
  | none =>
      rw [draw_of_none asked, draw_of_none (alike.options_eq ▸ asked), alike.random_eq]
      exact ⟨rfl, { alike with location_eq := rfl, random_eq := rfl }⟩

/-- A call that is not seen may be left out on one side. -/
theorem ignoreRest_left (alike : Alike view first second)
    (unseen : first.Unseen view) :
    Alike view first.ignoreRest second := by
  have passed_eq := alike.passed_eq
  unfold Execution.ignoreRest
  match passed : first.passed with
  | [] => exact alike
  | newest :: older =>
      rw [Unseen, passed] at unseen
      rw [passed] at passed_eq
      refine { alike with passed_eq := ?_ }
      simp only [← passed_eq, List.map_cons, unseen newest rfl]

/-- A run and the run without its late calls are performed in step. -/
theorem perform (tells : Tells view) (run : Run α) {first second : Execution} {count : Nat}
    (alike : Alike view first second)
    (unseen : first.AtLateCalls (Unseen view) run count) :
    (first.perform run).1 = (second.perform (run.withoutLate first.options count)).1 ∧
      Alike view (first.perform run).2
        (second.perform (run.withoutLate first.options count)).2 ∧
      first.answers run = second.answers (run.withoutLate first.options count) := by
  induction run generalizing first second count with
  | done result => exact ⟨rfl, alike, rfl⟩
  | tag location next ih => exact ih (alike.tag location) unseen
  | ignoreRest next ih =>
      obtain ⟨here, later⟩ := unseen
      rw [Run.withoutLate]
      split
      · rename_i late
        have step := ih (alike.ignoreRest_left (here late)) later
        rw [ignoreRest_options] at step
        exact step
      · have step := ih (alike.ignoreRest tells) later
        rw [ignoreRest_options] at step
        exact step
  | depth next ih =>
      obtain ⟨result, still, answers⟩ := ih first.depth alike unseen
      rw [Run.withoutLate]
      simp only [Execution.perform, Execution.answers, ← alike.depth_eq]
      exact ⟨result, still, congrArg _ answers⟩
  | choose request next ih =>
      obtain ⟨answer, alike⟩ := alike.choose tells request
      have step := ih (first.choose request).1 alike unseen
      rw [(choose_extends first request).1] at step
      obtain ⟨result, alike, answers⟩ := step
      rw [Run.withoutLate]
      simp only [Execution.perform, Execution.answers, ← answer]
      exact ⟨result, alike, congrArg _ answers⟩
  | draw source next ih =>
      obtain ⟨answer, alike⟩ := alike.draw tells source
      have step := ih (first.draw source).1 alike unseen
      rw [draw_options] at step
      obtain ⟨result, alike, answers⟩ := step
      rw [Run.withoutLate]
      simp only [Execution.perform, Execution.answers, ← answer]
      exact ⟨result, alike, congrArg _ answers⟩

end Alike

namespace AtLateCalls

variable {property weaker : Execution → Prop}

theorem mono (run : Run α) {execution : Execution} {count : Nat}
    (weaken : ∀ reached, property reached → weaker reached)
    (holds : execution.AtLateCalls property run count) :
    execution.AtLateCalls weaker run count := by
  induction run generalizing execution count with
  | done result => trivial
  | tag location next ih => exact ih holds
  | ignoreRest next ih => exact ⟨fun late => weaken _ (holds.1 late), ih holds.2⟩
  | depth next ih => exact ih _ holds
  | choose request next ih => exact ih _ holds
  | draw source next ih => exact ih _ holds

theorem of_forall {motive : Execution → Prop} (run : Run α) (execution : Execution) (count : Nat)
    (always : ∀ reached passed, reached.options = execution.options →
      reached.options.isPast passed = true → motive reached) :
    execution.AtLateCalls motive run count := by
  induction run generalizing execution count with
  | done result => trivial
  | tag location next ih => exact ih _ _ always
  | ignoreRest next ih =>
      refine ⟨fun late => always execution count rfl late, ih _ _ ?_⟩
      rw [ignoreRest_options]
      exact always
  | depth next ih => exact ih _ _ _ always
  | choose request next ih =>
      have rest := ih (execution.choose request).1 (execution.choose request).2 (count + 1)
      rw [(choose_extends execution request).1] at rest
      exact rest always
  | draw source next ih =>
      have rest := ih (execution.draw source).1 (execution.draw source).2
        (execution.options.countDraw source count)
      rw [draw_options] at rest
      exact rest always

end AtLateCalls

namespace Alike

variable {first second : Execution}

/-- The program is told the same with and without its late calls. -/
theorem visit_eq (alike : Alike Generator.bare first second) (run : Run α) (count : Nat) :
    first.visit run = second.visit (run.withoutLate first.options count) := by
  have unseen : first.AtLateCalls (Unseen Generator.bare) run count :=
    .of_forall run first count fun _ _ _ _ _ _ => rfl
  obtain ⟨result, final, answers⟩ := alike.perform tells_bare run unseen
  have path : (first.perform run).2.stack.toList.map Generator.bare =
      (second.perform (run.withoutLate first.options count)).2.stack.toList.map
        Generator.bare := by
    rw [toList_stack, toList_stack, List.map_append, List.map_append, List.map_reverse,
      List.map_reverse, final.passed_eq, final.ahead_eq]
  simp only [Execution.visit, result, answers, path, final.truncated_eq, final.fault_eq]

/-- The path left is the same for all that follows if the late calls find nothing left. -/
theorem stack_eq (alike : Alike Generator.prospect first second) (run : Run α) {count : Nat}
    (spent : first.AtLateCalls Spent run count) :
    (first.perform run).2.stack.newestFirst.map Generator.prospect =
      (second.perform (run.withoutLate first.options count)).2.stack.newestFirst.map
        Generator.prospect := by
  have unseen := spent.mono run fun reached => Spent.unseen
  obtain ⟨-, final, -⟩ := alike.perform tells_prospect run unseen
  simp only [stack, List.map_append, List.map_reverse, final.passed_eq, final.ahead_eq]

end Alike

end Search.Execution

end ChoiceExplorer
