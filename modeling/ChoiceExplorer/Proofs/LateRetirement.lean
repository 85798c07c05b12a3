import ChoiceExplorer.Proofs.LatePaths
import ChoiceExplorer.Proofs.StrictProgress

/-!
# Retirement past the depth limit

A choice past the depth limit leaves no generator on the path, so a late call
retires the last generator before the limit.  Unless nothing is left of that
generator, the search loses alternatives that it would explore without the call.
-/

namespace ChoiceExplorer

def Program.withoutLate {σ : Type} (options : Search.Options) (program : Program σ) : Program σ :=
  fun state => (program state).withoutLate options 0

namespace ChoiceStack

/-- The generators of a stack as a search goes on with them, newest first. -/
def prospects (stack : ChoiceStack) : List Generator :=
  stack.newestFirst.map Generator.prospect

theorem advanceNewest?_prospect {first second : List Generator}
    (same : first.map Generator.prospect = second.map Generator.prospect) :
    (advanceNewest? first).map (List.map Generator.prospect) =
      (advanceNewest? second).map (List.map Generator.prospect) := by
  induction first generalizing second with
  | nil =>
      rw [List.map_nil, eq_comm, List.map_eq_nil_iff] at same
      rw [same]
  | cons newest older ih =>
      match second, same with
      | spared :: others, same =>
          rw [List.map_cons, List.map_cons, List.cons.injEq] at same
          obtain ⟨newest_eq, older_eq⟩ := same
          have more_eq : newest.hasMore = spared.hasMore := by
            rw [← Generator.hasMore_prospect, newest_eq, Generator.hasMore_prospect]
          rw [advanceNewest?, advanceNewest?, ← more_eq]
          cases more : newest.hasMore with
          | false => exact ih older_eq
          | true =>
              rw [Generator.prospect_of_hasMore more,
                Generator.prospect_of_hasMore (more_eq ▸ more)] at newest_eq
              rw [if_pos rfl, if_pos rfl, Option.map_some, Option.map_some, List.map_cons,
                List.map_cons, newest_eq, older_eq]

/-- Turning to the next path depends on what is left of the generators only. -/
theorem next?_prospects {first second : ChoiceStack} (same : first.prospects = second.prospects) :
    first.next?.map prospects = second.next?.map prospects := by
  have turned := advanceNewest?_prospect same
  rw [next?, next?, Option.map_map, Option.map_map]
  exact turned

end ChoiceStack

namespace Search

namespace Progress

variable {σ : Type} {program : Program σ} {progress next : Progress σ}

/-- The late calls of the next run find nothing left to give up. -/
def LateCallsSpent (program : Program σ) (progress : Progress σ) : Prop :=
  (Execution.start progress.search.options progress.search.stack).AtLateCalls Execution.Spent
    (program progress.state) 0

/-- A search that finds its newest generator exhausted moves on below it. -/
theorem Follows.moves_below {newest : Generator} {older : List Generator}
    (follows : Follows program progress next)
    (left : (progress.left program).newestFirst = newest :: older)
    (exhausted : newest.hasMore = false) :
    ∃ depth,
      AgreeTo (· < ·) depth (older.reverse.map Generator.bare) (next.visit program).path := by
  have dropped : ChoiceStack.next? ⟨older⟩ = some next.search.stack := by
    have turned := follows.stack_eq
    rw [ChoiceStack.next?, left, ChoiceStack.advanceNewest?, exhausted] at turned
    exact turned
  have turned := next?_toList ⟨older⟩
  rw [dropped] at turned
  obtain ⟨depth, moves, -⟩ := agreeTo_of_nextPath? turned.symm
  exact ⟨depth, (moves.of_extends (extends_left program next)).bare⟩

/-- A search that advances the newest generator stays as it is below it. -/
theorem stays_below {newest : Generator} {older : List Generator} {depth : Nat}
    (program : Program σ) (stack : progress.search.stack = ⟨newest :: older⟩)
    (below : depth < older.length) :
    AgreeTo (· = ·) depth (older.reverse.map Generator.bare) (progress.visit program).path := by
  have kept : AgreeTo (· = ·) depth older.reverse older.reverse :=
    .self (fun _ => rfl) (by rw [List.length_reverse]; exact below)
  have further := extends_left program progress
  rw [stack, ChoiceStack.toList, List.reverse_cons] at further
  exact ((kept.of_extends (.add _ [newest])).of_extends further).bare

/-- A search and the search without late calls, before runs that may go the same way. -/
structure InStep (first second : Progress σ) : Prop where
  options_eq : first.search.options = second.search.options
  stack_eq : first.search.stack.prospects = second.search.stack.prospects
  state_eq : first.state = second.state
  within : ∀ limit, first.search.options.depthLimit = some limit →
    first.search.stack.depth ≤ limit

namespace InStep

variable {first second : Progress σ}

theorem alike (in_step : InStep first second) :
    Execution.Alike Generator.prospect
      (Execution.start first.search.options first.search.stack)
      (Execution.start second.search.options second.search.stack) where
  options_eq := in_step.options_eq
  passed_eq := rfl
  ahead_eq := by
    have same := in_step.stack_eq
    simp only [ChoiceStack.prospects] at same
    simp only [Execution.start, ChoiceStack.toList, List.map_reverse, same]
  random_eq := by rw [Execution.start, Execution.start, in_step.options_eq]
  location_eq := rfl
  truncated_eq := rfl
  fault_eq := rfl

/-- Before runs that may go the same way the program is told the same. -/
theorem visit_eq (in_step : InStep first second) :
    first.visit program = second.visit (program.withoutLate first.search.options) := by
  rw [visit, in_step.alike.bare.visit_eq (program first.state) 0, in_step.state_eq]
  rfl

theorem halts_eq (in_step : InStep first second) :
    (second.visit (program.withoutLate first.search.options)).halts second.search.options =
      (first.visit program).halts first.search.options := by
  rw [← in_step.visit_eq, ← in_step.options_eq]

theorem state_eq_after (in_step : InStep first second) :
    (first.attempt program).1.2 =
      (second.attempt (program.withoutLate first.search.options)).1.2 := by
  have told := in_step.alike.bare.visit_eq (program first.state) 0
  rw [in_step.state_eq] at told
  have ended := congrArg (fun visit => visit.result.2) told
  rw [attempt, attempt, in_step.state_eq]
  exact ended

/-- Late calls that find nothing left do not change what the search turns to. -/
theorem left_eq (in_step : InStep first second) (spent : first.LateCallsSpent program) :
    (first.left program).prospects =
      (second.left (program.withoutLate first.search.options)).prospects := by
  rw [left, attempt, left, attempt, Program.withoutLate, ← in_step.state_eq]
  exact in_step.alike.stack_eq (program first.state) spent

/-- A search that goes on after such a run does so without late calls, in step. -/
theorem follows (in_step : InStep first second) (follows : Follows program first next)
    (spent : first.LateCallsSpent program) :
    ∃ other, Follows (program.withoutLate first.search.options) second other ∧
      InStep next other := by
  have turned := ChoiceStack.next?_prospects (in_step.left_eq spent)
  rw [follows.stack_eq] at turned
  have going : ∃ other, Follows (program.withoutLate first.search.options) second other := by
    refine follows_iff.mpr ⟨in_step.halts_eq.trans follows.goes_on, ?_⟩
    rw [← Option.isSome_map, ← turned]
    rfl
  obtain ⟨other, other_follows⟩ := going
  rw [other_follows.stack_eq] at turned
  refine ⟨other, other_follows, ?_, Option.some.inj turned, ?_, ?_⟩
  · rw [follows.options_eq, other_follows.options_eq, in_step.options_eq]
  · rw [follows.state_eq, other_follows.state_eq, in_step.state_eq_after]
  · rw [follows.options_eq]
    intro limit limited
    refine Nat.le_trans follows.depth_le ?_
    refine Execution.perform_depth_le_limit limited ?_ (program first.state)
    rw [Execution.stack_start]
    exact in_step.within limit limited

/-- A search that ends after a run does so without late calls if these find nothing left. -/
theorem ends (in_step : InStep first second) (ends : ¬∃ next, Follows program first next)
    (spent : (first.visit program).halts first.search.options = false →
      first.LateCallsSpent program) :
    ¬∃ other, Follows (program.withoutLate first.search.options) second other := by
  intro going
  obtain ⟨goes_on, found⟩ := follows_iff.mp going
  rw [in_step.halts_eq] at goes_on
  have turned := ChoiceStack.next?_prospects (in_step.left_eq (spent goes_on))
  refine ends (follows_iff.mpr ⟨goes_on, ?_⟩)
  rw [← Option.isSome_map, turned, Option.isSome_map]
  exact found

/-- Late calls that find nothing left do not change which runs a search makes. -/
theorem visits_eq (in_step : InStep first second) (budget : Nat)
    (spent : ∀ budget, ∀ turn ∈ first.trail program budget,
      (turn.visit program).halts turn.search.options = false → turn.LateCallsSpent program) :
    first.visits program budget =
      second.visits (program.withoutLate first.search.options) budget := by
  induction budget generalizing first second with
  | zero => rfl
  | succ budget ih =>
      have here := spent 1 first (by simp [trail])
      by_cases going : ∃ next, Follows program first next
      · obtain ⟨next, follows⟩ := going
        obtain ⟨other, other_follows, still⟩ := in_step.follows follows (here follows.goes_on)
        rw [visits_of_follows follows, visits_of_follows other_follows, in_step.visit_eq,
          ← follows.options_eq]
        refine congrArg (_ :: ·) (ih still fun budget turn member => ?_)
        refine spent (budget + 1) turn ?_
        rw [trail_of_step follows.stepped]
        exact List.mem_cons_of_mem _ member
      · rw [visits_of_not_follows going, visits_of_not_follows (in_step.ends going here),
          in_step.visit_eq]

/-- Late calls part the paths of the two searches if they find alternatives left. -/
theorem parts (in_step : InStep first second) (unspent : ¬first.LateCallsSpent program)
    (goes_on : (first.visit program).halts first.search.options = false) :
    ∃ newest older spared others,
      (first.left program).newestFirst = newest :: older ∧ newest.hasMore = false ∧
      (second.left (program.withoutLate first.search.options)).newestFirst = spared :: others ∧
      spared.hasMore = true ∧ older.map Generator.bare = others.map Generator.bare := by
  cases limited : first.search.options.depthLimit with
  | none =>
      refine absurd (Execution.AtLateCalls.of_forall _ _ _ ?_) unspent
      intro reached passed options_eq late
      rw [options_eq] at late
      simp [Execution.start, Options.isPast, limited] at late
  | some limit =>
      let start := Execution.start first.search.options first.search.stack
      have within : start.passed.length + start.ahead.length ≤ limit := by
        simp only [start, Execution.start, List.length_nil, Nat.zero_add,
          ChoiceStack.length_toList]
        exact in_step.within limit limited
      have placed : start.Placed limit 0 := ⟨limited, within, fun _ => (Nat.zero_min limit).symm⟩
      obtain ⟨newest, older, spared, others, left, exhausted, other_left, more⟩ :=
        Execution.parts_of_not_spent (program first.state) in_step.alike placed unspent
          (Visit.fault_of_goes_on goes_on)
      rw [in_step.state_eq] at other_left
      refine ⟨newest, older, spared, others, left, exhausted, other_left, more, ?_⟩
      have paths : (first.visit program).path = (second.visit _).path :=
        congrArg Visit.path in_step.visit_eq
      have left : (first.left program).newestFirst = newest :: older := left
      have other_left : (second.left (program.withoutLate first.search.options)).newestFirst =
          spared :: others := other_left
      rw [visit_path, visit_path, ChoiceStack.toList, ChoiceStack.toList, left, other_left,
        List.map_reverse, List.map_reverse, List.reverse_inj] at paths
      exact (List.cons.inj paths).2

/-- If the two searches make the same two runs, the late calls of the first find nothing left. -/
theorem spent_of_visits_eq (in_step : InStep first second)
    (goes_on : (first.visit program).halts first.search.options = false)
    (same : first.visits program 2 =
      second.visits (program.withoutLate first.search.options) 2) :
    first.LateCallsSpent program := by
  refine Classical.byContradiction fun unspent => ?_
  obtain ⟨newest, older, spared, others, left, exhausted, other_left, more, older_eq⟩ :=
    in_step.parts unspent goes_on
  -- Without the call the search advances the generator that the call has retired.
  have other_turned : (second.left (program.withoutLate first.search.options)).next? =
      some ⟨spared.advance :: others⟩ := by
    rw [ChoiceStack.next?, other_left, ChoiceStack.advanceNewest?, if_pos more]
    rfl
  obtain ⟨other, other_follows⟩ :
      ∃ other, Follows (program.withoutLate first.search.options) second other :=
    follows_iff.mpr ⟨in_step.halts_eq.trans goes_on, by rw [other_turned]; rfl⟩
  by_cases going : ∃ next, Follows program first next
  · obtain ⟨next, follows⟩ := going
    rw [visits_of_follows follows, visits_of_follows other_follows] at same
    rw [visits_one, visits_one] at same
    have visit_eq := (List.cons.inj (List.cons.inj same).2).1
    have advanced : other.search.stack = ⟨spared.advance :: others⟩ := by
      rw [other_follows.stack_eq] at other_turned
      exact Option.some.inj other_turned
    obtain ⟨depth, moves⟩ := follows.moves_below left exhausted
    have below := moves.length_lt.1
    rw [List.map_reverse, older_eq, ← List.map_reverse, visit_eq] at moves
    rw [List.map_reverse, older_eq, List.length_reverse, List.length_map] at below
    obtain ⟨earlier, later, lt, rfl⟩ := moves.both_moves (stays_below _ advanced below)
    exact absurd lt (Nat.lt_irrefl _)
  · rw [visits_of_not_follows going, visits_of_follows other_follows, visits_one] at same
    have lengths := congrArg List.length same
    simp at lengths

/-- If the two searches make the same runs, no late call of the first finds anything left. -/
theorem spent_of_same_visits (in_step : InStep first second)
    (same : ∀ budget, first.visits program budget =
      second.visits (program.withoutLate first.search.options) budget)
    {budget : Nat} {turn : Progress σ} (member : turn ∈ first.trail program budget)
    (goes_on : (turn.visit program).halts turn.search.options = false) :
    turn.LateCallsSpent program := by
  induction budget generalizing first second with
  | zero => cases member
  | succ budget ih =>
      rw [trail] at member
      rcases List.mem_cons.mp member with rfl | later
      · exact in_step.spent_of_visits_eq goes_on (same 2)
      · split at later
        · cases later
        · rename_i next stepped
          have follows := follows_of_step stepped
          have spent := in_step.spent_of_visits_eq follows.goes_on (same 2)
          obtain ⟨other, other_follows, still⟩ := in_step.follows follows spent
          refine ih still (fun budget => ?_) later
          have same_later := same (budget + 1)
          rw [visits_of_follows follows, visits_of_follows other_follows] at same_later
          rw [follows.options_eq]
          exact (List.cons.inj same_later).2

end InStep

end Progress

/--
A late call retires the last generator before the limit, where there is one that is
not retired yet.  So a search makes the same runs with and without the late calls of
a program exactly if these find nothing left of that generator in any run after
which the search goes on.
-/
theorem late_calls_matter_iff {σ : Type} (search : Search) (program : Program σ) (state : σ) :
    (∀ (limit count : Nat) (execution : Execution), execution.Placed limit count →
      limit < count → execution.fault = none →
      (execution.ignoreRest.stack = execution.stack ↔
        limit = 0 ∨ ∃ newest, execution.stack.top? = some newest ∧ newest.retired = true)) ∧
    ((∀ budget, search.visits program state budget =
        search.visits (program.withoutLate search.options) state budget) ↔
      ∀ budget, ∀ turn ∈ search.trail program state budget,
        (turn.visit program).halts search.options = false → turn.LateCallsSpent program) := by
  refine ⟨fun limit count execution placed late fault =>
    Execution.ignoreRest_stack_eq_iff placed late fault, ?_⟩
  · have in_step : Progress.InStep (search.outset state) (search.outset state) :=
      ⟨rfl, rfl, rfl, fun _ _ => Nat.zero_le _⟩
    have options_eq {budget : Nat} {turn : Progress _}
        (member : turn ∈ search.trail program state budget) :
        turn.search.options = search.options :=
      Progress.of_mem_trail (motive := fun turn => turn.search.options = search.options)
        (fun _ _ follows kept => follows.options_eq.trans kept) rfl member
    constructor
    · intro same budget turn member goes_on
      rw [← options_eq member] at goes_on
      exact in_step.spent_of_same_visits same member goes_on
    · intro spent budget
      refine in_step.visits_eq budget fun budget turn member goes_on => ?_
      rw [options_eq member] at goes_on
      exact spent budget turn member goes_on

/-- After two choices under a limit of one, a late call retires the first of them. -/
theorem second_choice_retires_the_first :
    let start := Execution.start { depthLimit := some 1 } {}
    let late := ((start.choose Request.bool).2.choose Request.bool).2
    late.Placed 1 2 ∧ late.fault = none ∧ late.ignoreRest.stack ≠ late.stack := by
  intro start late
  have placed : late.Placed 1 2 := ⟨rfl, by decide, fun _ => rfl⟩
  refine ⟨placed, rfl, fun kept => ?_⟩
  have retired := (late_calls_matter_iff { options := {} } (Script.program []) #[]).1
    1 2 late placed (by decide) rfl
  rcases retired.mp kept with none_recorded | ⟨newest, recorded, retired⟩
  · exact absurd none_recorded (by decide)
  · cases recorded
    exact absurd retired (by decide)

def lateScript : List Script.Statement :=
  [.ask (.choose .bool) none none, .ask (.choose .bool) none none, .ignoreRest]

/-- Under a limit of one choice the call is late, and the search loses a run to it. -/
theorem late_call_loses_a_run :
    let search : Search := { options := { depthLimit := some 1, multipleErrors := true } }
    let program := Script.program lateScript
    program.Repeats (Script.body lateScript) ∧
    (search.visits program #[] 3).map Visit.answers =
      [[.value (.bool false), .value (.bool false)]] ∧
    (search.visits (program.withoutLate search.options) #[] 3).map Visit.answers =
      [[.value (.bool false), .value (.bool false)],
        [.value (.bool true), .value (.bool false)]] ∧
    ¬∀ budget, search.visits program #[] budget =
      search.visits (program.withoutLate search.options) #[] budget := by
  intro search program
  have with_call : (search.visits program #[] 3).map Visit.answers =
      [[.value (.bool false), .value (.bool false)]] := by decide +kernel
  have without_call : (search.visits (program.withoutLate search.options) #[] 3).map Visit.answers =
      [[.value (.bool false), .value (.bool false)],
        [.value (.bool true), .value (.bool false)]] := by decide +kernel
  refine ⟨Script.program_repeats rfl, with_call, without_call, fun same => ?_⟩
  rw [same 3, without_call] at with_call
  exact absurd with_call (by decide)

end Search

end ChoiceExplorer
