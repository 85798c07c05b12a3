import ChoiceExplorer.Proofs.ScriptRuns

/-!
# Strict progress

Whatever a program does from run to run, the path that a run leaves behind lies
strictly after those left by all runs before it.  So no path is visited twice,
and a search of bounded depth ends.
-/

namespace ChoiceExplorer.Search

namespace Progress

variable {σ : Type} {program : Program σ} {progress next : Progress σ}

def choices (program : Program σ) (progress : Progress σ) : Nat :=
  (Execution.start progress.search.options progress.search.stack).choices (program progress.state)

theorem extends_left (program : Program σ) (progress : Progress σ) :
    Extends progress.search.stack.toList (progress.left program).toList := by
  have kept := Execution.perform_extends
    (Execution.start progress.search.options progress.search.stack) (program progress.state)
  rw [Execution.stack_start] at kept
  exact kept.2

namespace Follows

theorem nextPath?_eq (follows : Follows program progress next) :
    nextPath? (progress.left program).toList = some next.search.stack.toList := by
  rw [← next?_toList, follows.stack_eq]
  rfl

/-- From one run to the next the path moves forward. -/
theorem agree (follows : Follows program progress next) :
    ∃ depth, AgreeTo (· < ·) depth (progress.left program).toList (next.left program).toList := by
  obtain ⟨depth, moved, -⟩ := agreeTo_of_nextPath? follows.nextPath?_eq
  exact ⟨depth, moved.of_extends (extends_left program next)⟩

theorem depth_le (follows : Follows program progress next) :
    next.search.stack.depth ≤ (progress.left program).depth := by
  obtain ⟨depth, moved, length⟩ := agreeTo_of_nextPath? follows.nextPath?_eq
  rw [← ChoiceStack.length_toList, ← ChoiceStack.length_toList, length]
  exact moved.length_lt.1

end Follows

/-- A search whose paths stay within a depth ends. -/
theorem exists_budget (bound : Nat)
    (bounded : ∀ budget, ∀ reached ∈ progress.trail program budget,
      (reached.left program).depth ≤ bound) :
    ∃ budget, (explore program budget progress).1 ≠ .unfinished := by
  induction path : (progress.left program).toList using (wellFounded_agreeTo bound).induction
    generalizing progress with
  | _ path ih =>
      subst path
      rcases step_cases program progress with
          ⟨fault, last, -, stepped⟩ | ⟨last, -, -, stepped⟩ | ⟨next, follows⟩
      · exact ⟨1, by simp [explore_of_ended stepped]⟩
      · exact ⟨1, by simp [explore_of_ended stepped]⟩
      · obtain ⟨depth, moved⟩ := follows.agree
        have shallow : depth < bound := by
          have here := bounded 1 progress (by simp [trail])
          rw [← ChoiceStack.length_toList] at here
          exact Nat.lt_of_lt_of_le moved.length_lt.1 here
        have still : ∀ budget, ∀ reached ∈ next.trail program budget,
            (reached.left program).depth ≤ bound := by
          intro budget reached member
          refine bounded (budget + 1) reached ?_
          rw [trail_of_step follows.stepped]
          exact List.mem_cons_of_mem _ member
        obtain ⟨budget, ended⟩ := ih _ ⟨depth, shallow, moved⟩ still rfl
        refine ⟨budget + 1, ?_⟩
        rw [explore_of_step follows.stepped]
        exact ended

/-- A depth limit bounds every path. -/
theorem left_depth_le_limit {limit budget : Nat} {reached : Progress σ}
    (limited : progress.search.options.depthLimit = some limit)
    (within : progress.search.stack.depth ≤ limit)
    (member : reached ∈ progress.trail program budget) :
    (reached.left program).depth ≤ limit := by
  have left_le (turn : Progress σ)
      (kept : turn.search.options.depthLimit = some limit ∧ turn.search.stack.depth ≤ limit) :
      (turn.left program).depth ≤ limit := by
    refine Execution.perform_depth_le_limit kept.1 ?_ (program turn.state)
    rw [Execution.stack_start]
    exact kept.2
  have kept := of_mem_trail (motive := fun turn =>
    turn.search.options.depthLimit = some limit ∧ turn.search.stack.depth ≤ limit)
    ?_ ⟨limited, within⟩ member
  · exact left_le reached kept
  · intro turn following follows kept
    rw [follows.options_eq]
    exact ⟨kept.1, Nat.le_trans follows.depth_le (left_le turn kept)⟩

/-- A bound on the choices of every run bounds every path. -/
theorem left_depth_le_choices {bound budget : Nat} {reached : Progress σ}
    (asks : ∀ budget, ∀ turn ∈ progress.trail program budget, turn.choices program ≤ bound)
    (within : progress.search.stack.depth ≤ bound)
    (member : reached ∈ progress.trail program budget) :
    (reached.left program).depth ≤ bound := by
  have left_le (turn : Progress σ) (few : turn.choices program ≤ bound)
      (kept : turn.search.stack.depth ≤ bound) : (turn.left program).depth ≤ bound := by
    have le := Execution.perform_depth_le_choices
      (Execution.start turn.search.options turn.search.stack) (program turn.state)
    rw [Execution.stack_start] at le
    refine Nat.le_trans le (Nat.max_le.mpr ⟨kept, ?_⟩)
    exact Nat.le_trans (Nat.le_of_eq (Nat.zero_add _)) few
  have kept := of_mem_trail (motive := fun turn =>
    (∀ budget, ∀ later ∈ turn.trail program budget, later.choices program ≤ bound) ∧
      turn.search.stack.depth ≤ bound) ?_ ⟨asks, within⟩ member
  · exact left_le reached (kept.1 1 reached (by simp [trail])) kept.2
  · intro turn following follows kept
    refine ⟨fun budget later member => ?_, ?_⟩
    · refine kept.1 (budget + 1) later ?_
      rw [trail_of_step follows.stepped]
      exact List.mem_cons_of_mem _ member
    · exact Nat.le_trans follows.depth_le
        (left_le turn (kept.1 1 turn (by simp [trail])) kept.2)

/-- Each run on a trail follows the one before it. -/
theorem follows_of_getElem? {budget place : Nat} {earlier later : Progress σ}
    (here : (progress.trail program budget)[place]? = some earlier)
    (there : (progress.trail program budget)[place + 1]? = some later) :
    Follows program earlier later := by
  induction budget generalizing progress place with
  | zero => cases here
  | succ budget ih =>
      rcases step_cases program progress with
          ⟨_, _, _, stepped⟩ | ⟨_, _, _, stepped⟩ | ⟨next, follows⟩
      · rw [trail_of_ended stepped] at there
        cases there
      · rw [trail_of_ended stepped] at there
        cases there
      · rw [trail_of_step follows.stepped] at here there
        rw [List.getElem?_cons_succ] at there
        cases place with
        | zero =>
            cases here
            cases budget with
            | zero => cases there
            | succ budget =>
                rw [trail, List.getElem?_cons_zero] at there
                cases there
                exact follows
        | succ place =>
            rw [List.getElem?_cons_succ] at here
            exact ih here there

/--
Of two runs on a trail the later one leaves a path further on.  The generator at
which they part is on the paths of all runs in between, and never moves back.
-/
theorem agree_of_lt {budget first second : Nat} {earlier later : Progress σ} (lt : first < second)
    (here : (progress.trail program budget)[first]? = some earlier)
    (there : (progress.trail program budget)[second]? = some later) :
    ∃ depth, AgreeTo (· < ·) depth (earlier.left program).toList (later.left program).toList ∧
      ∀ place between, first ≤ place → place ≤ second →
        (progress.trail program budget)[place]? = some between →
        AgreeTo (· ≤ ·) depth (earlier.left program).toList (between.left program).toList := by
  induction second generalizing later with
  | zero => exact absurd lt (Nat.not_lt_zero _)
  | succ second ih =>
      obtain ⟨before, at_second⟩ :
          ∃ before, (progress.trail program budget)[second]? = some before :=
        ⟨_, List.getElem?_eq_getElem (Nat.lt_of_succ_lt (List.getElem?_eq_some_iff.mp there).1)⟩
      obtain ⟨shift, shifted⟩ := (follows_of_getElem? at_second there).agree
      -- A depth that serves the runs up to the one before serves the last one too.
      have extend (depth : Nat)
          (moves : AgreeTo (· < ·) depth (earlier.left program).toList
            (later.left program).toList)
          (stays : ∀ place between, first ≤ place → place ≤ second →
            (progress.trail program budget)[place]? = some between →
            AgreeTo (· ≤ ·) depth (earlier.left program).toList (between.left program).toList) :
          ∃ depth, AgreeTo (· < ·) depth (earlier.left program).toList
              (later.left program).toList ∧
            ∀ place between, first ≤ place → place ≤ second + 1 →
              (progress.trail program budget)[place]? = some between →
              AgreeTo (· ≤ ·) depth (earlier.left program).toList
                (between.left program).toList := by
        refine ⟨depth, moves, fun place between after upto at_place => ?_⟩
        rcases (Nat.lt_or_eq_of_le upto).symm with rfl | last
        · rw [there] at at_place
          cases at_place
          exact moves.mono fun _ _ => Nat.le_of_lt
        · exact stays place between after (Nat.le_of_lt_succ last) at_place
      rcases (Nat.lt_or_eq_of_le (Nat.le_of_lt_succ lt)).symm with rfl | lt
      · rw [here] at at_second
        cases at_second
        refine extend shift shifted fun place between after upto at_place => ?_
        cases Nat.le_antisymm upto after
        rw [here] at at_place
        cases at_place
        exact .self Nat.le_refl shifted.length_lt.1
      · obtain ⟨depth, moves, stays⟩ := ih lt at_second
        -- The shallower of the two depths is where the path has changed since the first run.
        rcases Nat.lt_or_ge shift depth with deeper | shallower
        · refine extend shift ?_ fun place between after upto at_place => ?_
          · have kept : AgreeTo (· ≤ ·) shift (earlier.left program).toList
                (before.left program).toList := moves.of_lt deeper Nat.le_refl
            exact kept.trans shifted fun _ _ _ le lt => Nat.lt_of_le_of_lt le lt
          · exact (stays place between after upto at_place).of_lt deeper Nat.le_refl
        · refine extend depth ?_ stays
          have kept : AgreeTo (· ≤ ·) depth (before.left program).toList
              (later.left program).toList := by
            rcases (Nat.lt_or_eq_of_le shallower).symm with rfl | above
            · exact shifted.mono fun _ _ => Nat.le_of_lt
            · exact shifted.of_lt above Nat.le_refl
          exact moves.trans kept fun _ _ _ lt le => Nat.lt_of_lt_of_le lt le

end Progress

/-- The paths that a search visits move forward from each one to all later ones. -/
theorem Makes.pairwise_agree {σ : Type} {search : Search} {program : Program σ} {state : σ}
    {visits : List (Visit (Option Violation))} {ending : Ending}
    (makes : search.Makes program state visits ending) :
    (visits.map Visit.path).Pairwise fun earlier later =>
      ∃ depth, AgreeTo (· < ·) depth earlier later := by
  obtain ⟨-, needed, enough⟩ := makes
  obtain ⟨rfl, -⟩ := enough needed (Nat.le_refl needed)
  rw [Search.visits, List.map_map, List.pairwise_map, List.pairwise_iff_getElem]
  intro first second first_lt second_lt lt
  obtain ⟨depth, moves, -⟩ :=
    Progress.agree_of_lt lt (List.getElem?_eq_getElem first_lt) (List.getElem?_eq_getElem second_lt)
  exact ⟨depth, moves.bare⟩

/--
A search ends if it has a depth limit or if some number bounds the choices of all
its runs, as the text of a script does.  Whatever the program, the path that a run
leaves agrees with the one left by any earlier run up to a generator that stands at
a strictly later position, and that has been on all paths in between.
-/
theorem ends_and_moves_forward {σ : Type} (search : Search) (program : Program σ) (state : σ) :
    ((search.options.depthLimit.isSome = true ∨
        ∃ bound, ∀ budget, ∀ turn ∈ search.trail program state budget,
          turn.choices program ≤ bound) →
      ∃ visits ending, search.Makes program state visits ending) ∧
    (∀ script : List Script.Statement, ∃ bound, ∀ logs execution,
      Execution.choices execution (Script.program script logs) ≤ bound) ∧
    ∀ (budget first second : Nat) (earlier later : Progress σ), first < second →
      (search.trail program state budget)[first]? = some earlier →
      (search.trail program state budget)[second]? = some later →
      ∃ depth,
        AgreeTo (· < ·) depth (earlier.left program).toList (later.left program).toList ∧
        ∀ (place : Nat) (between : Progress σ), first ≤ place → place ≤ second →
          (search.trail program state budget)[place]? = some between →
          AgreeTo (· ≤ ·) depth (earlier.left program).toList (between.left program).toList := by
  refine ⟨fun limited => ?_, fun script => ?_, fun budget first second earlier later => ?_⟩
  · have ended : ∃ budget, (search.run program state budget).1 ≠ .unfinished := by
      rcases limited with limited | ⟨bound, asks⟩
      · obtain ⟨limit, limited⟩ := Option.isSome_iff_exists.mp limited
        exact Progress.exists_budget limit fun budget reached member =>
          Progress.left_depth_le_limit limited (Nat.zero_le _) member
      · exact Progress.exists_budget bound fun budget reached member =>
          Progress.left_depth_le_choices asks (Nat.zero_le _) member
    obtain ⟨budget, ended⟩ := ended
    exact ⟨_, _, search.makes_of_run ended⟩
  · exact ⟨Script.asksAll script, fun logs execution =>
      (Script.program_within script logs).choices_le execution⟩
  · exact fun lt => Progress.agree_of_lt lt

/-- Two truth values in the first run and one in each later run. -/
def fickleScript : List Script.Statement :=
  [.ask .runNumber none (some "run"),
    .ask (.choose .bool) none none,
    .branch [("run", "1")] [.ask (.choose .bool) none none] []]

def fickleStart : Progress Script.Logs := outset { options := {} } #[]

def fickleSecond : Progress Script.Logs := (fickleStart.step (Script.program fickleScript)).2

def fickleLast : Progress Script.Logs := (fickleSecond.step (Script.program fickleScript)).2

theorem fickle_ends_and_moves_forward :
    (∃ visits ending, Makes { options := {} } (Script.program fickleScript) #[] visits ending) ∧
    (trail { options := {} } (Script.program fickleScript) #[] 3)[0]? = some fickleStart ∧
    (trail { options := {} } (Script.program fickleScript) #[] 3)[2]? = some fickleLast ∧
    ∃ depth, AgreeTo (· < ·) depth (fickleStart.left (Script.program fickleScript)).toList
      (fickleLast.left (Script.program fickleScript)).toList := by
  have bounded : ∀ budget,
      ∀ turn ∈ trail { options := {} } (Script.program fickleScript) #[] budget,
        turn.choices (Script.program fickleScript) ≤ 3 :=
    fun _ turn _ => (Script.program_within fickleScript turn.state).choices_le _
  have first_step : fickleStart.step (Script.program fickleScript) = (none, fickleSecond) :=
    Prod.ext (by decide +kernel) rfl
  have second_step : fickleSecond.step (Script.program fickleScript) = (none, fickleLast) :=
    Prod.ext (by decide +kernel) rfl
  have trail_eq : trail { options := {} } (Script.program fickleScript) #[] 3 =
      fickleStart :: fickleSecond :: fickleLast.trail (Script.program fickleScript) 1 :=
    (Progress.trail_of_step first_step 2).trans
      (congrArg _ (Progress.trail_of_step second_step 1))
  have at_first :
      (trail { options := {} } (Script.program fickleScript) #[] 3)[0]? = some fickleStart := by
    rw [trail_eq]
    rfl
  have at_last :
      (trail { options := {} } (Script.program fickleScript) #[] 3)[2]? = some fickleLast := by
    rw [trail_eq]
    rfl
  have general := ends_and_moves_forward { options := {} } (Script.program fickleScript) #[]
  obtain ⟨depth, moves, -⟩ :=
    general.2.2 3 0 2 fickleStart fickleLast (by decide) at_first at_last
  exact ⟨general.1 (.inr ⟨3, bounded⟩), at_first, at_last, depth, moves⟩

end ChoiceExplorer.Search
