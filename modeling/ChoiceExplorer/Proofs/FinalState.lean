import ChoiceExplorer.Proofs.FirstViolation
import ChoiceExplorer.Proofs.StackInvariant

/-!
# What a finished search leaves behind

A search that finishes has made a last run.  Either this run stopped it with a
violation, whose path then stays on the stack, or its path was the last one and the
stack is empty.  All that the search has counted and recorded agrees with its runs.
-/

namespace ChoiceExplorer.Search

section

variable {α : Type} {visits : List (Visit α)}

/-- The longest path of some runs is the path of one of them. -/
theorem exists_longest (made : visits ≠ []) :
    (∃ visit ∈ visits, visit.path.length = longest visits) ∧
      ∀ visit ∈ visits, visit.path.length ≤ longest visits := by
  have lengths_made : visits.map (fun visit => visit.path.length) ≠ [] := by
    rw [Ne, List.map_eq_nil_iff]
    exact made
  obtain ⟨greatest, found⟩ := Option.isSome_iff_exists.mp (List.isSome_max?_of_ne_nil lengths_made)
  obtain ⟨attained, bounds⟩ := List.max?_eq_some_iff.mp found
  have longest_eq : longest visits = greatest := by
    rw [longest, List.foldl_max, found, Option.getD_some, Nat.zero_max]
  rw [longest_eq]
  exact ⟨List.mem_map.mp attained,
    fun visit member => bounds _ (List.mem_map_of_mem member)⟩

end

section

variable {visits : List (Visit (Option Violation))}

theorem records_ids (visits : List (Visit (Option Violation))) :
    (records visits).map Record.id =
      (List.range (records visits).length).map fun before => errorId (before + 1) := by
  refine List.ext_getElem (by simp) fun place _ _ => ?_
  simp [records]

theorem records_length_le (visits : List (Visit (Option Violation))) :
    (records visits).length ≤ visits.length := by
  rw [records, List.length_mapIdx]
  exact List.length_filterMap_le _ _

/-- A record has the depth and the texts of the path of a run. -/
theorem exists_visit_of_mem_records {record : Record} (member : record ∈ records visits) :
    ∃ visit ∈ visits, record.depth = visit.path.length ∧
      record.path = visit.path.map Generator.text := by
  obtain ⟨place, within, rfl⟩ := List.mem_mapIdx.mp member
  obtain ⟨visit, visited, failed⟩ := List.mem_filterMap.mp (List.getElem_mem within)
  obtain ⟨violation, -, pair⟩ := Option.map_eq_some_iff.mp failed
  refine ⟨visit, visited, ?_⟩
  rw [← pair]
  exact ⟨rfl, rfl⟩

/-- A record has the length of its path for its depth, and no path of a run is longer than
the longest. -/
theorem depth_of_mem_records {record : Record} (member : record ∈ records visits) :
    record.depth = record.path.length ∧ record.depth ≤ longest visits := by
  obtain ⟨visit, visited, depth_eq, path_eq⟩ := exists_visit_of_mem_records member
  rw [depth_eq, path_eq, List.length_map]
  exact ⟨rfl, (exists_longest (List.ne_nil_of_mem visited)).2 visit visited⟩

end

theorem Extends.length_le {first second : List Generator} (further : Extends first second) :
    first.length ≤ second.length := by
  induction further with
  | fresh added => exact Nat.zero_le _
  | keep _ _ ih => exact Nat.succ_le_succ ih

/-- At no moment of a run is the path longer than in the end. -/
theorem Execution.Moment.depth_le {α : Type} {start now : Execution} {run rest : Run α}
    {steps : List Step} (moment : start.Moment run steps now rest) :
    now.stack.depth ≤ (start.perform run).2.stack.depth := by
  obtain ⟨more, ending⟩ := Moment.exists_end now rest
  rw [moment.perform_eq] at ending
  rw [← ChoiceStack.length_toList, ← ChoiceStack.length_toList]
  exact ending.extends_stack.2.length_le

namespace Progress

variable {σ : Type} {program : Program σ} {progress last final : Progress σ} {summary : Summary}

/-- The search would go on after the next run, but no alternative is left on its path. -/
structure Exhausts (program : Program σ) (last : Progress σ) : Prop where
  goes_on : (last.visit program).halts last.search.options = false
  spent : ∀ generator ∈ (last.left program).toList, generator.hasMore = false

/-- The next run stops the search with a violation. -/
structure Stops (program : Program σ) (last : Progress σ) (violation : Violation) : Prop where
  single : last.search.options.multipleErrors = false
  violated : (last.attempt program).1.1 = some violation

theorem Stops.halts {violation : Violation} (stops : last.Stops program violation) :
    (last.visit program).halts last.search.options = true := by
  rw [Visit.halts, visit_result, stops.violated, stops.single]
  exact Bool.or_true _

theorem Exhausts.not_stops {violation : Violation} (exhausts : last.Exhausts program) :
    ¬last.Stops program violation := by
  intro stops
  have goes_on := exhausts.goes_on
  rw [stops.halts] at goes_on
  cases goes_on

theorem spent_of_no_next {stack : ChoiceStack} (ended : stack.next? = none) :
    ∀ generator ∈ stack.toList, generator.hasMore = false := by
  intro generator member
  rw [ChoiceStack.next?, Option.map_eq_none_iff, ChoiceStack.advanceNewest?_eq_none_iff] at ended
  exact ended generator (List.mem_reverse.mp member)

/-- A search that turns to a next path in vain finishes with an empty stack. -/
theorem stack_of_turn {reached final : Progress σ} {ending : Ending}
    (turned : reached.turn = (some ending, final)) :
    reached.search.stack.next? = none ∧ final.search.stack = .empty := by
  unfold turn at turned
  split at turned
  · cases turned
  · rename_i ended
    cases turned
    exact ⟨ended, rfl⟩

/-- A step that finishes the search exhausts it and empties the stack, or stops it. -/
theorem finished_cases (stepped : last.step program = (some (.finished summary), final)) :
    last.Exhausts program ∧ final.search.stack = .empty ∨
      ∃ violation, last.Stops program violation ∧ final.search.stack = last.left program := by
  cases fault : (last.attempt program).2.fault with
  | some reason =>
      rw [step_of_fault fault] at stepped
      cases stepped
  | none =>
      rw [step_of_no_fault fault] at stepped
      cases found : (last.attempt program).1.1 with
      | none =>
          rw [found] at stepped
          obtain ⟨ended, emptied⟩ := stack_of_turn stepped
          have goes_on : (last.visit program).halts last.search.options = false := by
            simp [Visit.halts, fault, found]
          exact .inl ⟨⟨goes_on, spent_of_no_next (counted_stack ▸ ended)⟩, emptied⟩
      | some violation =>
          rw [found] at stepped
          cases multiple : last.search.options.multipleErrors with
          | true =>
              rw [multiple] at stepped
              obtain ⟨ended, emptied⟩ := stack_of_turn stepped
              have goes_on : (last.visit program).halts last.search.options = false := by
                simp [Visit.halts, fault, multiple]
              exact .inl ⟨⟨goes_on, spent_of_no_next (counted_stack ▸ ended)⟩, emptied⟩
          | false =>
              rw [multiple] at stepped
              cases stepped
              exact .inr ⟨violation, ⟨multiple, found⟩, counted_stack⟩

/-- The stack is left empty by the end of the search space, or by a path without choices. -/
theorem stack_empty_iff (stepped : last.step program = (some (.finished summary), final)) :
    final.search.stack = .empty ↔
      last.Exhausts program ∨
        ∃ violation, last.Stops program violation ∧ last.left program = .empty := by
  rcases finished_cases stepped with ⟨exhausts, emptied⟩ | ⟨violation, stops, kept⟩
  · exact ⟨fun _ => .inl exhausts, fun _ => emptied⟩
  · rw [kept]
    constructor
    · exact fun empty => .inr ⟨violation, stops, empty⟩
    · rintro (exhausts | ⟨_, -, empty⟩)
      · exact absurd stops exhausts.not_stops
      · exact empty

/-- A search that finishes does so with the last of its runs. -/
theorem exists_last {budget : Nat}
    (finished : (explore program budget progress).1 = .finished summary) :
    ∃ before last, progress.trail program budget = before ++ [last] ∧
      (∀ turn ∈ before, (turn.visit program).halts turn.search.options = false) ∧
      last.step program = (some (.finished summary), (explore program budget progress).2) := by
  induction budget generalizing progress with
  | zero => cases finished
  | succ budget ih =>
      cases stepped : progress.step program with
      | mk ending next =>
          cases ending with
          | some ending =>
              rw [explore_of_ended stepped] at finished ⊢
              cases finished
              exact ⟨[], progress, trail_of_ended stepped budget, List.forall_mem_nil _, stepped⟩
          | none =>
              rw [explore_of_step stepped] at finished ⊢
              obtain ⟨before, last, made, go_on, ended⟩ := ih finished
              refine ⟨progress :: before, last, ?_, ?_, ended⟩
              · rw [trail_of_step stepped, made]
                rfl
              · exact List.forall_mem_cons.mpr ⟨(follows_of_step stepped).goes_on, go_on⟩

end Progress

section

variable {σ : Type} {search : Search} {program : Program σ} {state : σ} {budget : Nat}
  {summary : Summary} {turn : Progress σ}

/-- A search that finishes has made no run with a fault, and has found what its runs show. -/
theorem closed_of_finished (finished : (search.run program state budget).1 = .finished summary) :
    (∀ visit ∈ search.visits program state budget, visit.fault = none) ∧
      summary = .closed (search.visits program state budget) := by
  have ended : (search.run program state budget).1 ≠ .unfinished := by
    rw [finished]
    exact nofun
  have makes := search.makes_of_run ended
  have ended := makes.ending_eq
  rw [finished] at ended
  have unfaulted := Ending.unfaulted_of_ofVisits ended.symm
  rw [Ending.ofVisits_of_unfaulted unfaulted] at ended
  exact ⟨unfaulted, Ending.finished.inj ended⟩

/-- A truncated run leaves a path of the length that the limit allows. -/
theorem limit_of_truncated (member : turn ∈ search.trail program state budget)
    (truncated : (turn.attempt program).2.truncated = true) :
    search.options.depthLimit = some (turn.left program).depth := by
  have standing := Progress.standing_of_mem_trail (search.standing_outset state) member
  have options_eq : (turn.attempt program).2.options = search.options :=
    (Execution.perform_extends _ _).1.trans (Progress.options_of_mem_trail member)
  obtain ⟨steps, left⟩ := Progress.standing_attempt standing program
  obtain ⟨-, full⟩ := left.truncated truncated
  obtain ⟨limit, limited, le⟩ := Options.isFull_iff.mp full
  have within := left.within limit limited
  have depth_eq := Execution.depth_stack (turn.attempt program).2
  rw [← options_eq, limited, Progress.left]
  exact congrArg some (by omega)

/-- The greatest depth that is counted is that of the longest path after a run. -/
theorem depths_of_finished (finished : (search.run program state budget).1 = .finished summary) :
    (∀ turn ∈ search.trail program state budget,
      (turn.left program).depth ≤ summary.maxDepth) ∧
    ∃ turn ∈ search.trail program state budget,
      (turn.left program).depth = summary.maxDepth := by
  obtain ⟨-, closed⟩ := closed_of_finished finished
  obtain ⟨before, last, made, -⟩ := Progress.exists_last finished
  have visited : last ∈ search.trail program state budget := by
    rw [show search.trail program state budget = before ++ [last] from made]
    exact List.mem_append_right _ List.mem_cons_self
  have depth_eq (turn : Progress σ) :
      (turn.visit program).path.length = (turn.left program).depth := by
    rw [Progress.visit_path, List.length_map, ChoiceStack.length_toList]
  have last_visit : last.visit program ∈ search.visits program state budget :=
    List.mem_map_of_mem visited
  obtain ⟨⟨deepest, attaining, attained⟩, bounds⟩ :=
    exists_longest (List.ne_nil_of_mem last_visit)
  obtain ⟨turn, member, rfl⟩ := List.mem_map.mp attaining
  rw [closed]
  refine ⟨fun other other_member => ?_, turn, member, ?_⟩
  · rw [← depth_eq]
    exact bounds _ (List.mem_map_of_mem other_member)
  · rw [← depth_eq]
    exact attained

/-- The greatest depth respects the limit, and reaches it if a run was truncated. -/
theorem limit_of_finished (finished : (search.run program state budget).1 = .finished summary) :
    (∀ limit, search.options.depthLimit = some limit → summary.maxDepth ≤ limit) ∧
      (0 < summary.truncatedPaths → search.options.depthLimit = some summary.maxDepth) := by
  obtain ⟨bounds, deepest, taken, attained⟩ := depths_of_finished finished
  have within (limit : Nat) (limited : search.options.depthLimit = some limit) :
      summary.maxDepth ≤ limit := by
    rw [← attained]
    exact Progress.left_depth_le_limit limited (Nat.zero_le _) taken
  refine ⟨within, fun some_truncated => ?_⟩
  rw [(closed_of_finished finished).2] at some_truncated
  obtain ⟨visit, visited, truncated⟩ := List.countP_pos_iff.mp some_truncated
  obtain ⟨turn, member, rfl⟩ := List.mem_map.mp visited
  have limited := limit_of_truncated member truncated
  rw [limited]
  exact congrArg some (Nat.le_antisymm (bounds turn member) (within _ limited))

/-- The only violation of a search that it stops is that of its last run. -/
theorem violations_of_stops {before : List (Progress σ)} {last : Progress σ}
    {violation : Violation} (made : search.trail program state budget = before ++ [last])
    (go_on : ∀ turn ∈ before, (turn.visit program).halts turn.search.options = false)
    (stops : last.Stops program violation) :
    records (search.visits program state budget) =
      [Record.ofPath 1 violation (last.left program)] := by
  have same {turn : Progress σ} (member : turn ∈ before ++ [last]) :
      turn.search.options = search.options :=
    Progress.options_of_mem_trail (made ▸ member)
  have single : search.options.multipleErrors = false := by
    rw [← same (List.mem_append_right _ List.mem_cons_self)]
    exact stops.single
  have silent : ∀ visit ∈ before.map (Progress.visit program), visit.result = none := by
    intro visit member
    obtain ⟨turn, earlier, rfl⟩ := List.mem_map.mp member
    have goes_on := go_on turn earlier
    rw [same (List.mem_append_left _ earlier), Visit.halts, single, Bool.not_false, Bool.and_true,
      Bool.or_eq_false_iff, Option.isSome_eq_false_iff, Option.isSome_eq_false_iff,
      Option.isNone_iff_eq_none, Option.isNone_iff_eq_none] at goes_on
    exact goes_on.2
  have recorded : (last.visit program).record? 1 =
      some (Record.ofPath 1 violation (last.left program)) := by
    rw [Progress.record?_visit, stops.violated]
    rfl
  rw [visits, made, List.map_append, records, List.map_cons,
    failures_of_first silent stops.violated]
  rw [Visit.record?, Progress.visit_result, stops.violated] at recorded
  exact congrArg (fun record => [record]) (Option.some.inj recorded)

end

/--
What a search that finishes has counted and recorded agrees with its runs.  The records
are numbered from one and are no more than the runs, as are the truncated ones.  Each has
the length of its path for its depth, and the greatest depth is that of the longest path
at any moment of a run, which respects the depth limit and reaches it if a run was
truncated.  The last violation is the last record.  The stack is empty exactly if the
last run left no alternative, or if it stopped the search on a path without choices.  If
it stopped the search then its path is on the stack, and is the path of the only record.
-/
theorem summary_agrees_with_the_runs {σ : Type} (search : Search) (program : Program σ)
    (state : σ) (budget : Nat) (summary : Summary)
    (finished : (search.run program state budget).1 = .finished summary) :
    let final := (search.run program state budget).2.search
    let turns := search.trail program state budget
    let count := summary.violations.length
    final.summary = summary ∧
    summary.violations.map Record.id =
      (List.range count).map (fun before => "#" ++ toString (before + 1)) ∧
    summary.pathsExplored = turns.length ∧
    count ≤ summary.pathsExplored ∧
    summary.truncatedPaths ≤ summary.pathsExplored ∧
    (∀ record ∈ summary.violations,
      record.depth = record.path.length ∧ record.depth ≤ summary.maxDepth) ∧
    (∀ turn ∈ turns, ∀ steps now rest, turn.Moment program steps now rest →
      now.stack.depth ≤ summary.maxDepth) ∧
    (∃ turn ∈ turns, (turn.left program).depth = summary.maxDepth) ∧
    (∀ limit, search.options.depthLimit = some limit → summary.maxDepth ≤ limit) ∧
    (0 < summary.truncatedPaths → search.options.depthLimit = some summary.maxDepth) ∧
    final.view.last? = summary.violations.getLast? ∧
    ∃ before last, turns = before ++ [last] ∧
      (final.stack = .empty ↔
        last.Exhausts program ∨
          ∃ violation, last.Stops program violation ∧ last.left program = .empty) ∧
      ∀ violation, last.Stops program violation →
        final.stack = last.left program ∧
        summary.violations = [{
          id := "#1"
          violation
          depth := final.stack.toList.length
          path := final.stack.toList.map Generator.text }] := by
  intro final turns count
  have found : final.summary = summary := Progress.summary_of_finished finished
  obtain ⟨-, closed⟩ := closed_of_finished finished
  obtain ⟨before, last, made, go_on, stepped⟩ := Progress.exists_last finished
  obtain ⟨bounds, deepest⟩ := depths_of_finished finished
  obtain ⟨within, limited⟩ := limit_of_finished finished
  refine ⟨found, ?_, ?_, ?_, ?_, ?_, ?_, deepest, within, limited, ?_, before, last, made,
    Progress.stack_empty_iff stepped, ?_⟩
  · rw [show count = summary.violations.length from rfl, closed]
    exact records_ids _
  · rw [closed]
    exact List.length_map _
  · rw [show count = summary.violations.length from rfl, closed]
    exact records_length_le _
  · rw [closed]
    exact List.countP_le_length
  · rw [closed]
    exact fun record member => depth_of_mem_records member
  · intro turn member steps now rest moment
    exact Nat.le_trans moment.depth_le (bounds turn member)
  · rw [← found]
    rfl
  · intro violation stops
    rcases Progress.finished_cases stepped with ⟨exhausts, -⟩ | ⟨_, -, kept⟩
    · exact absurd stops exhausts.not_stops
    · refine ⟨kept, ?_⟩
      rw [closed, show final.stack = last.left program from kept, ChoiceStack.length_toList]
      exact violations_of_stops made go_on stops

def alarmed : Program Unit := fun _ =>
  .choose .bool fun value => .choose (.int 0 1) fun _ =>
    .done (if value = .bool true then some (.uncaught "alarm") else none, ())

theorem alarmed_summary_agrees_with_the_runs :
    let search : Search := { options := { depthLimit := some 1 } }
    let final := (search.run alarmed () 2).2.search
    let second := ((search.outset ()).step alarmed).2
    let text := "pathtrace::choice::BooleanChoiceGenerator[[id=\"verifyGetBoolean\"," ++
      "isCascaded:false,\x7bfalse,>true\x7d]"
    let record : Record := ⟨"#1", .uncaught "alarm", 1, [text]⟩
    let summary : Summary :=
      { violations := [record]
        pathsExplored := 2
        truncatedPaths := 2
        maxDepth := 1 }
    (search.run alarmed () 2).1 = .finished summary ∧
    search.trail alarmed () 2 = [search.outset (), second] ∧
    second.Stops alarmed (.uncaught "alarm") ∧
    final.stack = second.left alarmed ∧
    final.stack.toList.map Generator.bare = [Request.bool.pick 1] ∧
    some 1 = some summary.maxDepth ∧
    final.view.last? = some record := by
  intro search final second text record summary
  have finished : (search.run alarmed () 2).1 = .finished summary := by decide +kernel
  have stepped : (search.outset ()).step alarmed = (none, second) := rfl
  have made : search.trail alarmed () 2 = [search.outset (), second] := by
    rw [Search.trail, Progress.trail_of_step stepped]
    rfl
  have stops : second.Stops alarmed (.uncaught "alarm") := ⟨rfl, rfl⟩
  obtain ⟨-, -, -, -, -, -, -, -, -, limited, last_eq, before, last, parted, -, stopped⟩ :=
    summary_agrees_with_the_runs search alarmed () 2 summary finished
  have last_is : last = second := by
    have same := congrArg List.getLast? (made.symm.trans parted)
    rw [List.getLast?_concat] at same
    exact (Option.some.inj same).symm
  rw [last_is] at stopped
  exact ⟨finished, made, stops, (stopped _ stops).1, by decide, limited (by decide), last_eq⟩

end ChoiceExplorer.Search
