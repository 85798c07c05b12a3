import ChoiceExplorer.Proofs.FinalState

/-!
# What a search tells

A search tells of its start, of each run that fails, and of its end unless a run had a
fault.  Of a run that fails observers see the path and the record.  At the end they see
the last record, and the path of a violation that stopped the search.
-/

namespace ChoiceExplorer.Search

def Notice.violation? : Notice → Option View
  | .violated view => some view
  | _ => none

def closing : Option Ending → View → List Notice
  | some (.finished _), view => [.finished view]
  | _, _ => []

theorem filterMap_closing (ending : Option Ending) (view : View) :
    (closing ending view).filterMap Notice.violation? = [] := by
  unfold closing
  split <;> rfl

theorem filterMap_violated (views : List View) :
    (views.map Notice.violated).filterMap Notice.violation? = views := by
  rw [List.filterMap_map]
  exact List.filterMap_some

namespace Progress

variable {σ : Type} {program : Program σ} {progress : Progress σ}

def alarm (program : Program σ) (progress : Progress σ) : View := (progress.counted program).view

/-- What observers see of the runs that fail among those within a budget. -/
def alarms (program : Program σ) (budget : Nat) (progress : Progress σ) : List View :=
  ((progress.trail program budget).filter fun turn => (turn.visit program).fails).map
    (alarm program)

/-- Of a run that fails observers see its path, and the record of its violation. -/
theorem alarm_of_fails (fails : (progress.visit program).fails = true) :
    ∃ violation, (progress.attempt program).1.1 = some violation ∧
      progress.alarm program =
        ⟨progress.search.options.target, progress.left program,
          some (Record.ofPath (progress.search.violations.length + 1) violation
            (progress.left program))⟩ := by
  obtain ⟨-, violation, violated⟩ := Visit.fails_iff.mp fails
  refine ⟨violation, violated, ?_⟩
  simp only [visit_result] at violated
  simp [alarm, counted, violated, view, record, count]

/-- What is told by a run, and what it adds to the records. -/
def told (program : Program σ) (progress : Progress σ) : List View :=
  if (progress.visit program).fails then [progress.alarm program] else []

theorem alarms_eq_flatMap (program : Program σ) (budget : Nat) (progress : Progress σ) :
    progress.alarms program budget = (progress.trail program budget).flatMap (told program) := by
  rw [alarms]
  induction progress.trail program budget with
  | nil => rfl
  | cons turn rest ih =>
      rw [List.filter_cons, List.flatMap_cons, told, ← ih]
      cases (turn.visit program).fails <;> rfl

theorem notices_of_turn (reached : Progress σ) :
    reached.turn.2.notices = reached.notices ++ closing reached.turn.1 reached.turn.2.search.view ∧
      reached.turn.2.search.violations = reached.search.violations := by
  unfold turn
  split
  · exact ⟨(List.append_nil _).symm, rfl⟩
  · exact ⟨rfl, rfl⟩

/-- A step tells of its run if it fails, then of the end of the search if it finishes. -/
theorem step_tells (program : Program σ) (progress : Progress σ) :
    let stepped := progress.step program
    stepped.2.notices =
        progress.notices ++ (progress.told program).map .violated ++
          closing stepped.1 stepped.2.search.view ∧
      stepped.2.search.violations.map some =
        progress.search.violations.map some ++ (progress.told program).map View.last? := by
  dsimp only
  cases fault : (progress.attempt program).2.fault with
  | some reason =>
      have silent : progress.told program = [] := by simp [told, Visit.fails, fault]
      rw [step_of_fault fault, silent]
      exact ⟨by simp [closing, stopped], by simp [stopped]⟩
  | none =>
      rw [step_of_no_fault fault]
      cases found : (progress.attempt program).1.1 with
      | none =>
          have silent : progress.told program = [] := by simp [told, Visit.fails, found]
          obtain ⟨notices_eq, violations_eq⟩ := notices_of_turn
            { progress with
              search := progress.counted program, state := (progress.attempt program).1.2 }
          dsimp only
          rw [notices_eq, violations_eq, silent]
          exact ⟨by simp, by simp [counted, found, count]⟩
      | some violation =>
          have heard : progress.told program = [progress.alarm program] := by
            simp [told, Visit.fails, fault, found]
          have recorded : (progress.counted program).violations.map some =
              progress.search.violations.map some ++ [(progress.alarm program).last?] := by
            simp [alarm, counted, found, count, record, view]
          cases progress.search.options.multipleErrors with
          | true =>
              obtain ⟨notices_eq, violations_eq⟩ := notices_of_turn
                (tell
                  { progress with
                    search := progress.counted program, state := (progress.attempt program).1.2 }
                  .violated)
              dsimp only
              rw [if_pos rfl, notices_eq, violations_eq, heard]
              exact ⟨rfl, recorded⟩
          | false =>
              dsimp only
              rw [if_neg Bool.false_ne_true, heard]
              exact ⟨rfl, recorded⟩

/-- An exploration tells of the runs that fail, and records their violations. -/
theorem explore_tells (program : Program σ) (budget : Nat) (progress : Progress σ) :
    let explored := explore program budget progress
    explored.2.notices =
        progress.notices ++ (progress.alarms program budget).map .violated ++
          closing (some explored.1) explored.2.search.view ∧
      explored.2.search.violations.map some =
        progress.search.violations.map some ++ (progress.alarms program budget).map View.last? := by
  simp only [alarms_eq_flatMap]
  induction budget generalizing progress with
  | zero => exact ⟨by simp [explore, trail, closing], by simp [explore, trail]⟩
  | succ budget ih =>
      obtain ⟨notices_eq, violations_eq⟩ := step_tells program progress
      cases stepped : progress.step program with
      | mk ending next =>
          rw [stepped] at notices_eq violations_eq
          cases ending with
          | some ending =>
              rw [explore_of_ended stepped, trail_of_ended stepped, List.flatMap_singleton]
              exact ⟨notices_eq, violations_eq⟩
          | none =>
              obtain ⟨later_notices, later_violations⟩ := ih next
              rw [explore_of_step stepped, trail_of_step stepped, List.flatMap_cons,
                later_notices, later_violations, notices_eq, violations_eq]
              simp [closing]

/-- A step that finishes the search has made a run without a fault. -/
theorem unfaulted_of_finished {summary : Summary} {final : Progress σ}
    (stepped : progress.step program = (some (.finished summary), final)) :
    (progress.visit program).fault = none := by
  rw [visit_fault]
  cases fault : (progress.attempt program).2.fault with
  | none => rfl
  | some reason =>
      rw [step_of_fault fault] at stepped
      cases stepped

end Progress

variable {σ : Type} {search : Search} {program : Program σ} {state : σ} {budget : Nat}

def alarms (search : Search) (program : Program σ) (state : σ) (budget : Nat) : List View :=
  (search.outset state).alarms program budget

/-- A search tells of its start, of the runs that fail, and of its end if it finishes. -/
theorem run_notices (search : Search) (program : Program σ) (state : σ) (budget : Nat) :
    (search.run program state budget).2.notices =
      .started search.reset.view ::
        ((search.alarms program state budget).map .violated ++
          closing (some (search.run program state budget).1)
            (search.run program state budget).2.search.view) :=
  (Progress.explore_tells program budget (search.outset state)).1

/-- The runs that fail are seen with the paths that they left. -/
theorem stacks_of_alarms (search : Search) (program : Program σ) (state : σ) (budget : Nat) :
    (search.alarms program state budget).map View.stack =
      ((search.trail program state budget).filter fun turn =>
        (turn.visit program).fails).map (Progress.left program) := by
  rw [alarms, Progress.alarms, List.map_map]
  exact List.map_congr_left fun turn _ => turn.counted_stack

/-- The violations of a search are recorded as observers see them. -/
theorem run_violations (search : Search) (program : Program σ) (state : σ) (budget : Nat) :
    (search.run program state budget).2.search.violations.map some =
      (search.alarms program state budget).map View.last? :=
  (Progress.explore_tells program budget (search.outset state)).2

/-- The violations that a search tells of are those that observers see. -/
theorem violations_of_notices (search : Search) (program : Program σ) (state : σ)
    (budget : Nat) :
    (search.run program state budget).2.notices.filterMap Notice.violation? =
      search.alarms program state budget := by
  rw [run_notices, List.filterMap_cons_none rfl, List.filterMap_append, filterMap_violated,
    filterMap_closing, List.append_nil]

/-- A violation is seen with the path of a run, and with the record that has its number. -/
theorem record_of_alarm {place : Nat} {view : View}
    (there : (search.alarms program state budget)[place]? = some view) :
    ∃ record, view.last? = some record ∧
      (search.run program state budget).2.search.violations[place]? = some record ∧
      record.id = errorId (place + 1) ∧ record.depth = view.stack.depth ∧
      record.path = view.stack.texts := by
  obtain ⟨turn, member, rfl⟩ := List.mem_map.mp (List.mem_of_getElem? there)
  obtain ⟨violation, -, seen⟩ := Progress.alarm_of_fails (List.mem_filter.mp member).2
  have recorded := congrArg (·[place]?) (run_violations search program state budget)
  simp only [List.getElem?_map, there, Option.map_some, seen] at recorded
  obtain ⟨record, found, record_eq⟩ := Option.map_eq_some_iff.mp recorded
  have numbered : (search.run program state budget).2.search.violations.map Record.id =
      (List.range (search.run program state budget).2.search.violations.length).map
        fun before => errorId (before + 1) := by
    have closed := congrArg Summary.violations (search.summary_run program state budget)
    rw [show (search.run program state budget).2.search.violations = _ from closed]
    exact records_ids _
  have id_eq := congrArg (·[place]?) numbered
  have within := (List.getElem?_eq_some_iff.mp found).1
  simp only [List.getElem?_map, found, Option.map_some, List.getElem?_range within] at id_eq
  refine ⟨record, ?_, found, Option.some.inj id_eq, ?_⟩
  · rw [seen]
    exact record_eq.symm
  · rw [seen, Option.some.inj record_eq]
    exact ⟨rfl, rfl⟩

/-- The last violation that is seen in the end has the number of violations for its number. -/
theorem last_id (search : Search) (program : Program σ) (state : σ) (budget : Nat) :
    (search.run program state budget).2.search.view.last?.map Record.id =
      if (search.alarms program state budget).length = 0 then none
      else some (errorId (search.alarms program state budget).length) := by
  let violations := (search.run program state budget).2.search.violations
  have same_length : violations.length = (search.alarms program state budget).length := by
    simpa using congrArg List.length (search.run_violations program state budget)
  have last_eq : (search.run program state budget).2.search.view.last? =
      violations[violations.length - 1]? :=
    List.getLast?_eq_getElem?
  rw [last_eq, same_length]
  split
  · rename_i empty
    rw [empty, List.getElem?_eq_none (by omega)]
    rfl
  · rename_i some_seen
    have within : (search.alarms program state budget).length - 1 <
        (search.alarms program state budget).length := by omega
    obtain ⟨record, -, found, id_eq, -⟩ := record_of_alarm (List.getElem?_eq_getElem within)
    rw [show violations[_]? = some record from found, Option.map_some, id_eq,
      Nat.sub_add_cancel (Nat.pos_of_ne_zero some_seen)]

/-- A search that stops at the first violation goes on only after runs that do not fail. -/
theorem Visit.fails_of_goes_on {visit : Visit (Option Violation)} {options : Options}
    (single : options.multipleErrors = false) (goes_on : visit.halts options = false) :
    visit.fails = false := by
  rw [Bool.eq_false_iff]
  intro fails
  obtain ⟨-, violation, violated⟩ := Visit.fails_iff.mp fails
  rw [halts, violated, single] at goes_on
  simp at goes_on

/--
A search that finishes leaves the path of the violation that stopped it, and no path if
none did.
-/
theorem stack_of_finished {summary : Summary}
    (finished : (search.run program state budget).1 = .finished summary) :
    (search.run program state budget).2.search.stack =
      if search.options.multipleErrors then .empty
      else (((search.alarms program state budget).getLast?).map View.stack).getD .empty := by
  obtain ⟨before, last, made, go_on, stepped⟩ := Progress.exists_last finished
  have same {turn : Progress σ} (member : turn ∈ before ++ [last]) :
      turn.search.options = search.options :=
    Progress.options_of_mem_trail (made ▸ member)
  have last_same := same (List.mem_append_right _ List.mem_cons_self)
  have alarms_eq : search.alarms program state budget =
      ((before ++ [last]).filter fun turn => (turn.visit program).fails).map
        (Progress.alarm program) := by
    rw [alarms, Progress.alarms, ← made]
    rfl
  rw [alarms_eq]
  rcases Progress.finished_cases stepped with ⟨exhausts, emptied⟩ | ⟨violation, stops, kept⟩
  · rw [show (search.run program state budget).2.search.stack = .empty from emptied]
    cases multiple : search.options.multipleErrors with
    | true => rfl
    | false =>
        have none_fails : (before ++ [last]).filter (fun turn => (turn.visit program).fails) =
            [] := by
          rw [List.filter_eq_nil_iff]
          intro turn member
          have goes_on : (turn.visit program).halts turn.search.options = false := by
            rcases List.mem_append.mp member with earlier | final
            · exact go_on turn earlier
            · rw [List.mem_singleton.mp final]
              exact exhausts.goes_on
          rw [same member] at goes_on
          simp [Visit.fails_of_goes_on multiple goes_on]
        rw [none_fails]
        rfl
  · have single : search.options.multipleErrors = false := last_same ▸ stops.single
    have fails : (last.visit program).fails = true :=
      Visit.fails_iff.mpr ⟨Progress.unfaulted_of_finished stepped, violation, stops.violated⟩
    obtain ⟨_, -, seen⟩ := Progress.alarm_of_fails fails
    rw [single, List.filter_append, List.filter_cons, if_pos fails, List.filter_nil,
      List.map_append, List.map_singleton, List.getLast?_concat, seen]
    exact kept

end ChoiceExplorer.Search
