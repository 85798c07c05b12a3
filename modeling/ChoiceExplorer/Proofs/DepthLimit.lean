import ChoiceExplorer.Proofs.BlindRuns
import ChoiceExplorer.Proofs.Exploration

/-!
# Searches under a depth limit

A depth limit does not change what a program is told on the paths that stay
within it.  Of the others it leaves those that take first alternatives past the
limit, and cuts their paths there.
-/

namespace ChoiceExplorer.Search

def Options.withLimit (options : Options) (limit : Option Nat) : Options :=
  { options with depthLimit := limit }

def withLimit (search : Search) (limit : Option Nat) : Search :=
  { search with options := search.options.withLimit limit }

/-- Whether a path takes only first alternatives past a depth. -/
def takesFirstPast (limit : Nat) (path : List Generator) : Bool :=
  (path.drop limit).all fun generator => generator.taken = 1

variable {α : Type} {limit : Nat}

def Visit.cutAt (limit : Nat) (visit : Visit α) : Visit α :=
  { visit with
    path := visit.path.take limit
    truncated := limit < visit.path.length }

/-- The runs that take only first alternatives past a depth, cut there. -/
def cutAt (limit : Nat) (visits : List (Visit α)) : List (Visit α) :=
  (visits.filter fun visit => takesFirstPast limit visit.path).map (Visit.cutAt limit)

def Course.cutAt (limit : Nat) (course : Course) : Course :=
  { course with
    path := course.path.take limit
    truncated := limit < course.path.length }

theorem takesFirstPast_of_le {path : List Generator} (le : path.length ≤ limit) :
    takesFirstPast limit path = true := by
  rw [takesFirstPast, List.drop_eq_nil_of_le le]
  rfl

theorem takesFirstPast_concat {path : List Generator} (le : limit ≤ path.length)
    (generator : Generator) :
    takesFirstPast limit (path ++ [generator]) =
      (takesFirstPast limit path && decide (generator.taken = 1)) := by
  simp [takesFirstPast, List.drop_append_of_le_length le]

theorem takesFirstPast_of_prefix {front path : List Generator} (is_front : front <+: path)
    (takes : takesFirstPast limit path = true) : takesFirstPast limit front = true := by
  obtain ⟨rest, rfl⟩ := is_front
  rw [takesFirstPast, List.drop_append, List.all_append, Bool.and_eq_true] at takes
  exact takes.1

/-- The path of a run goes on from where it has come to. -/
theorem Course.prefix_of_mem_leaves {options : Options} {run : Run α} {course : Course}
    {leaf : Visit α} (member : leaf ∈ (run.tree options course).leaves) :
    course.path <+: leaf.path := by
  have kept := Course.leaves_keep (motive := fun reached => course.path <+: reached.path) options
    ?noted ?drawn ?stuck ?forced ?passed run (List.prefix_refl _) leaf member
  case noted => exact fun _ _ kept => kept
  case drawn => exact fun _ _ kept => kept
  case stuck => exact fun _ _ kept => kept
  case forced => exact fun _ _ kept => kept
  case passed => exact fun _ _ _ _ kept => kept.trans (List.prefix_append _ _)
  obtain ⟨reached, result, kept, rfl⟩ := kept
  exact kept

theorem cutAt_flatMap (positions : List Nat) (leaves : Nat → List (Visit α)) :
    cutAt limit (positions.flatMap leaves) =
      positions.flatMap fun position => cutAt limit (leaves position) := by
  simp only [cutAt, List.filter_flatMap, List.map_flatMap]

section

variable {course : Course} {request : Request}

theorem pass_cutAt_of_lt (lt : course.path.length < limit) (position : Nat) :
    (course.pass request position).cutAt limit = (course.cutAt limit).pass request position := by
  have whole : course.path.take limit = course.path := List.take_of_length_le (Nat.le_of_lt lt)
  have longer : (course.path ++ [request.pick position]).take limit =
      course.path ++ [request.pick position] :=
    List.take_of_length_le (by rw [List.length_append]; exact lt)
  have within : ¬limit < course.path.length + 1 := by omega
  have shorter : ¬limit < course.path.length := by omega
  simp [Course.cutAt, Course.pass, Course.note, whole, longer, within, shorter]

theorem pass_cutAt_of_le (le : limit ≤ course.path.length) (position : Nat) :
    (course.pass request position).cutAt limit =
      { (course.cutAt limit).note (.value (request.value position)) with truncated := true } := by
  have same : (course.path ++ [request.pick position]).take limit = course.path.take limit :=
    List.take_append_of_le_length le
  have beyond : limit < course.path.length + 1 := by omega
  simp [Course.cutAt, Course.pass, Course.note, same, beyond]

end

/-- Past the limit nothing is left below a later alternative. -/
theorem cutAt_later {options : Options} {run : Run α} {course : Course} {request : Request}
    {position : Nat} (le : limit ≤ course.path.length) (later : position ≠ 0)
    (lt : position < request.alternatives.size) :
    cutAt limit (run.tree options (course.pass request position)).leaves = [] := by
  rw [cutAt, List.map_eq_nil_iff, List.filter_eq_nil_iff]
  intro leaf member takes
  have front := takesFirstPast_of_prefix (Course.prefix_of_mem_leaves member) takes
  have taken := Request.pick_taken lt
  simp [Course.pass, takesFirstPast_concat le, taken, later] at front

/-- Under a depth limit a request leads to what is cut from where it leads without one. -/
theorem leaves_ask_cutAt {options : Options} {request : Request} {next : Value → Run α}
    (blind : ∀ position, (next (request.value position)).Blind)
    (ih : ∀ (position : Nat) (course : Course), takesFirstPast limit course.path = true →
      ((next (request.value position)).tree (options.withLimit (some limit))
          (course.cutAt limit)).leaves =
        cutAt limit ((next (request.value position)).tree (options.withLimit none) course).leaves)
    (course : Course) (takes : takesFirstPast limit course.path = true) :
    ((course.cutAt limit).ask (options.withLimit (some limit)) request fun value course =>
        (next value).tree (options.withLimit (some limit)) course).leaves =
      cutAt limit (course.ask (options.withLimit none) request fun value course =>
        (next value).tree (options.withLimit none) course).leaves := by
  cases fault : course.fault with
  | some reason =>
      have faulted : course.fault.isSome = true := by rw [fault]; rfl
      have faulted_cut : (course.cutAt limit).fault.isSome = true := faulted
      rw [Course.ask_of_fault faulted, Course.ask_of_fault faulted_cut, ← request.value_size]
      exact ih _ (course.note _) takes
  | none =>
      have unfaulted : (course.cutAt limit).fault = none := fault
      by_cases offers : request.alternatives.size = 0
      · rw [Course.ask_of_empty fault offers, Course.ask_of_empty unfaulted offers,
          ← request.value_size]
        exact ih _ { course.note _ with fault := some _ } takes
      · have unlimited : (options.withLimit none).isFull course.path.length = false := rfl
        rw [Course.ask_of_room fault offers unlimited,
          leaves_node_of_blind fun position => givesUp_of_blind (blind position) _ _, cutAt_flatMap]
        -- Above the limit both trees branch; past it only the first branch is kept.
        rcases Nat.lt_or_ge course.path.length limit with lt | le
        · have room : (options.withLimit (some limit)).isFull (course.cutAt limit).path.length =
              false := by
            simp only [Options.withLimit, Options.isFull, Course.cutAt, Option.any_some,
              List.length_take, decide_eq_false_iff_not]
            omega
          rw [Course.ask_of_room unfaulted offers room,
            leaves_node_of_blind fun position => givesUp_of_blind (blind position) _ _]
          refine congrArg (fun leaves => List.flatMap leaves _) (funext fun position => ?_)
          rw [← pass_cutAt_of_lt lt]
          refine ih position (course.pass request position) (takesFirstPast_of_le ?_)
          simp [Course.pass, Nat.succ_le_of_lt lt]
        · have full : (options.withLimit (some limit)).isFull (course.cutAt limit).path.length =
              true := by
            simp [Options.withLimit, Options.isFull, Course.cutAt, le]
          rw [Course.ask_of_full unfaulted offers full, ← pass_cutAt_of_le le]
          obtain ⟨count, size⟩ := Nat.exists_eq_succ_of_ne_zero offers
          have first : takesFirstPast limit (course.pass request 0).path = true := by
            have taken := Request.pick_taken (Nat.pos_of_ne_zero offers)
            simp [Course.pass, takesFirstPast_concat le, takes, taken]
          rw [size, List.range_succ_eq_map, List.flatMap_cons, ← ih 0 _ first]
          refine (List.append_right_eq_self.mpr (List.flatMap_eq_nil_iff.mpr ?_)).symm
          intro position member
          obtain ⟨before, below, rfl⟩ := List.mem_map.mp member
          have lt : before + 1 < request.alternatives.size := by
            rw [size]
            exact Nat.succ_lt_succ (List.mem_range.mp below)
          exact cutAt_later le (Nat.succ_ne_zero before) lt

/-- The leaves under a depth limit are cut from those without one. -/
theorem leaves_cutAt {run : Run α} (blind : run.Blind) (options : Options) (course : Course)
    (takes : takesFirstPast limit course.path = true) :
    (run.tree (options.withLimit (some limit)) (course.cutAt limit)).leaves =
      cutAt limit (run.tree (options.withLimit none) course).leaves := by
  induction run generalizing course with
  | done result =>
      simp only [Run.tree, ChoiceTree.leaves, cutAt, List.filter_cons, List.filter_nil]
      rw [if_pos (show takesFirstPast limit (course.visit result).path = true from takes)]
      rfl
  | tag location next ih => exact ih blind course takes
  | ignoreRest next ih => exact blind.elim
  | depth next ih => exact blind.elim
  | choose request next ih =>
      exact leaves_ask_cutAt blind (fun position => ih _ (blind position)) course takes
  | draw source next ih =>
      have same (limit : Option Nat) :
          (options.withLimit limit).request? source = options.request? source := rfl
      rw [Run.tree, Run.tree, same, same]
      cases asked : options.request? source with
      | some request =>
          have offered := Options.offered_of_request? asked
          exact leaves_ask_cutAt (blind.2 request offered)
            (fun position => ih _ (blind.2 request offered position)) course takes
      | none =>
          let drawn := source.take course.random
          exact ih _ (blind.1 course.random)
            { course.note (.value drawn.1) with random := drawn.2 } takes

theorem truncated_cutAt (visits : List (Visit α)) :
    (cutAt limit visits).countP Visit.truncated =
      (visits.filter fun visit => takesFirstPast limit visit.path).countP fun visit =>
        limit < visit.path.length := by
  rw [cutAt, List.countP_map]
  rfl

theorem longest_cutAt (visits : List (Visit α)) :
    longest (cutAt limit visits) =
      ((visits.filter fun visit => takesFirstPast limit visit.path).map fun visit =>
        min visit.path.length limit).foldl max 0 := by
  simp [longest, cutAt, Function.comp_def, Visit.cutAt, Nat.min_comm]

/-- Runs that stay within a depth are not changed by cutting them there. -/
theorem cutAt_of_le {visits : List (Visit α)}
    (untruncated : ∀ visit ∈ visits, visit.truncated = false)
    (within : ∀ visit ∈ visits, visit.path.length ≤ limit) : cutAt limit visits = visits := by
  have all : (visits.filter fun visit => takesFirstPast limit visit.path) = visits :=
    List.filter_eq_self.mpr fun visit member => takesFirstPast_of_le (within visit member)
  rw [cutAt, all]
  refine (List.map_congr_left fun visit member => ?_).trans (List.map_id visits)
  have whole : visit.path.take limit = visit.path :=
    List.take_of_length_le (within visit member)
  have shorter : decide (limit < visit.path.length) = visit.truncated := by
    rw [untruncated visit member, decide_eq_false_iff_not]
    exact Nat.not_lt_of_le (within visit member)
  rw [Visit.cutAt, whole, shorter]
  rfl

/--
If a search without a depth limit finishes, a search under one finishes too, and
visits those of its runs that take only first alternatives past the limit, with the
same answers and results.  It counts as truncated the runs with more choices than
the limit allows, and a limit that no path exceeds changes nothing.  This is said of
programs that do the same in every run and that neither ask how deep they are nor
give up alternatives, as scripts without these statements do.
-/
theorem limit_leaves_first_alternatives {σ : Type} (search : Search) (program : Program σ)
    (state : σ) (body : Run (Option Violation)) (limit : Nat)
    (visits : List (Visit (Option Violation))) (summary : Summary)
    (repeats : program.Repeats body) (blind : body.Blind)
    (multiple : search.options.multipleErrors = true)
    (makes : (search.withLimit none).Makes program state visits (.finished summary)) :
    let kept := visits.filter fun visit => takesFirstPast limit visit.path
    (search.withLimit (some limit)).Makes program state (kept.map (Visit.cutAt limit))
      (.finished
        { violations := records (kept.map (Visit.cutAt limit))
          pathsExplored := kept.length
          truncatedPaths := kept.countP fun visit => limit < visit.path.length
          maxDepth := (kept.map fun visit => min visit.path.length limit).foldl max 0 }) ∧
    ((∀ visit ∈ visits, visit.path.length ≤ limit) →
      (search.withLimit (some limit)).Makes program state visits (.finished summary) ∧
        summary.truncatedPaths = 0) ∧
    ∀ script, Script.blindAll script = true → (Script.body script).Blind := by
  intro kept
  have still_multiple : (search.withLimit none).options.multipleErrors = true := multiple
  obtain ⟨all, unfaulted, found⟩ := eq_leaves_of_finished repeats still_multiple makes
  have untruncated : ∀ visit ∈ visits, visit.truncated = false := fun visit member =>
    Options.untruncated_of_mem_leaves rfl body (all ▸ member)
  have start : (Course.start (search.withLimit none).options).cutAt limit =
      .start (search.withLimit (some limit)).options := by
    simp [Course.cutAt, Course.start, withLimit, Options.withLimit]
  have cut : (body.wholeTree (search.withLimit (some limit)).options).leaves =
      cutAt limit visits := by
    rw [all, Run.wholeTree, ← start]
    exact leaves_cutAt blind search.options _ (takesFirstPast_of_le (Nat.zero_le _))
  have limited : (search.withLimit (some limit)).Makes program state (cutAt limit visits)
      (.finished (.closed (cutAt limit visits))) := by
    rw [← cut]
    refine makes_leaves repeats (search.withLimit (some limit)) state multiple ?_
    rw [cut]
    intro visit member
    obtain ⟨whole, kept_member, rfl⟩ := List.mem_map.mp member
    exact unfaulted whole (List.mem_filter.mp kept_member).1
  refine ⟨?_, fun within => ?_, fun script => Script.body_blind⟩
  · rw [Summary.closed, truncated_cutAt, longest_cutAt, cutAt, List.length_map] at limited
    exact limited
  · rw [cutAt_of_le untruncated within, ← found] at limited
    refine ⟨limited, ?_⟩
    rw [found]
    exact List.countP_eq_zero.mpr fun visit member => by simp [untruncated visit member]

def guardedScript : List Script.Statement :=
  [.ask (.choose .bool) none (some "flag"),
    .ask (.choose (.int 0 2)) none none,
    .branch [("flag", "true")] [.fail none [.text "flagged"]] []]

theorem guarded_limit_leaves_first_alternatives :
    let search : Search := { options := { multipleErrors := true } }
    let visits := ((Script.body guardedScript).wholeTree (search.options.withLimit none)).leaves
    let kept := visits.filter fun visit => takesFirstPast 1 visit.path
    visits.length = 6 ∧
    kept.map Visit.answers =
      [[.value (.bool false), .value (.int 0)], [.value (.bool true), .value (.int 0)]] ∧
    (search.withLimit (some 1)).Makes (Script.program guardedScript) #[]
      (kept.map (Visit.cutAt 1))
      (.finished
        { violations := records (kept.map (Visit.cutAt 1))
          pathsExplored := 2
          truncatedPaths := 2
          maxDepth := 1 }) := by
  intro search visits kept
  have repeats : (Script.program guardedScript).Repeats (Script.body guardedScript) :=
    Script.program_repeats rfl
  have unlimited : (search.withLimit none).Makes (Script.program guardedScript) #[] visits
      (.finished (.closed visits)) :=
    makes_leaves repeats (search.withLimit none) #[] rfl (by decide)
  exact ⟨rfl, rfl, (limit_leaves_first_alternatives search (Script.program guardedScript) #[]
    (Script.body guardedScript) 1 visits (.closed visits) repeats (Script.body_blind rfl) rfl
    unlimited).1⟩

end ChoiceExplorer.Search
