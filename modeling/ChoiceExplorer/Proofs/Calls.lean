import ChoiceExplorer.Proofs.ChoiceTree

/-!
# Single calls of a run

Each way in which a request can be answered, as an equation under the conditions
that lead to it.  A random value is a request or a draw, as the options say.
-/

namespace ChoiceExplorer

namespace Generator

/-- A generator offers what a request asks for, and has been started. -/
structure Serves (generator : Generator) (request : Request) : Prop where
  id_eq : generator.id = request.id
  alternatives_eq : generator.alternatives = request.alternatives
  started : 0 < generator.taken

namespace Serves

variable {generator : Generator} {request : Request}

theorem kind_eq (serves : generator.Serves request) : generator.kind = request.kind := by
  rw [Generator.kind, Request.kind, serves.alternatives_eq]

theorem taken_le_size (serves : generator.Serves request) :
    generator.taken ≤ request.alternatives.size := by
  rw [← serves.alternatives_eq]
  exact generator.taken_le

theorem value_eq (serves : generator.Serves request) :
    generator.value?.getD request.alternatives.fallback =
      request.value (generator.taken - 1) := by
  obtain ⟨before, count⟩ : ∃ before, generator.taken = before + 1 :=
    ⟨generator.taken - 1, by have := serves.started; omega⟩
  simp only [Generator.value?, Request.value, count, serves.alternatives_eq, Nat.add_sub_cancel]

theorem bare_eq (serves : generator.Serves request) :
    generator.bare = request.pick (generator.taken - 1) := by
  have started := serves.started
  have bounded := serves.taken_le_size
  obtain ⟨id_eq, alternatives_eq, -⟩ := serves
  cases generator with
  | mk id alternatives taken retired location taken_le =>
      cases id_eq
      cases alternatives_eq
      have last : taken - 1 + 1 = taken := Nat.sub_add_cancel started
      simp [Generator.bare, Request.pick, Generator.unstarted, Generator.advanceBy, last,
        Nat.min_eq_left bounded]

theorem retire (serves : generator.Serves request) : generator.retire.Serves request :=
  ⟨serves.id_eq, serves.alternatives_eq, serves.started⟩

end Serves

theorem unretired_of_hasMore {generator : Generator} (more : generator.hasMore = true) :
    generator.retired = false := by
  simp only [hasMore, Bool.and_eq_true, Bool.not_eq_true'] at more
  exact more.1

theorem taken_lt_of_hasMore {generator : Generator} (more : generator.hasMore = true) :
    generator.taken < generator.alternatives.size := by
  simp only [hasMore, Bool.and_eq_true, decide_eq_true_eq] at more
  exact more.2

/-- A generator that is not retired is exhausted when all its alternatives are taken. -/
theorem size_le_of_exhausted {generator : Generator} (exhausted : generator.hasMore = false)
    (unretired : generator.retired = false) : generator.alternatives.size ≤ generator.taken := by
  simp only [hasMore, unretired, Bool.not_false, Bool.true_and, decide_eq_false_iff_not,
    Nat.not_lt] at exhausted
  exact exhausted

theorem advance_of_hasMore {generator : Generator} (more : generator.hasMore = true) :
    generator.advance.id = generator.id ∧
      generator.advance.alternatives = generator.alternatives ∧
      generator.advance.taken = generator.taken + 1 ∧
      generator.advance.retired = false ∧
      generator.advance.location = generator.location := by
  have unretired := unretired_of_hasMore more
  unfold advance
  rw [dif_pos more]
  exact ⟨rfl, rfl, rfl, unretired, rfl⟩

theorem Serves.advance {generator : Generator} {request : Request}
    (serves : generator.Serves request) (more : generator.hasMore = true) :
    generator.advance.Serves request := by
  obtain ⟨id_eq, alternatives_eq, taken_eq, -⟩ := advance_of_hasMore more
  refine ⟨id_eq.trans serves.id_eq, alternatives_eq.trans serves.alternatives_eq, ?_⟩
  rw [taken_eq]
  exact Nat.succ_pos _

end Generator

namespace Search.Execution

open Chance (Draw)

variable {execution : Execution} {request : Request} {recorded : Generator}
  {ahead : List Generator}

/-- A new generator stands at the first alternative, if there is one. -/
theorem generator_serves (execution : Execution) (offers : request.alternatives.size ≠ 0) :
    (execution.generator request).Serves request ∧ (execution.generator request).taken = 1 ∧
      (execution.generator request).retired = false ∧
      (execution.generator request).location = execution.location := by
  let fresh : Generator :=
    { id := request.id, alternatives := request.alternatives, location := execution.location }
  have more : fresh.hasMore = true := by
    simp only [fresh, Generator.hasMore, Bool.not_false, Bool.true_and, decide_eq_true_eq]
    omega
  obtain ⟨id_eq, alternatives_eq, taken_eq, retired_eq, location_eq⟩ :=
    Generator.advance_of_hasMore more
  have started : 0 < fresh.advance.taken := by
    rw [taken_eq]
    exact Nat.succ_pos _
  exact ⟨⟨id_eq, alternatives_eq, started⟩, taken_eq, retired_eq, location_eq⟩

theorem generator_value? (offers : request.alternatives.size ≠ 0) :
    (execution.generator request).value? = some (request.value 0) := by
  obtain ⟨serves, taken_eq, -⟩ := generator_serves execution offers
  have first : (request.alternatives.get? 0).isSome = true := by
    rw [Alternatives.get?_isSome]
    exact decide_eq_true (Nat.pos_of_ne_zero offers)
  obtain ⟨value, found⟩ := Option.isSome_iff_exists.mp first
  simp only [Generator.value?, taken_eq, serves.alternatives_eq, Request.value, found,
    Option.getD_some]

theorem generator_value?_of_empty (none_left : request.alternatives.size = 0) :
    (execution.generator request).value? = none := by
  let fresh : Generator :=
    { id := request.id, alternatives := request.alternatives, location := execution.location }
  have stuck : fresh.advance = fresh := by
    unfold Generator.advance
    rw [dif_neg]
    simp [fresh, Generator.hasMore, none_left]
  show fresh.advance.value? = none
  rw [stuck]
  rfl

/-- After a fault every request gets its fallback. -/
theorem choose_of_fault (fault : execution.fault.isSome = true) :
    execution.choose request =
      (request.alternatives.fallback, { execution with location := none }) := by
  rw [choose, if_pos fault]

/-- A recorded choice of the requested kind is replayed. -/
theorem choose_of_recorded (fault : execution.fault = none)
    (reached : execution.ahead = recorded :: ahead) (kind : recorded.kind = request.kind) :
    execution.choose request =
      (recorded.value?.getD request.alternatives.fallback,
        { execution with passed := recorded :: execution.passed, ahead, location := none }) := by
  simp [choose, fault, reached, kind]

/-- A recorded choice of another kind is a fault. -/
theorem choose_of_other (fault : execution.fault = none)
    (reached : execution.ahead = recorded :: ahead) (kind : recorded.kind ≠ request.kind) :
    execution.choose request =
      (request.alternatives.fallback,
        { execution with
          location := none
          fault := some (.divergence execution.depth recorded.kind request.kind) }) := by
  simp [choose, fault, reached, kind]

/-- A new choice point without alternatives is a fault. -/
theorem choose_of_empty (fault : execution.fault = none) (reached : execution.ahead = [])
    (empty : request.alternatives.size = 0) :
    execution.choose request =
      (request.alternatives.fallback,
        { execution with location := none, fault := some (.emptyChoice request.id) }) := by
  simp [choose, fault, reached, generator_value?_of_empty empty]

/-- On a full path the first alternative is taken and the choice point forgotten. -/
theorem choose_of_full (fault : execution.fault = none) (reached : execution.ahead = [])
    (offers : request.alternatives.size ≠ 0)
    (full : execution.options.isFull execution.passed.length = true) :
    execution.choose request =
      (request.value 0, { execution with location := none, truncated := true }) := by
  have isFull : execution.isFull = true := full
  simp [choose, fault, reached, generator_value? offers, isFull]

/-- Else a new choice point is recorded at its first alternative. -/
theorem choose_of_new (fault : execution.fault = none) (reached : execution.ahead = [])
    (offers : request.alternatives.size ≠ 0)
    (room : execution.options.isFull execution.passed.length = false) :
    execution.choose request =
      (request.value 0,
        { execution with
          passed := execution.generator request :: execution.passed, location := none }) := by
  have isFull : execution.isFull = false := room
  simp [choose, fault, reached, generator_value? offers, isFull]

/-- The ways in which a request is answered, one for each equation above. -/
theorem choose_cases {motive : Value × Execution → Prop} (execution : Execution)
    (request : Request)
    (faulted : execution.fault.isSome = true →
      motive (request.alternatives.fallback, { execution with location := none }))
    (replayed : ∀ recorded ahead, execution.fault = none → execution.ahead = recorded :: ahead →
      recorded.kind = request.kind →
      motive (recorded.value?.getD request.alternatives.fallback,
        { execution with passed := recorded :: execution.passed, ahead, location := none }))
    (diverged : ∀ recorded ahead, execution.fault = none → execution.ahead = recorded :: ahead →
      recorded.kind ≠ request.kind →
      motive (request.alternatives.fallback,
        { execution with
          location := none
          fault := some (.divergence execution.depth recorded.kind request.kind) }))
    (empty : execution.fault = none → execution.ahead = [] → request.alternatives.size = 0 →
      motive (request.alternatives.fallback,
        { execution with location := none, fault := some (.emptyChoice request.id) }))
    (forced : execution.fault = none → execution.ahead = [] → request.alternatives.size ≠ 0 →
      execution.options.isFull execution.passed.length = true →
      motive (request.value 0, { execution with location := none, truncated := true }))
    (new : execution.fault = none → execution.ahead = [] → request.alternatives.size ≠ 0 →
      execution.options.isFull execution.passed.length = false →
      motive (request.value 0,
        { execution with
          passed := execution.generator request :: execution.passed, location := none })) :
    motive (execution.choose request) := by
  cases fault : execution.fault with
  | some reason =>
      have isSome : execution.fault.isSome = true := by rw [fault]; rfl
      rw [choose_of_fault isSome]
      exact faulted isSome
  | none =>
      cases reached : execution.ahead with
      | cons recorded ahead =>
          by_cases kind : recorded.kind = request.kind
          · rw [choose_of_recorded fault reached kind]
            exact replayed recorded ahead fault reached kind
          · rw [choose_of_other fault reached kind]
            exact diverged recorded ahead fault reached kind
      | nil =>
          by_cases offers : request.alternatives.size = 0
          · rw [choose_of_empty fault reached offers]
            exact empty fault reached offers
          · cases full : execution.options.isFull execution.passed.length with
            | true =>
                rw [choose_of_full fault reached offers full]
                exact forced fault reached offers full
            | false =>
                rw [choose_of_new fault reached offers full]
                exact new fault reached offers full

/-- A random value is a choice where the options make it one. -/
theorem draw_of_request {source : Draw}
    (asked : execution.options.request? source = some request) :
    execution.draw source = execution.choose request := by
  unfold Options.request? at asked
  unfold draw
  split at asked
  · rename_i enumerate
    rw [if_pos enumerate]
    simp only [asked]
  · cases asked

/-- Else it is drawn, and the location is dropped. -/
theorem draw_of_none {source : Draw} (asked : execution.options.request? source = none) :
    execution.draw source =
      ((source.take execution.random).1,
        { execution with random := (source.take execution.random).2, location := none }) := by
  unfold Options.request? at asked
  unfold draw
  split at asked
  · rename_i enumerate
    rw [if_pos enumerate]
    simp only [asked]
  · rename_i drawn
    rw [if_neg drawn]

/-- What every single call keeps is kept by a whole run. -/
theorem perform_keeps {α : Type} {motive : Execution → Prop}
    (tagged : ∀ execution location, motive execution → motive (execution.tag location))
    (retired : ∀ execution, motive execution → motive execution.ignoreRest)
    (chosen : ∀ execution request, motive execution → motive (execution.choose request).2)
    (drawn : ∀ execution random, motive execution →
      motive { execution with random, location := none })
    (run : Run α) (execution : Execution) (holds : motive execution) :
    motive (execution.perform run).2 := by
  induction run generalizing execution with
  | done result => exact holds
  | tag location next ih => exact ih _ (tagged execution location holds)
  | ignoreRest next ih => exact ih _ (retired execution holds)
  | depth next ih => exact ih _ execution holds
  | choose request next ih => exact ih _ _ (chosen execution request holds)
  | draw source next ih =>
      have answered : motive (execution.draw source).2 := by
        cases asked : execution.options.request? source with
        | some request =>
            rw [draw_of_request asked]
            exact chosen execution request holds
        | none =>
            rw [draw_of_none asked]
            exact drawn execution _ holds
      exact ih _ _ answered

end Search.Execution

end ChoiceExplorer
