import ChoiceExplorer.Proofs.Leaves
import ChoiceExplorer.Proofs.ScriptRuns

/-!
# Drawn values

A drawn number lies below its bound.  So a truth value or a whole number that is drawn
is one of the alternatives of the choice point that stands for it when random values
are enumerated.  Of floating-point and long numbers only a few are enumerated.
-/

namespace ChoiceExplorer

namespace Request

/-- An alternative that is listed at a position is the value of the request there. -/
theorem value_of_getElem? {request : Request} {position : Nat} {listed : Value}
    (found : request.alternatives.toList[position]? = some listed) :
    position < request.alternatives.size ∧ request.value position = listed := by
  have within := (List.getElem?_eq_some_iff.mp found).1
  rw [Alternatives.length_toList] at within
  rw [Alternatives.getElem?_toList] at found
  exact ⟨within, by rw [Request.value, found, Option.getD_some]⟩

end Request

namespace Chance

/-- A number is drawn from below its bound. -/
theorem Stream.below_lt {bound : Nat} (positive : 0 < bound) (tries : Nat) (stream : Stream) :
    (stream.below bound tries).1 < bound := by
  induction tries generalizing stream with
  | zero => exact positive
  | succ tries ih =>
      simp only [below]
      split
      · refine Nat.div_lt_of_lt_mul ?_
        exact Nat.mul_lt_mul_of_pos_right (UInt64.toNat_lt_size _) positive
      · exact ih _

namespace Draw

/-- Whether every value that can be drawn is listed when random values are enumerated. -/
def isListed : Draw → Bool
  | bool | int _ => true
  | double | float | long => false

variable {source : Draw}

/-- A listed value that is drawn is an alternative of the choice point that stands for it. -/
theorem exists_position {request : Request} (listed : source.isListed = true)
    (asked : source.request? = some request) (stream : Stream) :
    ∃ position, position < request.alternatives.size ∧
      request.value position = (source.take stream).1 := by
  cases source with
  | bool =>
      cases asked
      cases drawn : stream.bool.1 with
      | false => exact ⟨0, Request.value_of_getElem? (by simp [take, drawn]; rfl)⟩
      | true => exact ⟨1, Request.value_of_getElem? (by simp [take, drawn]; rfl)⟩
  | int bound =>
      by_cases positive : bound ≤ 0
      · simp [request?, positive] at asked
      · simp only [request?, if_neg positive, Option.some.injEq] at asked
        subst asked
        have drawn := Stream.below_lt (by omega : 0 < bound.toNat) Stream.tries stream
        refine ⟨(stream.below bound.toNat Stream.tries).1, Request.value_of_getElem? ?_⟩
        have within : (stream.below bound.toNat Stream.tries).1 < (bound - 1 + 1 - 0).toNat := by
          omega
        rw [Request.int_values, List.getElem?_map, List.getElem?_range within]
        simp [take, positive]
  | double => cases listed
  | float => cases listed
  | long => cases listed

/-- Without a choice point that stands for it, a listed value is drawn from no word. -/
theorem take_of_unasked (listed : source.isListed = true) (unasked : source.request? = none)
    (stream : Stream) : source.take stream = (.int 0, stream) := by
  cases source with
  | bool => cases unasked
  | int bound =>
      by_cases positive : bound ≤ 0
      · simp [take, positive]
      · simp [request?, positive] at unasked
  | double => cases listed
  | float => cases listed
  | long => cases listed

end Draw

end Chance

namespace Run

variable {α β : Type}

/-- Whatever it can be answered, a run draws only values that are listed. -/
def Listed : Run α → Prop
  | done _ => True
  | tag _ next => next.Listed
  | ignoreRest next => next.Listed
  | depth next => ∀ count, (next count).Listed
  | choose request next => ∀ position, (next (request.value position)).Listed
  | draw source next =>
      source.isListed = true ∧
        (∀ random, (next (source.take random).1).Listed) ∧
          ∀ request, source.request? = some request →
            ∀ position, (next (request.value position)).Listed

namespace Listed

theorem bind {run : Run α} {next : α → Run β} (before : run.Listed)
    (after : ∀ result, (next result).Listed) : (run.bind next).Listed := by
  induction run with
  | done result => exact after result
  | tag location rest ih => exact ih before
  | ignoreRest rest ih => exact ih before
  | depth rest ih => exact fun count => ih count (before count)
  | choose request rest ih => exact fun position => ih _ (before position)
  | draw source rest ih =>
      obtain ⟨is_listed, drawn, asked⟩ := before
      exact ⟨is_listed, fun random => ih _ (drawn random),
        fun request offered position => ih _ (asked request offered position)⟩

end Listed

end Run

namespace Script

def Query.isListed : Query → Bool
  | draw source => source.isListed
  | choose _ | depth | runNumber => true

mutual

def Statement.listed : Statement → Bool
  | .branch _ agreed otherwise => listedAll agreed && listedAll otherwise
  | .loop _ body => listedAll body
  | .ask query .. => query.isListed
  | .leave | .fail .. | .tag _ | .ignoreRest => true

def listedAll : List Statement → Bool
  | [] => true
  | statement :: rest => statement.listed && listedAll rest

end

theorem Query.ask_listed {query : Query} (listed : query.isListed = true) (number : Nat) :
    (query.ask number).Listed := by
  cases query with
  | choose request => exact fun _ => trivial
  | draw source => exact ⟨listed, fun _ => trivial, fun _ _ _ => trivial⟩
  | depth => exact fun _ => trivial
  | runNumber => trivial

theorem listedAll_iff {script : List Statement} :
    listedAll script = true ↔ ∀ statement ∈ script, statement.listed = true := by
  induction script with
  | nil => simp [listedAll]
  | cons statement rest ih => simp [listedAll, ih]

theorem listed_carries (number : Nat) :
    Carries number (fun statement => statement.listed = true) Run.Listed where
  branch listed := by
    rw [Statement.listed, Bool.and_eq_true, listedAll_iff, listedAll_iff] at listed
    exact listed
  loop listed := by
    rw [Statement.listed, listedAll_iff] at listed
    exact listed
  done _ := trivial
  bind before after := before.bind after
  tag listed := listed
  ignoreRest _ _ listed := listed
  ask listed _ := by
    rw [Statement.listed] at listed
    exact (Query.ask_listed listed number).bind fun _ => trivial

/-- What a script does that draws only listed values does so too. -/
theorem body_listed {script : List Statement} (listed : listedAll script = true) :
    (body script).Listed :=
  ((listed_carries 1).performAll script (listedAll_iff.mp listed) {}).bind fun _ => trivial

end Script

end ChoiceExplorer
