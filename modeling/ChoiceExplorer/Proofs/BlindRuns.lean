import ChoiceExplorer.Proofs.Leaves
import ChoiceExplorer.Proofs.ScriptRuns

/-!
# Blind runs

A blind run sees nothing of the search but the values that it is given: it
neither asks how deep it is nor gives up alternatives.  A script that does
neither has only such runs.
-/

namespace ChoiceExplorer

namespace Run

variable {α β : Type}

/-- Whatever it can be answered, a run neither asks how deep it is nor gives up alternatives. -/
def Blind : Run α → Prop
  | done _ => True
  | tag _ next => next.Blind
  | ignoreRest _ => False
  | depth _ => False
  | choose request next => ∀ position, (next (request.value position)).Blind
  | draw source next =>
      (∀ random, (next (source.take random).1).Blind) ∧
        ∀ request, source.request? = some request →
          ∀ position, (next (request.value position)).Blind

namespace Blind

theorem bind {run : Run α} {next : α → Run β} (before : run.Blind)
    (after : ∀ result, (next result).Blind) : (run.bind next).Blind := by
  induction run with
  | done result => exact after result
  | tag location rest ih => exact ih before
  | ignoreRest rest ih => exact before
  | depth rest ih => exact before
  | choose request rest ih => exact fun position => ih _ (before position)
  | draw source rest ih =>
      exact ⟨fun random => ih _ (before.1 random),
        fun request asked position => ih _ (before.2 request asked position)⟩

end Blind

end Run

namespace Search

variable {α : Type}

/-- A blind run gives up no alternatives. -/
theorem givesUp_of_blind {run : Run α} (blind : run.Blind) (options : Options) (course : Course) :
    (run.tree options course).givesUp = false := by
  induction run generalizing course with
  | done result => rfl
  | tag location next ih => exact ih blind course
  | ignoreRest next ih => exact blind.elim
  | depth next ih => exact blind.elim
  | choose request next ih =>
      exact Course.ask_cases (motive := fun tree => tree.givesUp = false)
        (fun position reached => ih _ (blind position) reached) fun _ => rfl
  | draw source next ih =>
      rw [Run.tree]
      split
      · rename_i request asked
        have offered := Options.offered_of_request? asked
        exact Course.ask_cases (motive := fun tree => tree.givesUp = false)
          (fun position reached => ih _ (blind.2 request offered position) reached) fun _ => rfl
      · exact ih _ (blind.1 _) _

theorem leaves_node_of_blind {request : Request} {below : Nat → ChoiceTree α}
    (blind : ∀ position, (below position).givesUp = false) :
    (ChoiceTree.node request below).leaves =
      (List.range request.alternatives.size).flatMap fun position => (below position).leaves := by
  rw [ChoiceTree.leaves, upTo_of_forall fun position _ => blind position]

end Search

namespace Script

mutual

def Statement.blind : Statement → Bool
  | .branch _ agreed otherwise => blindAll agreed && blindAll otherwise
  | .loop _ body => blindAll body
  | .ask query .. => query ≠ .depth
  | .ignoreRest => false
  | .leave | .fail .. | .tag _ => true

def blindAll : List Statement → Bool
  | [] => true
  | statement :: rest => statement.blind && blindAll rest

end

theorem Query.ask_blind {query : Query} (blind : query ≠ .depth) (number : Nat) :
    (query.ask number).Blind := by
  cases query with
  | depth => exact absurd rfl blind
  | choose request => exact fun _ => trivial
  | draw source => exact ⟨fun _ => trivial, fun _ _ _ => trivial⟩
  | runNumber => trivial

theorem blindAll_iff {script : List Statement} :
    blindAll script = true ↔ ∀ statement ∈ script, statement.blind = true := by
  induction script with
  | nil => simp [blindAll]
  | cons statement rest ih => simp [blindAll, ih]

/-- Blindness is carried from statements without depth and retirement to what they do. -/
theorem blind_carries (number : Nat) :
    Carries number (fun statement => statement.blind = true) Run.Blind where
  branch blind := by
    rw [Statement.blind, Bool.and_eq_true, blindAll_iff, blindAll_iff] at blind
    exact blind
  loop blind := by
    rw [Statement.blind, blindAll_iff] at blind
    exact blind
  done _ := trivial
  bind before after := before.bind after
  tag blind := blind
  ignoreRest blind := by cases blind
  ask blind _ := by
    rw [Statement.blind, decide_eq_true_eq] at blind
    exact (Query.ask_blind blind number).bind fun _ => trivial

/-- What a script without such statements does is blind. -/
theorem body_blind {script : List Statement} (blind : blindAll script = true) :
    (body script).Blind :=
  ((blind_carries 1).performAll script (blindAll_iff.mp blind) {}).bind fun _ => trivial

end Script

end ChoiceExplorer
