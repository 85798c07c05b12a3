import ChoiceExplorer.Choice.Alternatives
import ChoiceExplorer.Chance.Draw

/-!
# Runs of a program

A run is the tree of everything a program may do in one run: what it asks for,
and how it goes on after each answer.  Nothing here says what the answers are.
-/

namespace ChoiceExplorer

open Floating (Double Single)
open Chance (Draw)

structure Request where
  id : String
  alternatives : Alternatives
  deriving DecidableEq

namespace Request

def kind (request : Request) : Kind := request.alternatives.kind

def bool : Request := ⟨"verifyGetBoolean", .booleans⟩

def int (min max : Int) : Request := ⟨"verifyGetInt(II)", .interval (.ofStep min max 1)⟩

def intOf (values : List Int) : Request := ⟨"verifyGetIntSet([I)", .ints values⟩

def doubleOf (values : List Double) : Request := ⟨"verifyDoubleList([D)", .doubles values⟩

def floatOf (values : List Single) : Request := ⟨"verifyFloatList([F)", .floats values⟩

def longOf (values : List Int) : Request := ⟨"verifyLongList([J)", .longs values⟩

def schedule (id : String) (threads : List Thread) : Request := ⟨id, .threads threads⟩

end Request

namespace Chance.Draw

/--
The choice point that stands for a draw when random values are enumerated:
whole numbers in full, floating-point and long numbers by their extremes and
zero.
-/
def request? : Draw → Option Request
  | bool => some .bool
  | int bound => if bound ≤ 0 then none else some (.int 0 (bound - 1))
  | double => some (.doubleOf [Double.leastPositive, Double.zero, Double.greatest])
  | float => some (.floatOf [Single.leastPositive, Single.zero, Single.greatest])
  | long => some (.longOf [-Int.pow 2 63, 0, Int.pow 2 63 - 1])

end Chance.Draw

/-- What a program does in one run, with a result at the end. -/
inductive Run (α : Type) where
  | done (result : α)
  /-- Note where the next choice point stands. -/
  | tag (location : String) (next : Run α)
  /-- Give up the alternatives left at the most recent choice point. -/
  | ignoreRest (next : Run α)
  /-- Ask how many choice points have been passed. -/
  | depth (next : Nat → Run α)
  | choose (request : Request) (next : Value → Run α)
  | draw (draw : Draw) (next : Value → Run α)

namespace Run

variable {α β : Type}

def bind : Run α → (α → Run β) → Run β
  | done result, next => next result
  | tag location rest, next => tag location (rest.bind next)
  | ignoreRest rest, next => ignoreRest (rest.bind next)
  | depth rest, next => depth fun count => (rest count).bind next
  | choose request rest, next => choose request fun value => (rest value).bind next
  | draw source rest, next => draw source fun value => (rest value).bind next

instance : Monad Run where
  pure := done
  bind := bind

theorem bind_done (run : Run α) : run.bind done = run := by
  induction run with
  | done result => rfl
  | tag location next ih => simp only [bind, ih]
  | ignoreRest next ih => simp only [bind, ih]
  | depth next ih => simp only [bind, ih]
  | choose request next ih => simp only [bind, ih]
  | draw source next ih => simp only [bind, ih]

theorem bind_assoc {γ : Type} (run : Run α) (next : α → Run β) (last : β → Run γ) :
    (run.bind next).bind last = run.bind fun result => (next result).bind last := by
  induction run with
  | done result => rfl
  | tag location rest ih => simp only [bind, ih]
  | ignoreRest rest ih => simp only [bind, ih]
  | depth rest ih => simp only [bind, ih]
  | choose request rest ih => simp only [bind, ih]
  | draw source rest ih => simp only [bind, ih]

instance : LawfulMonad Run := LawfulMonad.mk' Run
  (fun run => bind_done run)
  (fun _ _ => rfl)
  (fun run next last => bind_assoc run next last)

end Run

end ChoiceExplorer
