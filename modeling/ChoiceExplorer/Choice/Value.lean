import ChoiceExplorer.Choice.Kind
import ChoiceExplorer.Floating.Number

/-!
# Values of choices

A value is what a choice point hands to the program: a truth value, a number of
one of four sorts, or a thread.
-/

namespace ChoiceExplorer

open Floating (Double Single Layout)

structure Thread where
  id : UInt32
  name : String
  deriving DecidableEq

namespace Thread

def text (thread : Thread) : String :=
  machineNamespace ++ "ThreadInfo[name=" ++ thread.name ++ ",id=" ++ toString thread.id.toNat ++ "]"

end Thread

inductive Value where
  | bool (value : Bool)
  | int (value : Int)
  | long (value : Int)
  | float (value : Single)
  | double (value : Double)
  | thread (value : Thread)
  deriving DecidableEq

namespace Value

/--
Floating-point values are positional from one ten-thousandth up to below ten
quadrillions, and a tie between two shortest texts goes to the larger.
-/
def layout : Layout where
  leastPlain := -4
  mostPlain := 15
  positive := ""
  tie := .up
  notANumber := "NaN"
  infinite := "inf"
  negativeInfinite := "-inf"

def text : Value → String
  | bool value => toString value
  | int value | long value => toString value
  | float value => value.text layout
  | double value => value.text layout
  | thread value => value.text

def sort : Value → String
  | bool _ => "Bool"
  | int _ => "Int"
  | long _ => "Long"
  | float _ => "Float"
  | double _ => "Double"
  | thread _ => "Thread"

end Value

end ChoiceExplorer
