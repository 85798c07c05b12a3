/-!
# Bounded buffers

A buffer accepts bytes up to a limit.  A write that does not fit is accepted
as far as it fits and then fails, so what a buffer holds is always an initial
part of what was written to it.
-/

namespace ChoiceExplorer.Output

inductive Failure where
  | full
  | flush
  deriving DecidableEq

def Failure.message : Failure → String
  | full => "writer full"
  | flush => "flush failed"

/-- An in-memory output with a limit on the bytes it accepts. -/
structure Buffer where
  accepted : ByteArray := .empty
  limit : Option Nat := none
  flushFails : Bool := false

namespace Buffer

/-- Buffers are compared by the bytes they hold. -/
instance : DecidableEq Buffer := fun first second =>
  decidable_of_iff
    (first.accepted.data = second.accepted.data ∧ first.limit = second.limit ∧
      first.flushFails = second.flushFails)
    (by rcases first with ⟨⟨_⟩, _, _⟩; rcases second with ⟨⟨_⟩, _, _⟩; simp)

def fits (buffer : Buffer) (count : Nat) : Bool :=
  match buffer.limit with
  | none => true
  | some limit => buffer.accepted.size + count ≤ limit

/-- Write a text; one that does not fit is cut at the limit. -/
def write (buffer : Buffer) (text : String) : Except Failure Unit × Buffer :=
  let bytes := text.toUTF8
  if bytes.isEmpty || buffer.fits bytes.size then
    (.ok (), { buffer with accepted := buffer.accepted ++ bytes })
  else
    let room := buffer.limit.getD 0 - buffer.accepted.size
    (.error .full, { buffer with accepted := buffer.accepted ++ bytes.extract 0 room })

/-- Flushing changes nothing, but fails for a buffer that is made to. -/
def flush (buffer : Buffer) : Except Failure Unit :=
  if buffer.flushFails then .error .flush else .ok ()

def text (buffer : Buffer) : String := (String.fromUTF8? buffer.accepted).getD ""

end Buffer

end ChoiceExplorer.Output
