import ChoiceExplorer.Proofs.ReliableChannels

/-!
# Writers of one's own

A file and the standard output may be written to by several channels.  A channel that
never fails and that nobody else writes to holds exactly what was written to it.
-/

namespace ChoiceExplorer

open Search (View)
open Trace (Tracer)

namespace Output

/-- Bytes written at the end of a file are appended to it. -/
theorem Directory.writeAt_end {directory : Directory} {name : String} {content : ByteArray}
    (there : directory.get? name = some content) (bytes : ByteArray) :
    directory.writeAt name content.size bytes = directory.insert name (content ++ bytes) := by
  have no_gap : (⟨Array.replicate 0 0⟩ : ByteArray) = .empty := rfl
  have nothing_after : content.extract (content.size + bytes.size) content.size = .empty := by
    rw [ByteArray.extract_eq_empty_iff]
    omega
  rw [writeAt]
  simp only [there, Option.getD_some, Nat.sub_self, no_gap, nothing_after,
    ByteArray.extract_zero_size, ByteArray.append_empty]

/-- What several channels may lead to. -/
inductive Shared where
  | file (name : String)
  | standard
  deriving DecidableEq

namespace Channel

/-- What a channel leads to, unless that is its own. -/
def shared? : Channel → Option Shared
  | file name _ => some (.file name)
  | standard => some .standard
  | buffer _ => none

@[simp] theorem shared?_write (channel : Channel) (text : String) (surroundings : Surroundings) :
    (channel.write text surroundings).channel.shared? = channel.shared? := by
  cases channel <;> rfl

@[simp] theorem shared?_writeOut (channel : Channel) (text : String)
    (surroundings : Surroundings) :
    (channel.writeOut text surroundings).channel.shared? = channel.shared? := by
  rw [writeOut, ← shared?_write channel text surroundings]
  split <;> rfl

/-- A channel that never fails, and what it has received. -/
inductive Holds (surroundings : Surroundings) (received : ByteArray) : Channel → Prop
  | file {name : String} (there : surroundings.directory.get? name = some received) :
      Holds surroundings received (.file name received.size)
  | standard (unlimited : surroundings.stdout.limit = none)
      (accepted_eq : surroundings.stdout.accepted = received) :
      Holds surroundings received .standard
  | buffer {owned : Buffer} (unlimited : owned.limit = none) (flushes : owned.flushFails = false)
      (accepted_eq : owned.accepted = received) :
      Holds surroundings received (.buffer owned)

namespace Holds

variable {channel other : Channel} {surroundings : Surroundings} {received : ByteArray}

theorem reliable (holds : channel.Holds surroundings received) :
    channel.Reliable surroundings := by
  cases holds with
  | file there => trivial
  | standard unlimited accepted_eq => exact unlimited
  | buffer unlimited flushes accepted_eq => exact ⟨unlimited, flushes⟩

/-- A file has what was written to it for its content. -/
theorem get?_file {name : String} {offset : Nat}
    (holds : (Channel.file name offset).Holds surroundings received) :
    surroundings.directory.get? name = some received := by
  cases holds with
  | file there => exact there

/-- What is written is received. -/
theorem write (holds : channel.Holds surroundings received) (text : String) :
    (channel.write text surroundings).channel.Holds (channel.write text surroundings).surroundings
      (received ++ text.toUTF8) := by
  cases holds with
  | @file name there =>
      simp only [Channel.write, Directory.writeAt_end there, ← ByteArray.size_append]
      refine .file ?_
      rw [Table.get?_insert, if_pos rfl]
  | standard unlimited accepted_eq =>
      simp only [Channel.write, Buffer.write_of_unlimited unlimited, accepted_eq]
      exact .standard unlimited rfl
  | buffer unlimited flushes accepted_eq =>
      simp only [Channel.write, Buffer.write_of_unlimited unlimited, accepted_eq]
      exact .buffer unlimited flushes rfl

/-- What is written and flushed is received. -/
theorem writeOut (holds : channel.Holds surroundings received) (text : String) :
    (channel.writeOut text surroundings).channel.Holds
      (channel.writeOut text surroundings).surroundings (received ++ text.toUTF8) := by
  rw [Channel.writeOut, (holds.reliable.write text).1]
  exact holds.write text

/-- What is written elsewhere is not received. -/
theorem elsewhere (holds : channel.Holds surroundings received)
    (apart : channel.shared? = none ∨ other.shared? ≠ channel.shared?) (text : String) :
    channel.Holds (other.write text surroundings).surroundings received := by
  cases holds with
  | buffer unlimited flushes accepted_eq => exact .buffer unlimited flushes accepted_eq
  | @file name there =>
      cases other with
      | standard | buffer _ => exact .file there
      | file written offset =>
          have other_name : name ≠ written := by
            rintro rfl
            simp [shared?] at apart
          refine .file ?_
          rw [← there]
          simp only [Channel.write, Directory.writeAt, Table.get?_insert, if_neg other_name]
  | standard unlimited accepted_eq =>
      cases other with
      | standard => simp [shared?] at apart
      | file _ _ | buffer _ => exact .standard unlimited accepted_eq

theorem writeOut_elsewhere (holds : channel.Holds surroundings received)
    (apart : channel.shared? = none ∨ other.shared? ≠ channel.shared?) (text : String) :
    channel.Holds (other.writeOut text surroundings).surroundings received := by
  have held := holds.elsewhere apart text
  rw [Channel.writeOut]
  split
  · exact held
  · exact held

/-- Warnings are no output. -/
theorem warn (holds : channel.Holds surroundings received) (warnings : List Warning) :
    channel.Holds (surroundings.warn warnings) received := by
  cases holds with
  | file there => exact .file there
  | standard unlimited accepted_eq => exact .standard unlimited accepted_eq
  | buffer unlimited flushes accepted_eq => exact .buffer unlimited flushes accepted_eq

end Holds

end Channel

end Output

open Output (Channel Surroundings)

namespace Observer

def shared? : Observer → Option Output.Shared
  | tracer owned => owned.outlet.bind fun outlet => outlet.channel.shared?
  | recorder _ | silent => none

/-- An observer that does not write to what a channel leads to. -/
def Spares (observer : Observer) (place : Option Output.Shared) : Prop :=
  place = none ∨ observer.shared? ≠ place

variable {observer : Observer} {channel : Channel} {surroundings : Surroundings}
  {received : ByteArray}

/-- An observer goes on to write where it has written. -/
theorem shared?_violated (observer : Observer) (view : View) (surroundings : Surroundings) :
    (observer.violated view surroundings).1.shared? = observer.shared? := by
  cases observer with
  | recorder name => rfl
  | silent => rfl
  | tracer owned =>
      obtain ⟨options, outlet⟩ := owned
      cases outlet with
      | none => rfl
      | some outlet =>
          simp only [violated, Tracer.trace]
          split <;> simp [shared?]

/-- What an observer writes about a violation is not received by a channel that it spares. -/
theorem Spares.holds (spares : observer.Spares channel.shared?)
    (holds : channel.Holds surroundings received) (view : View) :
    channel.Holds (observer.violated view surroundings).2 received := by
  cases observer with
  | recorder name => exact holds
  | silent => exact holds
  | tracer owned =>
      obtain ⟨options, outlet⟩ := owned
      cases outlet with
      | none => exact holds
      | some outlet =>
          have held := holds.writeOut_elsewhere spares
            ((⟨options, some outlet⟩ : Tracer).traceText view)
          simp only [violated, Tracer.trace]
          split
          · exact held
          · exact held.warn _

end Observer

end ChoiceExplorer
