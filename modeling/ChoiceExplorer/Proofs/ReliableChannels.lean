import ChoiceExplorer.Host.Sections

/-!
# Channels that never fail

Files accept everything, and so do buffers and the standard output if they have no limit.
A channel of this kind never fails, and stays so whatever is written, to it or elsewhere.
-/

namespace ChoiceExplorer

open Search (View)
open Trace (Tracer)

namespace Output

theorem Buffer.write_of_unlimited {buffer : Buffer} (unlimited : buffer.limit = none)
    (text : String) :
    buffer.write text = (.ok (), { buffer with accepted := buffer.accepted ++ text.toUTF8 }) := by
  have fits : buffer.fits text.toUTF8.size = true := by rw [Buffer.fits, unlimited]
  rw [Buffer.write]
  dsimp only
  rw [fits, Bool.or_true, if_pos rfl]

/-- Writing changes neither the limit of a buffer nor how it is flushed. -/
theorem Buffer.write_keeps (buffer : Buffer) (text : String) :
    (buffer.write text).2.limit = buffer.limit ∧
      (buffer.write text).2.flushFails = buffer.flushFails := by
  rw [Buffer.write]
  dsimp only
  split <;> exact ⟨rfl, rfl⟩

namespace Channel

def Reliable (channel : Channel) (surroundings : Surroundings) : Prop :=
  match channel with
  | file .. => True
  | standard => surroundings.stdout.limit = none
  | buffer owned => owned.limit = none ∧ owned.flushFails = false

/-- Whatever is written to a channel, the limit of the standard output stays. -/
theorem write_limit (channel : Channel) (text : String) (surroundings : Surroundings) :
    (channel.write text surroundings).surroundings.stdout.limit = surroundings.stdout.limit := by
  cases channel with
  | file name offset => rfl
  | standard => exact (surroundings.stdout.write_keeps text).1
  | buffer owned => rfl

theorem writeOut_limit (channel : Channel) (text : String) (surroundings : Surroundings) :
    (channel.writeOut text surroundings).surroundings.stdout.limit =
      surroundings.stdout.limit := by
  rw [writeOut, ← write_limit channel text surroundings]
  split <;> rfl

namespace Reliable

variable {channel : Channel} {surroundings later : Surroundings}

theorem of_limit_eq (reliable : channel.Reliable surroundings)
    (same : later.stdout.limit = surroundings.stdout.limit) : channel.Reliable later := by
  cases channel with
  | file name offset => trivial
  | standard => exact same.trans reliable
  | buffer owned => exact reliable

theorem write (reliable : channel.Reliable surroundings) (text : String) :
    (channel.write text surroundings).result = .ok () ∧
      (channel.write text surroundings).channel.Reliable
        (channel.write text surroundings).surroundings := by
  cases channel with
  | file name offset => exact ⟨rfl, trivial⟩
  | standard =>
      have written := Buffer.write_of_unlimited reliable text
      simp only [Channel.write, written]
      exact ⟨trivial, reliable⟩
  | buffer owned =>
      have written := Buffer.write_of_unlimited reliable.1 text
      simp only [Channel.write, written]
      exact ⟨trivial, reliable⟩

theorem flush (reliable : channel.Reliable surroundings) : channel.flush = .ok () := by
  cases channel with
  | file name offset => rfl
  | standard => rfl
  | buffer owned => simp [Channel.flush, Buffer.flush, reliable.2]

theorem writeOut (reliable : channel.Reliable surroundings) (text : String) :
    (channel.writeOut text surroundings).result = .ok () := by
  obtain ⟨written, stays⟩ := reliable.write text
  rw [Channel.writeOut, written]
  exact stays.flush

end Reliable

end Channel

end Output

theorem Trace.Tracer.trace_limit (tracer : Tracer) (view : View)
    (surroundings : Output.Surroundings) :
    (tracer.trace view surroundings).2.stdout.limit = surroundings.stdout.limit := by
  unfold trace
  split
  · rfl
  · rename_i outlet _
    rw [← outlet.channel.writeOut_limit (tracer.traceText view) surroundings]
    dsimp only
    split <;> rfl

theorem Observer.violated_limit (observer : Observer) (view : View)
    (surroundings : Output.Surroundings) :
    (observer.violated view surroundings).2.stdout.limit = surroundings.stdout.limit := by
  cases observer with
  | tracer owned => exact owned.trace_limit view surroundings
  | recorder name => rfl
  | silent => rfl

end ChoiceExplorer
