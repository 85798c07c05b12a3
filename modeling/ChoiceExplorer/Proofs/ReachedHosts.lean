import ChoiceExplorer.Proofs.HostWritings

/-!
# Hosts that are used again

A host that programs were run on has the options, the observers and the channels that it
had, whatever has become of the runs.  What has changed is what its channels have received.
-/

namespace ChoiceExplorer

namespace Search

variable {σ : Type} {program : Program σ}

namespace Progress

theorem options_turn (progress : Progress σ) :
    progress.turn.2.search.options = progress.search.options := by
  unfold turn
  split <;> rfl

theorem options_step (program : Program σ) (progress : Progress σ) :
    (progress.step program).2.search.options = progress.search.options := by
  cases fault : (progress.attempt program).2.fault with
  | some reason =>
      rw [step_of_fault fault]
      rfl
  | none =>
      rw [step_of_no_fault fault]
      dsimp only
      split
      · exact (options_turn _).trans counted_options
      · split
        · exact (options_turn _).trans counted_options
        · exact counted_options

theorem options_explore (program : Program σ) (budget : Nat) (progress : Progress σ) :
    (progress.explore program budget).2.search.options = progress.search.options := by
  induction budget generalizing progress with
  | zero => rfl
  | succ budget ih =>
      have stepped_options := progress.options_step program
      cases stepped : progress.step program with
      | mk ending next =>
          rw [stepped] at stepped_options
          cases ending with
          | some ending =>
              rw [explore_of_ended stepped]
              exact stepped_options
          | none =>
              rw [explore_of_step stepped, ih]
              exact stepped_options

end Progress

/-- A run leaves the options of its search. -/
theorem options_run (search : Search) (program : Program σ) (state : σ) (budget : Nat) :
    (search.run program state budget).2.search.options = search.options :=
  Progress.options_explore program budget _

/-- A run depends on the options of its search, and on nothing that is left of other runs. -/
theorem run_of_options {first second : Search} (same : first.options = second.options)
    (program : Program σ) (state : σ) (budget : Nat) :
    first.run program state budget = second.run program state budget := by
  simp only [run, reset, same]

end Search

namespace Audience

variable {audience next : Audience}

/-- A report that never fails still does not after a writing. -/
theorem Writes.reliable {writing : Option Writing} (writes : Writes audience next writing)
    (reliable : audience.Reliable) : next.Reliable := by
  cases writes with
  | nothing channels surroundings_eq =>
      have channel_eq := Option.some.inj (congrFun channels .report)
      rw [Reliable, channel_eq, surroundings_eq]
      exact reliable.of_limit_eq rfl
  | @text writing channel _ there channels surroundings_eq =>
      have channel_eq := channels .report
      rw [Reliable, surroundings_eq]
      split at channel_eq
      · rename_i here
        rw [← here] at there
        cases there
        rw [Option.some.inj channel_eq]
        exact (Output.Channel.Reliable.write reliable writing.text).2.of_limit_eq rfl
      · rw [Option.some.inj channel_eq]
        exact Output.Channel.Reliable.of_limit_eq reliable (channel.write_limit ..)

theorem Performs.reliable {last : Audience} {writings : List Writing}
    (performs : Performs audience writings last) (reliable : audience.Reliable) :
    last.Reliable := by
  induction performs with
  | nothing audience => exact reliable
  | after writes performs ih => exact ih (writes.reliable reliable)

end Audience

namespace Host

/-- A file that nobody else writes to has what it has received for its content. -/
theorem get?_file {host : Host} {into : Destination} {received : ByteArray} {name : String}
    (receives : host.audience.Receives into received)
    (leads : host.audience.shared? into = some (.file name)) :
    host.surroundings.directory.get? name = some received :=
  receives.get?_file leads

/-- What a host keeps, whatever is run on it: its options, its observers and its channels. -/
structure Reaches (host reached : Host) : Prop where
  options_eq : reached.search.options = host.search.options
  parts_eq : reached.attached.map Attached.part = host.attached.map Attached.part
  performs : ∃ writings, host.audience.Performs writings reached.audience

variable {host reached : Host}

theorem reaches_run {σ : Type} (host : Host) (program : Program σ) (state : σ) (budget : Nat) :
    host.Reaches (host.run program state budget).host := by
  obtain ⟨-, search_eq, attached_eq, -⟩ := host.run_search program state budget
  refine ⟨?_, ?_, _, host.run_performs program state budget⟩
  · rw [search_eq]
    exact host.search.options_run program state budget
  · rw [attached_eq, heard, Audience.foldl_hear_eq_foldl_act]
    exact Audience.parts_foldl_act ..

theorem Reaches.trans {later : Host} (first : host.Reaches reached)
    (second : reached.Reaches later) : host.Reaches later := by
  obtain ⟨_, begins⟩ := first.performs
  obtain ⟨_, goes_on⟩ := second.performs
  exact ⟨second.options_eq.trans first.options_eq, second.parts_eq.trans first.parts_eq, _,
    begins.append goes_on⟩

theorem reaches_afterJobs (host : Host) (jobs : List Job) : host.Reaches (host.afterJobs jobs) := by
  induction jobs generalizing host with
  | nil => exact ⟨rfl, rfl, _, .nothing _⟩
  | cons job rest ih =>
      exact (host.reaches_run job.program job.state job.budget).trans (ih (host.afterJob job))

theorem Reaches.reliable (reaches : host.Reaches reached)
    (reliable : host.report.channel.Reliable host.surroundings) :
    reached.report.channel.Reliable reached.surroundings := by
  obtain ⟨_, performs⟩ := reaches.performs
  have audience_reliable : host.audience.Reliable := reliable
  exact performs.reliable audience_reliable

end Host

end ChoiceExplorer
