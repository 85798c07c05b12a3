import ChoiceExplorer.Host.Audience
import ChoiceExplorer.Search.Explore

/-!
# Hosts

A host owns a configuration, a search, a report and the observers attached to
it.  It runs one program after the other; a run gives the summary of the search,
or else the fault of the search, or else the first failure of the report.
-/

namespace ChoiceExplorer

open Output (Channel Surroundings Failure)
open Search (Fault Summary)
open Trace (Tracer)

structure Host where
  config : Config
  search : Search
  report : Report
  attached : List Attached := []
  surroundings : Surroundings := {}

namespace Host

inductive Error where
  | search (fault : Fault)
  | report (cause : Failure)
  /-- The budget of runs was used up. -/
  | unfinished
  deriving DecidableEq

def Error.message : Error → String
  | search fault => "search failed: " ++ fault.message
  | report cause => "report output failed: " ++ cause.message
  | unfinished => "search failed: too many paths"

/-- What a run leaves behind. -/
structure Outcome (σ : Type) where
  result : Except Error Summary
  host : Host
  /-- The state of the program. -/
  state : σ
  events : List Event

def ofConfig (config : Config) (channel : Channel) (surroundings : Surroundings) : Host :=
  let options := Search.Options.ofConfig config
  { config
    search := { options := options.value }
    report := { channel }
    surroundings := surroundings.warn options.warnings }

def attach (host : Host) (observer : Observer) (extension : Bool) : Host :=
  { host with attached := host.attached ++ [⟨observer, extension⟩] }

def attachTracer (host : Host) : Host :=
  let (tracer, surroundings) := Tracer.ofConfig host.config host.surroundings
  let opened := { host with surroundings }
  opened.attach (.tracer tracer) tracer.inReport

def audience (host : Host) : Audience :=
  { attached := host.attached, report := host.report, surroundings := host.surroundings }

/-- The host after a search that its audience has heard of. -/
def afterSearch (host : Host) (search : Search) (audience : Audience) : Host :=
  { host with
    search
    report := audience.report
    attached := audience.attached
    surroundings := audience.surroundings }

def run {σ : Type} (host : Host) (program : Program σ) (state : σ) (budget : Nat) : Outcome σ :=
  let (ending, progress) := host.search.run program state budget
  let heard := progress.notices.foldl Audience.hear host.audience
  let searched := host.afterSearch progress.search heard
  match ending, heard.failure with
  | .faulted fault, _ => ⟨.error (.search fault), searched, progress.state, heard.events⟩
  | .unfinished, _ => ⟨.error .unfinished, searched, progress.state, heard.events⟩
  | .finished _, some cause => ⟨.error (.report cause), searched, progress.state, heard.events⟩
  | .finished summary, none =>
      let step := searched.report.finish summary searched.surroundings
      let closed := { searched with report := step.report, surroundings := step.surroundings }
      match step.result with
      | .ok () => ⟨.ok summary, closed, progress.state, heard.events⟩
      | .error cause => ⟨.error (.report cause), closed, progress.state, heard.events⟩

end Host

end ChoiceExplorer
