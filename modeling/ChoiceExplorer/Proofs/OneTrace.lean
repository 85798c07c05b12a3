import ChoiceExplorer.Proofs.ReachedHosts
import ChoiceExplorer.Proofs.StackInvariant
import ChoiceExplorer.Proofs.TraceSinks

/-!
# One trace for each violation

A tracer that is attached by its configuration writes one trace for each violation: into its
outlet if the configuration names a trace file, and as a section of the report otherwise.
The lines of a trace without filters tell the generators of the path that are not retired.
-/

namespace ChoiceExplorer

open Output (Buffer Surroundings)
open Search (Record View)
open Trace (Tracer)

/-- Removing a leading text gives back what follows it. -/
theorem Text.withoutLeading_append (leading rest : List Char) :
    withoutLeading leading (leading ++ rest) = rest := by
  rw [withoutLeading, if_pos (List.isPrefixOf_iff_prefix.mpr ⟨rest, rfl⟩), List.drop_left]

namespace Trace

/-- The body of a generator is its text without the namespace. -/
theorem Format.namespace_body (generator : Generator) (value : Value) :
    choiceNamespace ++ Format.generator.body generator value = generator.text := by
  rw [Format.body, unqualified, Generator.text, String.toList_append,
    Text.withoutLeading_append, String.ofList_toList]

namespace Options

variable {options : Options} {generators : List Generator}

/-- Lines are numbered from zero without gaps. -/
theorem lines_index (options : Options) (generators : List Generator) :
    (options.lines generators).map Line.index =
      List.range (options.lines generators).length := by
  apply List.ext_getElem <;> simp [lines]

/-- Without filters a started generator is visible unless it is retired. -/
theorem visible?_unfiltered (allowed : options.allowed = []) (excludes : options.excludes = [])
    {generator : Generator} (started : 0 < generator.taken) :
    (options.visible? generator).isSome = !generator.retired := by
  obtain ⟨value, current, -⟩ := generator.exists_value started
  cases retired : generator.retired <;>
    simp [visible?, admits, hides, allowed, excludes, retired, current]

/-- Without filters the visible generators are those that are not retired. -/
theorem visible_unfiltered (allowed : options.allowed = []) (excludes : options.excludes = [])
    (started : ∀ generator ∈ generators, 0 < generator.taken) :
    (options.visible generators).map Prod.fst =
      generators.filter fun generator => !generator.retired := by
  induction generators with
  | nil => rfl
  | cons generator rest ih =>
      rw [List.forall_mem_cons] at started
      have shown := visible?_unfiltered allowed excludes started.1
      rw [visible] at ih ⊢
      rw [List.filter_cons, List.filterMap_cons, ← shown, ← ih started.2]
      cases options.visible? generator <;> rfl

/-- Without filters the lines tell the generators that are not retired. -/
theorem lines_unfiltered (allowed : options.allowed = []) (excludes : options.excludes = [])
    (format : options.format = .generator)
    (started : ∀ generator ∈ generators, 0 < generator.taken) :
    (options.lines generators).map (fun line => choiceNamespace ++ line.body) =
      (generators.filter fun generator => !generator.retired).map Generator.text := by
  have bodies : (options.lines generators).map (fun line => choiceNamespace ++ line.body) =
      (options.visible generators).map fun choice => choice.1.text := by
    apply List.ext_getElem <;> simp [lines, format, Format.namespace_body]
  rw [bodies, ← visible_unfiltered allowed excludes started, List.map_map]
  rfl

end Options

namespace Tracer

variable {config : Config} {surroundings : Surroundings}

theorem options_ofConfig :
    (Tracer.ofConfig config surroundings).1.options = (Options.ofConfig config).value := by
  rw [ofConfig, ofOptions]
  dsimp only
  split <;> rfl

/-- A tracer writes into the report unless its configuration names a trace file. -/
theorem inReport_ofConfig :
    (Tracer.ofConfig config surroundings).1.inReport = (config.get? "choice.trace").isNone := by
  have path_eq : (Options.ofConfig config).value.path = config.get? "choice.trace" := rfl
  rw [← path_eq, ofConfig, ofOptions]
  cases (Options.ofConfig config).value.path <;> rfl

/-- The standard output has the same limit as before. -/
theorem limit_ofConfig :
    (Tracer.ofConfig config surroundings).2.stdout.limit = surroundings.stdout.limit := by
  rw [ofConfig, ofOptions]
  dsimp only
  split
  · rfl
  · simp only [Outlet.create]
    split <;> rfl

end Tracer

end Trace

/-- What an observer writes about a violation depends on what it is to its host. -/
theorem Attached.writings_of_part {first second : Attached} (same : first.part = second.part) :
    first.writings = second.writings := by
  have outside_eq : first.observer.outside? = second.observer.outside? :=
    congrArg Part.outside? same
  have role_eq : first.role = second.role := congrArg Part.role same
  have extension_eq : first.extension = second.extension := congrArg Role.extension role_eq
  have adds_eq : first.observer.section? = second.observer.section? := congrArg Role.adds role_eq
  funext place record view
  simp only [writings, section?, outside_eq, extension_eq, adds_eq]

/-- A tracer that has an outlet writes a trace into it, and nothing into the report. -/
theorem Attached.writings_of_outlet {tracer : Tracer} (owns : tracer.inReport = false) (place : Nat)
    (record : Record) (view : View) :
    (⟨.tracer tracer, tracer.inReport⟩ : Attached).writings place record view =
      [⟨.outlet place, some place,
        printed (Trace.traceLines view.target tracer.options.allowed
          (tracer.options.lines view.stack.toList))⟩] := by
  rw [← Tracer.traceText_eq]
  obtain ⟨options, outlet⟩ := tracer
  cases outlet with
  | none => cases owns
  | some outlet => rfl

/-- A tracer without an outlet adds a section to the report, and writes nothing else. -/
theorem Attached.writings_of_report {tracer : Tracer} (reports : tracer.inReport = true)
    (place : Nat) (record : Record) (view : View) :
    (⟨.tracer tracer, tracer.inReport⟩ : Attached).writings place record view =
      [⟨.report, some place,
        printed (Report.topicLines ("choice trace " ++ record.id) ++
          (tracer.options.lines view.stack.toList).flatMap Trace.Line.printedLines)⟩] := by
  rw [printed_append, ← Report.heading_eq, ← Trace.linesText_eq]
  obtain ⟨options, outlet⟩ := tracer
  cases outlet with
  | none => rfl
  | some outlet => cases reports

/-- The record of a violation tells the path that observers see of it. -/
theorem Search.path_of_alarm {σ : Type} {search : Search} {program : Program σ} {state : σ}
    {budget : Nat} {told : Record × View}
    (among : told ∈ (search.run program state budget).2.search.violations.zip
      (search.alarms program state budget)) :
    told.1.path = told.2.stack.toList.map Generator.text := by
  obtain ⟨number, here⟩ := List.getElem?_of_mem among
  obtain ⟨record_here, view_here⟩ := List.getElem?_zip_eq_some.mp here
  obtain ⟨record, -, recorded, -, -, path_eq⟩ := Search.record_of_alarm view_here
  cases recorded.symm.trans record_here
  exact path_eq

/-- What observers see of a violation is a path of generators that have been started. -/
theorem Search.started_of_alarm {σ : Type} {search : Search} {program : Program σ} {state : σ}
    {budget : Nat} {view : View} (seen : view ∈ search.alarms program state budget) :
    ∀ generator ∈ view.stack.toList, 0 < generator.taken := by
  obtain ⟨turn, among, rfl⟩ := List.mem_map.mp seen
  have member := (List.mem_filter.mp among).1
  have standing := Progress.standing_of_mem_trail (search.standing_outset state) member
  obtain ⟨steps, left⟩ := Progress.standing_attempt standing program
  have stack_eq : (turn.alarm program).stack = turn.left program := turn.counted_stack
  rw [stack_eq]
  exact left.started

/-- The texts of the generators that are not retired, told from a list of all texts. -/
theorem unretired_texts (generators : List Generator) :
    (((generators.map Generator.text).zip generators).filter fun choice =>
        !choice.2.retired).map Prod.fst =
      (generators.filter fun generator => !generator.retired).map Generator.text := by
  induction generators with
  | nil => rfl
  | cons generator rest ih => cases retired : generator.retired <;> simp [retired, ih]

namespace Host

def tracing (host : Host) (later : List Attached) : Host :=
  { host.attachTracer with attached := host.attachTracer.attached ++ later }

/-- The tracer stands behind the observers attached before it. -/
theorem getElem?_tracing (host : Host) (later : List Attached) :
    ∃ tracer : Tracer, (host.tracing later).attached[host.attached.length]? =
        some ⟨.tracer tracer, tracer.inReport⟩ ∧
      tracer.options = (Trace.Options.ofConfig host.config).value ∧
      tracer.inReport = (host.config.get? "choice.trace").isNone := by
  refine ⟨(Tracer.ofConfig host.config host.surroundings).1, ?_, Tracer.options_ofConfig,
    Tracer.inReport_ofConfig⟩
  simp [tracing, attachTracer, attach]

theorem reliable_tracing {host : Host}
    (reliable : host.report.channel.Reliable host.surroundings) (later : List Attached) :
    (host.tracing later).report.channel.Reliable (host.tracing later).surroundings :=
  reliable.of_limit_eq Tracer.limit_ofConfig

/-- Whatever was run, the observer at the place of the tracer writes what the tracer writes. -/
theorem Reaches.writings_of_place {host reached : Host} (reaches : host.Reaches reached)
    {member : Attached} {place : Nat} (there : host.attached[place]? = some member) :
    ∃ still, reached.attached[place]? = some still ∧ still.writings = member.writings := by
  have parts_eq := congrArg (·[place]?) reaches.parts_eq
  simp only [List.getElem?_map, there, Option.map_some] at parts_eq
  obtain ⟨still, found, same⟩ := Option.map_eq_some_iff.mp parts_eq
  exact ⟨still, found, Attached.writings_of_part same⟩

/--
Over a report that never fails a tracer that is attached by its configuration writes one
trace for each violation, in the order of the violations, whatever was run before and
whoever else is attached.  If the configuration names a trace file then all of them go into
the outlet of the tracer, and nothing else does; otherwise all of them are sections of the
report with the ids of the records, and nothing goes into an outlet.  A destination that
nobody else writes to receives what is written into it.  Without filters the lines of a
trace that shows generators are numbered from zero, and tell those texts in the record of
the violation whose generators are not retired.
-/
theorem each_violation_is_traced_once {σ : Type} (host : Host) (later : List Attached)
    (jobs : List Job) (program : Program σ) (state : σ) (budget : Nat)
    (reliable : host.report.channel.Reliable host.surroundings) :
    let options := (Trace.Options.ofConfig host.config).value
    let place := host.attached.length
    let reached := (host.tracing later).afterJobs jobs
    let records := (reached.search.run program state budget).2.search.violations
    let alarms := reached.search.alarms program state budget
    let outcome := reached.run program state budget
    let writings := reached.writings program state budget
    let traces := writingsBy place writings
    let lines (told : Record × View) := options.lines told.2.stack.toList
    alarms.map View.last? = records.map some ∧
    (∀ told ∈ records.zip alarms, told.1.path = told.2.stack.toList.map Generator.text) ∧
    reached.audience.Performs writings outcome.host.audience ∧
    (∀ into received, reached.audience.Receives into received →
      outcome.host.audience.Receives into
        (received ++ Buffer.bytesOf (textsInto into writings))) ∧
    (host.config.get? "choice.trace" ≠ none →
      traces = (records.zip alarms).map (fun told =>
        ⟨.outlet place, some place,
          printed (Trace.traceLines told.2.target options.allowed (lines told))⟩) ∧
      textsInto (.outlet place) writings = traces.map Writing.text) ∧
    (host.config.get? "choice.trace" = none →
      traces = (records.zip alarms).map (fun told =>
        ⟨.report, some place,
          printed (Report.topicLines ("choice trace " ++ told.1.id) ++
            (lines told).flatMap Trace.Line.printedLines)⟩) ∧
      textsInto (.outlet place) writings = []) ∧
    (host.config.get? "choice.class" = none → host.config.get? "choice.exclude" = none →
      options.format = .generator → ∀ told ∈ records.zip alarms,
        (lines told).map Trace.Line.index = List.range (lines told).length ∧
        (lines told).map (fun line => "pathtrace::choice::" ++ line.body) =
          ((told.1.path.zip told.2.stack.toList).filter fun choice =>
            !choice.2.retired).map Prod.fst) := by
  intro options place reached records alarms outcome writings traces lines
  have reaches : (host.tracing later).Reaches reached := (host.tracing later).reaches_afterJobs jobs
  have reached_reliable := reaches.reliable (reliable_tracing reliable later)
  have seen : alarms.map View.last? = records.map some :=
    (reached.search.run_violations program state budget).symm
  have paths : ∀ told ∈ records.zip alarms, told.1.path = told.2.stack.toList.map Generator.text :=
    fun told among => Search.path_of_alarm among
  have performs := reached.run_performs program state budget
  obtain ⟨tracer, there, options_eq, inReport_eq⟩ := host.getElem?_tracing later
  obtain ⟨still, found, same⟩ := reaches.writings_of_place there
  -- The tracer may have written before, which changes nothing about what it writes.
  have traces_eq : traces = (records.zip alarms).flatMap fun told =>
      (⟨.tracer tracer, tracer.inReport⟩ : Attached).writings place told.1 told.2 := by
    rw [← same]
    exact writingsBy_of_reliable reached_reliable found
  have outlet_eq : textsInto (.outlet place) writings = textsInto (.outlet place) traces :=
    textsInto_outlet reached_reliable place
  refine ⟨seen, paths, performs, fun into received receives => receives.performs performs,
    fun named => ?_, fun unnamed => ?_, fun no_class no_exclude format told among => ?_⟩
  · have owns : tracer.inReport = false := by
      rw [inReport_eq, Option.isNone_eq_false_iff]
      exact Option.isSome_iff_ne_none.mpr named
    have listed : traces = (records.zip alarms).map fun told =>
        ⟨.outlet place, some place,
          printed (Trace.traceLines told.2.target options.allowed (lines told))⟩ := by
      rw [traces_eq]
      simp only [Attached.writings_of_outlet owns, options_eq]
      exact List.map_eq_flatMap.symm
    refine ⟨listed, ?_⟩
    rw [outlet_eq, listed, List.map_map]
    apply textsInto_map_here
    exact fun _ => rfl
  · have reports : tracer.inReport = true := by rw [inReport_eq, unnamed]; rfl
    have listed : traces = (records.zip alarms).map fun told =>
        ⟨.report, some place,
          printed (Report.topicLines ("choice trace " ++ told.1.id) ++
            (lines told).flatMap Trace.Line.printedLines)⟩ := by
      rw [traces_eq]
      simp only [Attached.writings_of_report reports, options_eq]
      exact List.map_eq_flatMap.symm
    refine ⟨listed, ?_⟩
    rw [outlet_eq, listed]
    apply textsInto_map_elsewhere
    exact fun _ => nofun
  · have allowed : options.allowed = [] := by
      simp [options, Trace.Options.ofConfig, Config.list?, no_class, Trace.kindsNamed]
    have excludes : options.excludes = [] := by
      simp [options, Trace.Options.ofConfig, Config.list?, no_exclude]
    have started := Search.started_of_alarm (List.of_mem_zip among).2
    refine ⟨options.lines_index _, ?_⟩
    rw [paths told among, unretired_texts]
    exact Trace.Options.lines_unfiltered allowed excludes format started

def hasty : Program Unit := fun _ =>
  .choose .bool fun _ => .ignoreRest (.choose (.int 0 1) fun _ =>
    .done (some (.uncaught "hasty"), ()))

def hurried (config : Config) : Host :=
  { config
    search := { options := { target := "hasty", multipleErrors := true } }
    report := { channel := .buffer {} } }

def hurriedToFile : Host := hurried (Table.insert .empty "choice.trace" "trace")

theorem hasty_violations_are_traced_once :
    let options : Trace.Options := { path := some "trace" }
    let line (number : String) :=
      "   0: IntIntervalGenerator[id=\"verifyGetInt(II)\",isCascaded:false,0..1,delta=+1,cur=" ++
        number ++ "]\n"
    let trace (number : String) :=
      "// application: hasty\n// trace over all CG classes\n" ++
        "//------------------------- choice trace\n" ++ line number ++
        "//------------------------- end choice trace\n"
    let rule := "\n====================================================== "
    writingsBy 0 ((hurriedToFile.tracing []).writings hasty () 2) =
      [⟨.outlet 0, some 0, trace "0"⟩, ⟨.outlet 0, some 0, trace "1"⟩] ∧
    ((hurriedToFile.tracing []).run hasty () 2).host.surroundings.directory.get? "trace" =
      some (Buffer.bytesOf [trace "0", trace "1"]) ∧
    (∀ told ∈ ((hurriedToFile.tracing []).search.run hasty () 2).2.search.violations.zip
        ((hurriedToFile.tracing []).search.alarms hasty () 2),
      (options.lines told.2.stack.toList).map ("pathtrace::choice::" ++ ·.body) =
        ((told.1.path.zip told.2.stack.toList).filter fun choice =>
          !choice.2.retired).map Prod.fst) ∧
    writingsBy 0 (((hurried .empty).tracing []).writings hasty () 2) =
      [⟨.report, some 0, rule ++ "choice trace #1\n" ++ line "0"⟩,
        ⟨.report, some 0, rule ++ "choice trace #2\n" ++ line "1"⟩] := by
  intro options line trace rule
  have reliable (config : Config) :
      (hurried config).report.channel.Reliable (hurried config).surroundings := ⟨rfl, rfl⟩
  have options_eq : (Trace.Options.ofConfig hurriedToFile.config).value = options := by
    decide +kernel
  obtain ⟨-, -, performs, received, filed, -, shown⟩ :=
    each_violation_is_traced_once hurriedToFile [] [] hasty () 2 (reliable _)
  obtain ⟨-, -, -, -, -, reported, -⟩ :=
    each_violation_is_traced_once (hurried .empty) [] [] hasty () 2 (reliable _)
  obtain ⟨traces_eq, texts_eq⟩ := filed (by decide +kernel)
  have traces : writingsBy 0 ((hurriedToFile.tracing []).writings hasty () 2) =
      [⟨.outlet 0, some 0, trace "0"⟩, ⟨.outlet 0, some 0, trace "1"⟩] := by
    refine traces_eq.trans ?_
    decide +kernel
  have receives : (hurriedToFile.tracing []).audience.Receives (.outlet 0) .empty :=
    .of_alone rfl rfl (.file (by decide +kernel)) (by decide +kernel)
  have leads : (hurriedToFile.tracing []).audience.shared? (.outlet 0) = some (.file "trace") := by
    decide +kernel
  have filled := get?_file (received (.outlet 0) .empty receives)
    ((congrFun performs.shared?_eq _).trans leads)
  have texts : textsInto (.outlet 0) ((hurriedToFile.tracing []).writings hasty () 2) =
      [trace "0", trace "1"] :=
    texts_eq.trans (congrArg (List.map Writing.text) traces)
  simp only [afterJobs, List.foldl_nil, ByteArray.empty_append] at filled
  rw [show textsInto _ _ = _ from texts] at filled
  refine ⟨traces, filled, ?_, ?_⟩
  · rw [← options_eq]
    intro told among
    exact (shown (by decide +kernel) (by decide +kernel) (by decide +kernel) told among).2
  · refine (reported rfl).1.trans ?_
    decide +kernel

end Host

end ChoiceExplorer
