import ChoiceExplorer.Json.Decode
import ChoiceExplorer.Json.Writer
import ChoiceExplorer.Search.Options
import ChoiceExplorer.Search.Record
import ChoiceExplorer.Trace.Options

/-!
# Records as JSON

The JSON form of options, violations and choice values.
-/

namespace ChoiceExplorer

open Json Json.Tree

namespace Kind

def json (kind : Kind) : String := stringText kind.name

def ofJson? (tree : Tree) : Option Kind := tree.name?.bind ofShortName?

end Kind

namespace Trace.Format

def json (format : Format) : String := stringText format.name

def ofJson? (tree : Tree) : Option Format :=
  match tree.name? with
  | some "CG" => some generator
  | some "CHOICE" => some value
  | _ => none

end Trace.Format

namespace Trace.Options

def json (options : Options) : String :=
  objectText [
    ("trace", nullableText stringText options.path),
    ("excludes", arrayText (options.excludes.map stringText)),
    ("allowed", arrayText (options.allowed.map Kind.json)),
    ("format", options.format.json),
    ("show_location", toString options.showLocation)]

/-- Read trace options; missing fields have their defaults. -/
def ofJson? (tree : Tree) : Option Options := do
  match ← tree.fields? ["trace", "excludes", "allowed", "format", "show_location"] with
  | [path, excludes, allowed, format, showLocation] =>
      let defaults : Options := {}
      let path ← withDefault defaults.path (nullable? text?) path
      let excludes ← withDefault defaults.excludes (list? text?) excludes
      let allowed ← withDefault defaults.allowed (list? Kind.ofJson?) allowed
      let format ← withDefault defaults.format Format.ofJson? format
      let showLocation ← withDefault defaults.showLocation bool? showLocation
      some { path, excludes, allowed, format, showLocation }
  | _ => none

end Trace.Options

namespace Search.Options

def json (options : Options) : String :=
  objectText [
    ("target", stringText options.target),
    ("enumerate_random", toString options.enumerateRandom),
    ("multiple_errors", toString options.multipleErrors),
    ("depth_limit", nullableText toString options.depthLimit),
    ("seed", toString options.seed.toNat)]

/-- Read search options; only the depth limit may be missing. -/
def ofJson? (tree : Tree) : Option Options := do
  match ← tree.fields? ["target", "enumerate_random", "multiple_errors", "depth_limit", "seed"] with
  | [target, enumerateRandom, multipleErrors, depthLimit, seed] =>
      let target ← required text? target
      let enumerateRandom ← required bool? enumerateRandom
      let multipleErrors ← required bool? multipleErrors
      let depthLimit ← withDefault none (nullable? (natural? UInt64.size)) depthLimit
      let seed ← required (natural? UInt64.size) seed
      some { target, enumerateRandom, multipleErrors, depthLimit, seed := seed.toUInt64 }
  | _ => none

end Search.Options

namespace Search.Violation

def json (violation : Violation) : String :=
  objectText [
    ("property", stringText violation.property), ("message", stringText violation.message)]

def ofJson? (tree : Tree) : Option Violation := do
  match ← tree.fields? ["property", "message"] with
  | [property, message] =>
      let property ← required text? property
      let message ← required text? message
      some { property, message }
  | _ => none

end Search.Violation

namespace Search.Record

def json (record : Record) : String :=
  objectText [
    ("id", stringText record.id),
    ("violation", record.violation.json),
    ("depth", toString record.depth),
    ("path", arrayText (record.path.map stringText))]

def ofJson? (tree : Tree) : Option Record := do
  match ← tree.fields? ["id", "violation", "depth", "path"] with
  | [id, violation, depth, path] =>
      let id ← required text? id
      let violation ← required Violation.ofJson? violation
      let depth ← required (natural? UInt64.size) depth
      let path ← required (list? text?) path
      some { id, violation, depth, path }
  | _ => none

end Search.Record

namespace Thread

def json (thread : Thread) : String :=
  objectText [("id", toString thread.id.toNat), ("name", stringText thread.name)]

def ofJson? (tree : Tree) : Option Thread := do
  match ← tree.fields? ["id", "name"] with
  | [id, name] =>
      let id ← required (natural? UInt32.size) id
      let name ← required text? name
      some { id := id.toUInt32, name }
  | _ => none

end Thread

namespace Value

/-- Write a choice value under the name of its sort. -/
def json (value : Value) : String :=
  let content :=
    match value with
    | bool value => toString value
    | int value | long value => toString value
    | float value => value.text singleLayout
    | double value => value.text doubleLayout
    | thread value => value.json
  objectText [(value.sort, content)]

def ofJson? (tree : Tree) : Option Value :=
  match tree.variant? with
  | some ("Bool", content) => content.bool?.map bool
  | some ("Int", content) => content.long?.map int
  | some ("Long", content) => content.long?.map long
  | some ("Float", content) => content.single?.map float
  | some ("Double", content) => content.double?.map double
  | some ("Thread", content) => (Thread.ofJson? content).map thread
  | _ => none

end Value

end ChoiceExplorer
