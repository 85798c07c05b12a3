import ChoiceExplorer.Config.Lookup
import ChoiceExplorer.Trace.Options

/-!
# Trace options from a configuration

The options are bound from the keys that begin with `choice.`.  Unknown kinds
and malformed values are passed over with a warning.
-/

namespace ChoiceExplorer.Trace

/-- The kinds with the given names, each once, and the names that are unknown. -/
def kindsNamed (names : List String) : Warned (List Kind) :=
  let kinds := names.filterMap Kind.ofName?
  let unknown := names.filter fun name => (Kind.ofName? name).isNone
  ⟨kinds.foldl (fun found kind => if kind ∈ found then found else found ++ [kind]) [],
    unknown.map .unknownKind⟩

def lookupFormat (config : Config) (key : String) (default : Format) : Warned Format :=
  config.parsed key default fun chars =>
    match Format.parse (String.ofList chars) with
    | .ok format => some format
    | .error _ => none

namespace Options

def ofConfig (config : Config) : Warned Options :=
  let defaults : Options := {}
  let allowed := kindsNamed ((config.list? "choice.class").getD [])
  let format := lookupFormat config "choice.format" defaults.format
  let showLocation := config.bool "choice.show_location" defaults.showLocation
  { value :=
      { path := config.get? "choice.trace"
        excludes := (config.list? "choice.exclude").getD []
        allowed := allowed.value
        format := format.value
        showLocation := showLocation.value }
    warnings := allowed.warnings ++ format.warnings ++ showLocation.warnings }

end Options

end ChoiceExplorer.Trace
