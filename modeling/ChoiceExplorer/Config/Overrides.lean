import ChoiceExplorer.Config.Properties

/-!
# Overrides

An override has the form `+key=value`.  Overrides are applied in turn, and
those before a malformed one stay applied.
-/

namespace ChoiceExplorer.Config

def override? (argument : String) : Option (String × String) :=
  match argument.toList with
  | '+' :: rest => entry? rest
  | _ => none

/-- Apply overrides up to the first malformed one. -/
def applyOverrides (config : Config) : List String → Config × Except Error Unit
  | [] => (config, .ok ())
  | argument :: rest =>
      match override? argument with
      | none => (config, .error (.malformedOverride argument))
      | some (key, value) => applyOverrides (config.insert key value) rest

def ofOverrides (arguments : List String) : Except Error Config :=
  match applyOverrides .empty arguments with
  | (config, .ok ()) => .ok config
  | (_, .error error) => .error error

end ChoiceExplorer.Config
