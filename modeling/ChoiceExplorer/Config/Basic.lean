import ChoiceExplorer.Output.Directory

/-!
# Configurations

A configuration holds a text for each of its keys.  It is read from property
lines, from overrides, or from a flat JSON object.
-/

namespace ChoiceExplorer

abbrev Config := Table String

namespace Config

inductive Error where
  | malformedLine (line : Nat) (text : String)
  | malformedOverride (argument : String)
  | json
  | nestedValue (key : String)
  | notAnObject
  | unreadable (path : String) (cause : Output.FileError)
  deriving DecidableEq

def Error.message : Error → String
  | malformedLine line text =>
      "line " ++ toString line ++ ": expected `key = value`, got `" ++ text ++ "`"
  | malformedOverride argument =>
      "override `" ++ argument ++ "` must have the form `+key=value`"
  | json => "JSON config error"
  | nestedValue key => "JSON config must be a flat object, key `" ++ key ++ "` is nested"
  | notAnObject => "JSON config must be an object"
  | unreadable path cause => "cannot read " ++ path ++ ": " ++ cause.message

end Config

end ChoiceExplorer
