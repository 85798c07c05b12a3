import ChoiceExplorer.Config.FlatJson
import ChoiceExplorer.Config.Properties

/-!
# Configuration files

A file whose name ends in `.json` holds JSON, any other property text.
-/

namespace ChoiceExplorer.Config

def lastName (path : String) : String :=
  (Output.Directory.components path).getLastD ""

def ofFile (directory : Output.Directory) (path : String) : Except Error Config :=
  match directory.readText path with
  | .error cause => .error (.unreadable path cause)
  | .ok text =>
      if Output.Directory.extension? (lastName path) = some "json" then ofJsonText text
      else ofProperties text

end ChoiceExplorer.Config
