import ChoiceExplorer.Table

/-!
# The working directory

A directory of regular files, addressed by path.  Opening fails in the ways a
file system makes it fail: a name may be too long, lead through something that
is no directory, or name the directory itself.
-/

namespace ChoiceExplorer.Output

inductive FileError where
  | notFound
  | notDirectory
  | isDirectory
  | nameTooLong
  | nulByte
  | invalidText
  deriving DecidableEq

def FileError.message : FileError → String
  | notFound => "No such file or directory (os error 2)"
  | notDirectory => "Not a directory (os error 20)"
  | isDirectory => "Is a directory (os error 21)"
  | nameTooLong => "File name too long (os error 36)"
  | nulByte => "file name contained an unexpected NUL byte"
  | invalidText => "stream did not contain valid UTF-8"

abbrev Directory := Table ByteArray

namespace Directory

def nameLimit : Nat := 255

def pathLimit : Nat := 4096

inductive Place where
  /-- A name in the directory, with slashes after it or not. -/
  | entry (name : String) (slash : Bool)
  | directory
  deriving DecidableEq

def isTooLong (name : String) : Bool := nameLimit < name.utf8ByteSize

/--
Follow the components of a path.  Only the last may name a file, and it is not
looked up here, so that nothing is said of its length.
-/
def follow (directory : Directory) : List String → Except FileError Place
  | [] => .ok .directory
  | "" :: rest | "." :: rest | ".." :: rest => directory.follow rest
  | name :: rest =>
      if rest.all (· == "") then .ok (.entry name !rest.isEmpty)
      else if isTooLong name then .error .nameTooLong
      else if directory.contains name then .error .notDirectory
      else .error .notFound

def components (path : String) : List String :=
  let rec split : List Char → List (List Char)
    | [] => [[]]
    | char :: rest =>
        match split rest with
        | [] => [[char]]
        | first :: later => if char = '/' then [] :: first :: later else (char :: first) :: later
  (split path.toList).map String.ofList

/-- What a path leads to, as far as its names tell. -/
def resolve (directory : Directory) (path : String) : Except FileError Place :=
  if path.toList.contains '\x00' then .error .nulByte
  else if path.isEmpty then .error .notFound
  else if pathLimit ≤ path.utf8ByteSize then .error .nameTooLong
  else directory.follow (components path)

/--
Create the file at a path, or empty it, and give its name.  A slash at the end
asks for a directory and is refused before the name is looked up.
-/
def create (directory : Directory) (path : String) : Except FileError (String × Directory) :=
  match directory.resolve path with
  | .error cause => .error cause
  | .ok (.entry name false) =>
      if isTooLong name then .error .nameTooLong
      else .ok (name, directory.insert name .empty)
  | .ok _ => .error .isDirectory

def read (directory : Directory) (path : String) : Except FileError ByteArray := do
  match ← directory.resolve path with
  | .directory => .error .isDirectory
  | .entry name slash =>
      if isTooLong name then .error .nameTooLong
      else
        match directory.get? name with
        | none => .error .notFound
        | some content => if slash then .error .notDirectory else .ok content

/-- The content of the file at a path, which must be UTF-8 text. -/
def readText (directory : Directory) (path : String) : Except FileError String := do
  let content ← directory.read path
  match String.fromUTF8? content with
  | none => .error .invalidText
  | some text => .ok text

/-- Write bytes at an offset of a file; a gap before them is filled with zeros. -/
def writeAt (directory : Directory) (name : String) (offset : Nat) (bytes : ByteArray) :
    Directory :=
  let content := (directory.get? name).getD .empty
  let gap : ByteArray := ⟨Array.replicate (offset - content.size) 0⟩
  let before := content.extract 0 offset ++ gap
  let after := content.extract (offset + bytes.size) content.size
  directory.insert name (before ++ bytes ++ after)

/-- The part of a file name after its last dot, unless the dot begins the name. -/
def extension? (name : String) : Option String :=
  let back := name.toList.reverse
  match back.dropWhile (· != '.') with
  | _ :: _ :: _ => some (String.ofList (back.takeWhile (· != '.')).reverse)
  | _ => none

end Directory

end ChoiceExplorer.Output
