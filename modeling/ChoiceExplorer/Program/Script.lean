import ChoiceExplorer.Search.Explore

/-!
# Scripts

A small statement language for programs.  A script keeps texts in variables,
branches on them, and logs every value it is given.  Its log is its result, and
its state between runs is the list of the logs so far, which also numbers the
runs.
-/

namespace ChoiceExplorer.Script

open Chance (Draw)

inductive Query where
  | choose (request : Request)
  | draw (draw : Draw)
  /-- How many choice points have been passed. -/
  | depth
  /-- The number of the run, counted from one. -/
  | runNumber
  deriving DecidableEq

inductive Part where
  | text (text : String)
  | kept (name : String)
  deriving DecidableEq

inductive Statement where
  /-- Go one way if all variables have the given texts, else the other. -/
  | branch (condition : List (String × String)) (agreed otherwise : List Statement)
  | loop (times : Nat) (body : List Statement)
  /-- End the run without a violation. -/
  | leave
  /-- End the run with a violation, by default that of a failed program. -/
  | fail (property : Option String) (message : List Part)
  | tag (location : String)
  | ignoreRest
  /-- Ask for a value, perhaps at a location, and perhaps keep it in a variable. -/
  | ask (query : Query) (location keep : Option String)
  deriving Inhabited

structure Memory where
  kept : List (String × String) := []
  log : List String := []
  deriving DecidableEq

namespace Memory

/-- The text in a variable, empty at first. -/
def get (memory : Memory) (name : String) : String :=
  (memory.kept.lookup name).getD ""

/-- Log a text, and keep it in a variable if one is named. -/
def note (memory : Memory) (text : String) (keep : Option String) : Memory :=
  { kept :=
      match keep with
      | none => memory.kept
      | some name => (name, text) :: memory.kept
    log := memory.log ++ [text] }

def agrees (memory : Memory) (condition : List (String × String)) : Bool :=
  condition.all fun (name, text) => memory.get name == text

def message (memory : Memory) (parts : List Part) : String :=
  String.join (parts.map fun part =>
    match part with
    | .text text => text
    | .kept name => memory.get name)

end Memory

/-- The text that a script sees of a value: of a thread only its number. -/
def valueText : Value → String
  | .thread thread => toString thread.id.toNat
  | value => value.text

def Query.ask (query : Query) (number : Nat) : Run String :=
  match query with
  | choose request => .choose request fun value => .done (valueText value)
  | draw source => .draw source fun value => .done (valueText value)
  | depth => .depth fun count => .done (toString count)
  | runNumber => .done (toString number)

/-- What is left after a statement: the memory to go on with, or the end of the run. -/
inductive Progress where
  | goOn (memory : Memory)
  | ended (violation : Option Search.Violation) (memory : Memory)
  deriving DecidableEq

def andThen (first : Run Progress) (next : Memory → Run Progress) : Run Progress :=
  first.bind fun progress =>
    match progress with
    | .goOn memory => next memory
    | .ended .. => .done progress

def repeated (body : Memory → Run Progress) : Nat → Memory → Run Progress
  | 0, memory => .done (.goOn memory)
  | times + 1, memory => andThen (body memory) (repeated body times)

mutual

def Statement.perform (number : Nat) : Statement → Memory → Run Progress
  | .branch condition agreed otherwise, memory =>
      if memory.agrees condition then performAll number agreed memory
      else performAll number otherwise memory
  | .loop times body, memory => repeated (performAll number body) times memory
  | .leave, memory => .done (.ended none memory)
  | .fail property message, memory =>
      let text := memory.message message
      let violation :=
        match property with
        | none => Search.Violation.uncaught text
        | some property => ⟨property, text⟩
      .done (.ended (some violation) memory)
  | .tag location, memory => .tag location (.done (.goOn memory))
  | .ignoreRest, memory => .ignoreRest (.done (.goOn memory))
  | .ask query location keep, memory =>
      let asked := (query.ask number).bind fun text => .done (.goOn (memory.note text keep))
      match location with
      | none => asked
      | some location => .tag location asked

def performAll (number : Nat) : List Statement → Memory → Run Progress
  | [], memory => .done (.goOn memory)
  | statement :: rest, memory => andThen (statement.perform number memory) (performAll number rest)

end

abbrev Logs := Array (List String)

def program (script : List Statement) : Program Logs := fun logs =>
  (performAll (logs.size + 1) script {}).bind fun progress =>
    match progress with
    | .goOn memory => .done (none, logs.push memory.log)
    | .ended violation memory => .done (violation, logs.push memory.log)

end ChoiceExplorer.Script
