import ChoiceExplorer.Proofs.Visit

/-!
# Choice trees

What a program does when its behaviour in a run depends only on the answers it
gets is a tree: its nodes are the choice points, its branches their
alternatives, and its leaves the runs.  The tree is defined on the program
alone.  It knows of no stack and of no earlier run, and the runs to be made are
its leaves from left to right.
-/

namespace ChoiceExplorer

def Generator.unstarted (id : String) (alternatives : Alternatives) : Generator :=
  { id, alternatives }

namespace Request

/-- The value of a choice point at a position, or its fallback past the end. -/
def value (request : Request) (position : Nat) : Value :=
  (request.alternatives.get? position).getD request.alternatives.fallback

def pick (request : Request) (position : Nat) : Generator :=
  (Generator.unstarted request.id request.alternatives).advanceBy (position + 1)

end Request

namespace Search

open Chance (Stream)

namespace Options

/-- The choice point that stands for a random value under these options, if one does. -/
def request? (options : Options) (source : Chance.Draw) : Option Request :=
  if options.enumerateRandom then source.request? else none

theorem offered_of_request? {options : Options} {source : Chance.Draw} {request : Request}
    (asked : options.request? source = some request) : source.request? = some request := by
  unfold request? at asked
  split at asked
  · exact asked
  · cases asked

def isFull (options : Options) (length : Nat) : Bool :=
  options.depthLimit.any fun limit => limit ≤ length

end Options

/-- The elements of a list up to the first final one, this one included. -/
def upTo {α : Type} (final : α → Bool) : List α → List α
  | [] => []
  | first :: rest => first :: if final first then [] else upTo final rest

structure Course where
  /-- The choices on its path, oldest first. -/
  path : List Generator := []
  answers : List Answer := []
  random : Stream
  truncated : Bool := false
  fault : Option Fault := none

/-- The tree of the choice points that a run can pass. -/
inductive ChoiceTree (α : Type) where
  /-- The end of a run. -/
  | leaf (visit : Visit α)
  /-- The program gives up the alternatives left at the choice point above. -/
  | ignored (rest : ChoiceTree α)
  /-- A choice point with the tree below each position. -/
  | node (request : Request) (below : Nat → ChoiceTree α)

namespace ChoiceTree

variable {α : Type}

/-- Whether the program gives up the choice point above before it passes a further one. -/
def givesUp : ChoiceTree α → Bool
  | leaf _ => false
  | ignored _ => true
  | node .. => false

/--
The runs from left to right.  At a choice point the alternatives are taken in
order, up to the first below which the program gives up those left.
-/
def leaves : ChoiceTree α → List (Visit α)
  | leaf visit => [visit]
  | ignored rest => rest.leaves
  | node request below =>
      (upTo (fun position => (below position).givesUp)
        (List.range request.alternatives.size)).flatMap fun position => (below position).leaves

end ChoiceTree

namespace Course

variable {α : Type}

def start (options : Options) : Course := { random := .ofSeed options.seed }

def note (course : Course) (answer : Answer) : Course :=
  { course with answers := course.answers ++ [answer] }

def pass (course : Course) (request : Request) (position : Nat) : Course :=
  { course.note (.value (request.value position)) with
    path := course.path ++ [request.pick position] }

def visit (course : Course) (result : α) : Visit α :=
  ⟨course.path, course.answers, course.truncated, course.fault, result⟩

/--
The tree from a request on, from how the run goes on after each answer.  A run
with a fault gets the fallback, a full path takes the first alternative without
a choice point, and a request without alternatives is a fault.
-/
def ask (options : Options) (course : Course) (request : Request)
    (next : Value → Course → ChoiceTree α) : ChoiceTree α :=
  let fallback := request.alternatives.fallback
  if course.fault.isSome then next fallback (course.note (.value fallback))
  else if request.alternatives.size = 0 then
    next fallback
      { course.note (.value fallback) with fault := some (.emptyChoice request.id) }
  else if options.isFull course.path.length then
    next (request.value 0) { course.note (.value (request.value 0)) with truncated := true }
  else .node request fun position => next (request.value position) (course.pass request position)

section

variable {options : Options} {course : Course} {request : Request}
  {next : Value → Course → ChoiceTree α}

theorem ask_of_fault (fault : course.fault.isSome = true) :
    course.ask options request next =
      next request.alternatives.fallback (course.note (.value request.alternatives.fallback)) := by
  rw [ask, if_pos fault]

theorem ask_of_empty (fault : course.fault = none) (empty : request.alternatives.size = 0) :
    course.ask options request next =
      next request.alternatives.fallback
        { course.note (.value request.alternatives.fallback) with
          fault := some (.emptyChoice request.id) } := by
  simp [ask, fault, empty]

theorem ask_of_full (fault : course.fault = none) (offers : request.alternatives.size ≠ 0)
    (full : options.isFull course.path.length = true) :
    course.ask options request next =
      next (request.value 0)
        { course.note (.value (request.value 0)) with truncated := true } := by
  simp [ask, fault, offers, full]

theorem ask_of_room (fault : course.fault = none) (offers : request.alternatives.size ≠ 0)
    (room : options.isFull course.path.length = false) :
    course.ask options request next =
      .node request fun position =>
        next (request.value position) (course.pass request position) := by
  simp [ask, fault, offers, room]

end

end Course

end Search

namespace Run

open Search (Options Course ChoiceTree)

variable {α : Type}

def tree (options : Options) : Run α → Course → ChoiceTree α
  | done result, course => .leaf (course.visit result)
  | tag _ next, course => tree options next course
  | ignoreRest next, course =>
      if course.fault.isSome then tree options next course
      else .ignored (tree options next course)
  | depth next, course =>
      tree options (next course.path.length) (course.note (.passed course.path.length))
  | choose request next, course =>
      course.ask options request fun value course => tree options (next value) course
  | draw source next, course =>
      match options.request? source with
      | some request =>
          course.ask options request fun value course => tree options (next value) course
      | none =>
          let (value, random) := source.take course.random
          tree options (next value) { course.note (.value value) with random }

def wholeTree (options : Options) (run : Run α) : ChoiceTree α :=
  run.tree options (.start options)

end Run

end ChoiceExplorer
