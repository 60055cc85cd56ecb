set_option autoImplicit false

/- How often measured functions were called, and how often they failed through no fault of their
input. -/
namespace LineCalc

/-- Names a measured function. -/
structure Labels where
  layer : String
  function : String
  deriving DecidableEq, Repr

/-- Tells the failures that count as such from the ones that bad input explains. -/
class Blame (ε : Type) where
  isFault : ε → Bool

instance : Blame Unit := ⟨fun _ => false⟩

/-- There is no error of a call that cannot fail. -/
instance : Blame Empty := ⟨fun _ => false⟩

/-- An error of unknown origin, known by its text. It is always to blame. -/
structure OpaqueError where
  message : String
  deriving DecidableEq, Repr

instance : Blame OpaqueError := ⟨fun _ => true⟩

/-- A finished call of a measured function. -/
structure Call where
  labels : Labels
  fault : Bool
  deriving DecidableEq, Repr

def Call.of {ε α : Type} [Blame ε] (labels : Labels) (result : Except ε α) : Call where
  labels := labels
  fault := match result with
    | .ok _ => false
    | .error e => Blame.isFault e

structure Counts where
  successes : Nat := 0
  failures : Nat := 0
  timings : Nat := 0
  deriving DecidableEq, Repr

/-- Of the time a call takes, only that it was taken is kept: how long it was depends on more than
what is called, and nothing is told of it. -/
def Counts.add (counts : Counts) (fault : Bool) : Counts where
  successes := if fault then counts.successes else counts.successes + 1
  failures := if fault then counts.failures + 1 else counts.failures
  timings := counts.timings + 1

/-- By layer, then by function, in the order of code points. -/
def Labels.before (x y : Labels) : Bool :=
  x.layer < y.layer || (x.layer == y.layer && x.function < y.function)

/-- Counts by function, in ascending order. -/
abbrev Tally := List (Labels × Counts)

namespace Tally

def empty : Tally := []

def counts (tally : Tally) (labels : Labels) : Counts := (tally.lookup labels).getD {}

def update (labels : Labels) (change : Counts → Counts) : Tally → Tally
  | [] => [(labels, change {})]
  | (key, counts) :: rest =>
    if key = labels then (key, change counts) :: rest
    else if labels.before key then (labels, change {}) :: (key, counts) :: rest
    else (key, counts) :: update labels change rest

/-- Makes a function known before it is called. -/
def register (tally : Tally) (labels : Labels) : Tally := tally.update labels id

def record (tally : Tally) (call : Call) : Tally :=
  tally.update call.labels (·.add call.fault)

/-- Counts a call and hands on what it returned. -/
def measure {ε α : Type} [Blame ε] (tally : Tally) (labels : Labels) (result : Except ε α) :
    Except ε α × Tally :=
  (result, tally.record (.of labels result))

end Tally

end LineCalc
