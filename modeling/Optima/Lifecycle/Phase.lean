import Optima.Value.Enumeration

/-!
# Phases of a solver

A solver starts, solves once, and is disposed of. The sections of its calls that run under the solver's lock are
functions on its phase; whatever else a call does happens between them.
-/

namespace Optima

inductive Phase where
  | start
  | solving
  | solved
  | aborting
  | aborted
  | disposing
  | disposed
deriving DecidableEq, Repr

instance : Enumeration Phase where
  title := "SolverState"
  members := [.start, .solving, .solved, .aborting, .aborted, .disposing, .disposed]
  label
    | .start => "START"
    | .solving => "SOLVING"
    | .solved => "SOLVED"
    | .aborting => "ABORTING"
    | .aborted => "ABORTED"
    | .disposing => "DISPOSING"
    | .disposed => "DISPOSED"
  code
    | .start => .number 0
    | .solving => .number 1
    | .solved => .number 2
    | .aborting => .number 3
    | .aborted => .number 4
    | .disposing => .number 5
    | .disposed => .number 6

namespace Phase

/-- Whether the solve is over and its engine is still there. -/
def isFinished : Phase → Bool
  | solved | aborted => true
  | _ => false

/-- Whether the solver is on its way out. -/
def isClosing : Phase → Bool
  | disposing | disposed => true
  | _ => false

/-- The first call of `solve` claims the solver; every other call finds it claimed. -/
def claim? : Phase → Option Phase
  | start => some solving
  | _ => none

/-- Whether a call of `solve` that waits for another one may return. -/
def releasesSolve (p : Phase) : Bool :=
  p.isFinished || p.isClosing

/-- The phase after a solve that went through. -/
def settle : Phase → Phase
  | aborting => aborted
  | solving => solved
  | p => p

/-- What a call of `shutdown` finds. -/
inductive Closing where
  /-- There is nothing to do. -/
  | done
  /-- Another call is at it. -/
  | joins
  /-- A solve has to finish first. -/
  | waits
  /-- The call may dispose of the engine. -/
  | proceeds
deriving DecidableEq, Repr

/-- What a call of `shutdown` finds when it starts. -/
def closing : Phase → Closing
  | disposed => .done
  | disposing => .joins
  | start | solved | aborted => .proceeds
  | solving | aborting => .waits

end Phase

end Optima
