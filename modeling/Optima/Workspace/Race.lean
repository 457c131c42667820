import Optima.Workspace.Basic

/-!
# Two calls on one solver

The first call is held where the solver's engine is held, the second one is made, and then the engine is let go. What
is seen while the first call is held follows from the transition system of the calls alone; after that the two calls
go through one after the other, since none of their locked sections can meet any more.
-/

namespace Optima.Workspace

variable {R : Type} [Scalar R]

inductive Call where
  | solve
  | shutdown
deriving DecidableEq, Repr

namespace Call

def name : Call → String
  | solve => "solve"
  | shutdown => "shutdown"

def ofName? (s : String) : Option Call :=
  [solve, shutdown].find? fun c => c.name == s

def stage : Call → Lifecycle.Stage
  | solve => .entering
  | shutdown => .closing

def perform : Call → Solver.Work R Unit
  | solve => Solver.solve .start
  | shutdown => Solver.shutdown

end Call

def holds (gate : Engine.Gate) : Lifecycle.Stage → Bool
  | .solving _ => gate = .solve
  | .deleting _ => gate = .release
  | _ => false

def gateOf : Factory → Option Engine.Gate
  | .makes defects => defects.gate
  | _ => none

/-- What was seen of two calls: how they met, which of them returned, and the phase in the end. -/
structure RaceReport where
  meeting : Lifecycle.Meeting
  returned : List String
  final : Phase
deriving Repr

/-- Makes a call; the answer is its name if it returned. -/
def tryCall (c : Call) : Task R (List String) :=
  tryCatch (onSolver c.perform >>= fun _ => pure [c.name]) fun _ => pure []

/-- The solver as the transition system sees it. -/
def configOf (s : Solver.Session R) : Lifecycle.Config :=
  if s.solver.encoding.isSome then ⟨⟨s.phase, some 0, 1, [⟨1, 0⟩]⟩, []⟩ else ⟨⟨s.phase, none, 0, []⟩, []⟩

/-- Makes two calls, the first of which is held on its way. -/
def race (first second : Call) : Task R RaceReport := do
  let s ← Action.lift (← get).session
  match gateOf s.solver.factory with
  | none => throw .absent
  | some gate =>
    let meeting := (configOf s).meet first.stage second.stage (holds gate)
    let done ← tryCall first
    let alsoDone ← tryCall second
    let after ← Action.lift (← get).session
    pure ⟨meeting, (done ++ alsoDone).mergeSort fun a b => decide (a ≤ b), after.phase⟩

end Optima.Workspace
