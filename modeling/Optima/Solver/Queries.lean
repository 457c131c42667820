import Optima.Engine.Files
import Optima.Solver.Basic

/-!
# Questions to a solver

What can be asked about a solve. Most questions are passed on to the engine and fail when there is none.
-/

namespace Optima

def Total.toValue {R : Type} : Total R → Value R
  | .nothing => .integer 0
  | .scalar x => .real x

structure SolvedGoal (R : Type) where
  key : Value R
  row : Nat
  minimize : Bool
  optimal : Bool
deriving Repr

namespace Solver.Session

variable {R : Type} [Scalar R]

/-- Whether the solve is over and its engine is still there. -/
def hasSolution (s : Session R) : Bool :=
  s.solver.encoding.isSome && s.phase.isFinished

/-- The class of the result, the program being taken to be mixed or not. -/
def linearResult (s : Session R) (mixed : Bool) : Except Fault LinearResult := do
  let simplex ← (← s.engine).settings.simplexType
  pure (s.solver.verdict.linearResult (simplex = .primalPrimal) mixed)

def result (s : Session R) : Except Fault LinearResult :=
  s.linearResult s.model.isMixed

def solvedGoalCount (s : Session R) : Except Fault Nat :=
  if s.model.goal.isNone then .ok 0
  else s.engine.map fun e => if 0 < e.results.pointCount then 1 else 0

/-- A goal that has been solved for; a negative index counts from the end. -/
def solvedGoal (s : Session R) (index : Int) : Except Fault (SolvedGoal R) :=
  let goals := s.model.goals
  let place := if index < 0 then index + goals.length else index
  match (if place < 0 then none else goals[place.toNat]?) with
  | some g => .ok ⟨g.key, g.row, g.minimize, s.solver.verdict = .optimal⟩
  | none => .error .pastEnd

/-- The best bound of a mixed model; other models have none. -/
def bestBound (s : Session R) : Except Fault R :=
  if s.model.isMixed then s.engine.map Engine.bound else .ok Scalar.nan

/-- The value of a variable or a row. -/
def value (s : Session R) (vid : Int) : Except Fault R :=
  (s.model.entry vid).map Entry.value

def rowCount (s : Session R) : Except Fault Nat :=
  s.engine.map fun e => e.rows.length

/-- The number of rows and columns. -/
def indexCount (s : Session R) : Except Fault Nat :=
  s.engine.map fun e => e.rows.length + e.columns.length

def integerCount (s : Session R) : Except Fault Nat :=
  s.engine.map fun e => (e.columns.filter Column.integer).length

def setting (s : Session R) (x : Setting) : Except Fault (Value R) :=
  s.engine.map fun e => e.settings.get x

def iterations (s : Session R) : Except Fault Int :=
  s.engine.map fun e => e.results.iterations

/-- The number of nodes of the search tree, which the search does not tell. -/
def nodes (s : Session R) : Except Fault Int :=
  s.engine.map fun _ => 0

def goalValue (s : Session R) : Except Fault (Total R) :=
  s.engine.map fun e => e.results.objective

def elapsed (s : Session R) : Except Fault R :=
  s.engine.map fun e => e.results.elapsed

/-- The algorithm of the second phase. -/
def algorithm (s : Session R) : Except Fault SimplexAlgorithm := do
  let simplex ← (← s.engine).settings.simplexType
  pure (if simplex.endsPrimal then .primal else .dual)

end Solver.Session

inductive SolverProperty where
  | iterations
  | nodes
  | goalBound
  | goalValue
  | pivots
  | elapsed
  | presolveLoops
  | gap
deriving DecidableEq, Repr

namespace SolverProperty

def all : List SolverProperty := [iterations, nodes, goalBound, goalValue, pivots, elapsed, presolveLoops, gap]

def name : SolverProperty → String
  | iterations => "IterationCount"
  | nodes => "NodeCount"
  | goalBound => "GoalBound"
  | goalValue => "GoalValue"
  | pivots => "PivotCount"
  | elapsed => "ElapsedTime"
  | presolveLoops => "PresolveLoops"
  | gap => "MipGap"

def ofName? (s : String) : Option SolverProperty :=
  all.find? fun p => p.name == s

end SolverProperty

namespace Solver

variable {R : Type} [Scalar R]

def Session.propertyOf (s : Session R) : SolverProperty → Except Fault (Value R)
  | .iterations => s.iterations.map .integer
  | .nodes => s.nodes.map .integer
  | .goalBound => s.engine.map fun e => .real e.bound
  | .goalValue => s.goalValue.map Total.toValue
  | .pivots => s.setting .maxPivot
  | .elapsed => s.elapsed.map .real
  | .presolveLoops => s.setting .presolveLoops
  | .gap => s.setting .gapAbsolute

/-- A property of a solve, or of an entry of the model, by name. -/
def Session.property (s : Session R) (name : String) (vid : Int) : Except Fault (Value R) :=
  match SolverProperty.ofName? name with
  | some p => s.propertyOf p
  | none => (s.model.property name vid).map .real

/-- Sets a property of an entry of the model, by name. -/
def setProperty (name : String) (vid : Int) (value : Value R) : Work R Unit :=
  onModel (Model.setProperty name vid value)

/-- Writes the engine with the exporter of a name. -/
def exportTo (exporter path : String) (options results : Value R) : Work R (Value R) :=
  onEngine do
    if ← Engine.chooseExporter exporter then Engine.exportTo path options results else pure (.flag false)

end Solver

end Optima
