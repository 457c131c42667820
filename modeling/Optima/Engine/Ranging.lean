import Optima.Engine.Session

/-!
# Ranging

The linear program of a solution is the engine's program with every integer column, and every column of a set that is
zero, fixed at its value in the solution. Its duals, and the limits between which they and the costs stay as they
are, are asked for in a pass of its own. Rows without entries take part, so the rows of the two programs have the
same numbers.
-/

namespace Optima.Engine

variable {R : Type} [Scalar R]

/-- The columns fixed for ranging because they are in a set and zero. -/
def zeroSetColumns (e : Engine R) (point : List R) : List Nat :=
  (e.sets.flatMap OrderedSet.columns).filter fun col =>
    (point[col - 1]?).any fun x => Scalar.same x Scalar.zero

def fixedColumns (e : Engine R) (point : List R) : List Nat :=
  ((List.range e.columns.length).map (· + 1)).filter fun col =>
    (e.columns[col - 1]?).any Column.integer || (zeroSetColumns e point).contains col

def rangingColumn (e : Engine R) (fixed : List Nat) (point : List R) (col : Nat) (c : Column R) :
    Ranging.Column R :=
  let cost := coefficientIn e.objective col
  match (if fixed.contains col then point[col - 1]? else none) with
  | some x => ⟨x, x, cost⟩
  | none => ⟨c.lower, c.upper, cost⟩

def rangingRow (r : Row R) : Ranging.Row R :=
  ⟨r.limits.1, r.limits.2, r.entries.map fun (col, x) => (col - 1, x)⟩

/-- The linear program of a solution. -/
def rangingProblem (e : Engine R) (point : List R) : Ranging.Problem R where
  columns := e.columns.mapIdx fun i c => rangingColumn e (fixedColumns e point) point (i + 1) c
  maximize := e.maximize
  rows := e.rows.map rangingRow

/-- Whether the linear program of a solution depends on the solution. -/
def needsPoint (e : Engine R) : Bool :=
  e.columns.any Column.integer || e.sets.any fun s => !s.columns.isEmpty

/-- The values for rows and columns as the caller gets them, rows first. -/
def outerValues (e : Engine R) (v : Ranging.Values R) : List R :=
  (v.rows ++ v.columns).map e.outer

/-- The answer of a ranging pass as the caller gets it. -/
def sensitivityOf (e : Engine R) (a : Ranging.Answer R) : Sensitivity R where
  duals := a.duals.rows ++ a.duals.columns
  lowers := e.outerValues a.lowers
  uppers := e.outerValues a.uppers
  costLowers := a.costLowers.map e.outer
  costUppers := a.costUppers.map e.outer

def handOver (calls : List (Ranging.Call R)) : Work R Unit :=
  outside (modify fun h => { h with rangingCalls := h.rangingCalls ++ calls })

/-- How often the ranging pass went round; a count that was not kept has a place holder. -/
def iterationText : Option Int → String
  | some n => toString n
  | none => "<n>"

/-- Keeps the answer of a ranging pass, for an engine with these columns and rows. -/
def takeAnswer (e : Engine R) (answer : Ranging.Answer R) : Work R Unit :=
  match answer.failure with
  | some text => throw (.failed text)
  | none =>
    if answer.status = .optimal then do
      updateResults fun r =>
        { r with sensitivity := some (e.sensitivityOf answer), iterations := answer.iterations.getD 0 }
      log ("Sensitivity computed in " ++ iterationText answer.iterations ++ " simplex iterations")
    else
      outside (Host.record .warning ("Sensitivity pass did not reach an optimal LP: " ++ answer.status.text))

/-- Asks for the duals and the limits of the solution. -/
def rangeSolution : Work R Unit := do
  let e := (← get).engine
  handOver [.silence]
  if e.results.incumbent.isNone && e.needsPoint then throw .wrongKind
  let problem := e.rangingProblem (e.results.incumbent.getD [])
  handOver problem.calls
  e.takeAnswer ((← get).host.ranging problem)

end Optima.Engine
