import Optima.Report.Sensitivity
import Optima.Solver.Queries

/-!
# Reports on a solve

A solver gives two reports: its details, in words, and the sensitivity of its solution. Details can be had only as
long as there is a solve to report on.
-/

namespace Optima

inductive ReportKind where
  | sensitivity
  | infeasibility
  | details
deriving DecidableEq, Repr

namespace ReportKind

def label : ReportKind → String
  | sensitivity => "SENSITIVITY"
  | infeasibility => "INFEASIBILITY"
  | details => "SOLVER_DETAILS"

instance : Enumeration ReportKind where
  title := "ReportType"
  members := [.sensitivity, .infeasibility, .details]
  label := label
  code k := .word k.label

end ReportKind

namespace Solver.Session

variable {R : Type} [Scalar R]

/-- Whether there is a sensitivity report: only when ranging was wanted for the solve. -/
def sensitivityReport? (s : Session R) : Except Fault (Option (SensitivityReport R)) :=
  match s.solver.encoding with
  | none => .error .notSolved
  | some t => .ok (if s.solver.sensitivity.truth then some ⟨t.engine, t.naming⟩ else none)

/-- Fails when there is nothing to report on. -/
def mustHaveSolution (s : Session R) : Except Fault Unit :=
  if s.hasSolution then .ok () else .error .nothingToReport

def reportedIterations (s : Session R) : Except Fault Int := do
  s.mustHaveSolution
  s.iterations

def reportedPresolveLoops (s : Session R) : Except Fault Int := do
  s.mustHaveSolution
  (← s.setting .presolveLoops).toInteger

def reportedNodes (s : Session R) : Except Fault Int := do
  s.mustHaveSolution
  s.nodes

def reportedPivots (s : Session R) : Except Fault Int := do
  s.mustHaveSolution
  (← s.setting .maxPivot).toInteger

def detailLines (s : Session R) : Except Fault (List String) := do
  s.mustHaveSolution
  let iterations ← s.reportedIterations
  let loops ← s.reportedPresolveLoops
  let effort ←
    if s.model.isMixed then (s.reportedNodes).map fun n => "Node Count:" ++ toString n
    else (s.reportedPivots).map fun n => "Pivot count:" ++ toString n
  let result ← s.result
  let value ← s.goalValue
  pure ["===SolverDetails====",
    "Iteration Count:" ++ toString iterations,
    "Presolve loops:" ++ toString loops,
    effort,
    "===Model details===",
    "Variables:" ++ toString s.model.variableVids.length,
    "Rows:" ++ toString s.model.rowVids.length,
    "Non-zeros:" ++ toString s.model.matrix.count,
    "===Solution details===",
    "Result:" ++ result.label,
    "Goal value:" ++ value.text]

def details (s : Session R) : Except Fault String := do
  let lines ← s.detailLines
  pure ("\n".intercalate lines ++ "\n")

end Solver.Session

end Optima
