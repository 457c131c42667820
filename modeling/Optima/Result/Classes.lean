import Optima.Engine.Basic

/-!
# Classes of results

What a verdict means for a linear program, depending on the simplex algorithms that were set: only the primal ones
can tell an infeasible program from an unbounded one, or an unbounded program from an infeasible dual. A search for
integers never shows that a program is unbounded.
-/

namespace Optima

inductive LinearResult where
  | optimal
  | infeasiblePrimal
  | infeasibleOrUnbounded
  | unboundedPrimal
  | unboundedDual
  | invalid
deriving DecidableEq, Repr

namespace LinearResult

def label : LinearResult → String
  | optimal => "OPTIMAL"
  | infeasiblePrimal => "INFEASIBLE_PRIMAL"
  | infeasibleOrUnbounded => "INFEASIBLE_OR_UNBOUNDED"
  | unboundedPrimal => "UNBOUNDED_PRIMAL"
  | unboundedDual => "UNBOUNDED_DUAL"
  | invalid => "INVALID"

instance : Enumeration LinearResult where
  title := "LinearResult"
  members := [.optimal, .infeasiblePrimal, .infeasibleOrUnbounded, .unboundedPrimal, .unboundedDual, .invalid]
  label := label
  code r := .word r.label

end LinearResult

/-- How far the values of a solution can be trusted. -/
inductive SolutionQuality where
  | none
  | approximate
  | exact
deriving DecidableEq, Repr

namespace SolutionQuality

def label : SolutionQuality → String
  | none => "NONE"
  | approximate => "APPROXIMATE"
  | exact => "EXACT"

instance : Enumeration SolutionQuality where
  title := "SolutionQuality"
  members := [.none, .approximate, .exact]
  label := label
  code q := .word q.label

end SolutionQuality

inductive SimplexAlgorithm where
  | primal
  | dual
deriving DecidableEq, Repr

namespace SimplexAlgorithm

def label : SimplexAlgorithm → String
  | primal => "PRIMAL"
  | dual => "DUAL"

instance : Enumeration SimplexAlgorithm where
  title := "SimplexAlgorithm"
  members := [.primal, .dual]
  label := label
  code a := .word a.label

end SimplexAlgorithm

namespace Verdict

/-- The class of a verdict; the flags say whether both phases are primal and whether the program is mixed. -/
def linearResult (primal mixed : Bool) : Verdict → LinearResult
  | optimal => .optimal
  | infeasible => if primal then .infeasiblePrimal else .infeasibleOrUnbounded
  | unbounded => if mixed then .invalid else if primal then .unboundedPrimal else .unboundedDual
  | _ => .invalid

/-- How far the values found with a verdict can be trusted. -/
def quality : Verdict → SolutionQuality
  | optimal => .approximate
  | _ => .none

variable {R : Type} [Scalar R]

/-- The class of what is given as a verdict and as a simplex type. What is neither a verdict nor the number of one
has no class. -/
def linearResultOf (verdict simplex mixed : Value R) : Except Fault LinearResult :=
  if !verdict.isKey then .error .wrongKind
  else match verdict.toMember? Verdict with
    | some v => .ok (v.linearResult (simplex.names SimplexType.primalPrimal) mixed.truth)
    | none => .ok .invalid

/-- How far the values found with what is given as a verdict can be trusted. -/
def qualityOf (verdict : Value R) : SolutionQuality :=
  match verdict.toMember? Verdict with
  | some v => v.quality
  | none => .none

end Verdict

end Optima
