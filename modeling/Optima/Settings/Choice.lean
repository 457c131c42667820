import Optima.Value.Enumeration

/-!
# Choices among settings

The enumerations that settings of an engine are taken from: which simplex algorithm runs in the two phases, which
branch is searched first, and how much is reported.
-/

namespace Optima

/-- The simplex algorithms of the first and the second phase. -/
inductive SimplexType where
  | primalPrimal
  | dualPrimal
  | primalDual
  | dualDual
deriving DecidableEq, Repr

instance : Enumeration SimplexType where
  title := "SimplexType"
  members := [.primalPrimal, .dualPrimal, .primalDual, .dualDual]
  label
    | .primalPrimal => "PRIMAL_PRIMAL"
    | .dualPrimal => "DUAL_PRIMAL"
    | .primalDual => "PRIMAL_DUAL"
    | .dualDual => "DUAL_DUAL"
  code
    | .primalPrimal => .number 5
    | .dualPrimal => .number 6
    | .primalDual => .number 9
    | .dualDual => .number 10

/-- Whether the second phase is the primal algorithm. -/
def SimplexType.endsPrimal : SimplexType → Bool
  | .primalPrimal | .dualPrimal => true
  | .primalDual | .dualDual => false

/-- Which branch a search takes first. -/
inductive BranchMode where
  | ceiling
  | floor
  | automatic
  | default
deriving DecidableEq, Repr

instance : Enumeration BranchMode where
  title := "BranchMode"
  members := [.ceiling, .floor, .automatic, .default]
  label
    | .ceiling => "CEILING"
    | .floor => "FLOOR"
    | .automatic => "AUTOMATIC"
    | .default => "DEFAULT"
  code
    | .ceiling => .number 0
    | .floor => .number 1
    | .automatic => .number 2
    | .default => .number 3

/-- How much an engine reports. -/
inductive Verbosity where
  | neutral
  | critical
  | severe
  | important
  | normal
  | detailed
  | full
deriving DecidableEq, Repr

instance : Enumeration Verbosity where
  title := "Verbosity"
  members := [.neutral, .critical, .severe, .important, .normal, .detailed, .full]
  label
    | .neutral => "NEUTRAL"
    | .critical => "CRITICAL"
    | .severe => "SEVERE"
    | .important => "IMPORTANT"
    | .normal => "NORMAL"
    | .detailed => "DETAILED"
    | .full => "FULL"
  code
    | .neutral => .number 0
    | .critical => .number 1
    | .severe => .number 2
    | .important => .number 3
    | .normal => .number 4
    | .detailed => .number 5
    | .full => .number 6

end Optima
