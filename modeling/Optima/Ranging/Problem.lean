import Optima.Value.Basic

/-!
# Linear programs for ranging

What the ranging pass is given, a linear program with two-sided rows, and what it gives back: duals and reduced costs,
and for each the limits between which it stays. Columns are counted from zero.
-/

namespace Optima.Ranging

structure Column (R : Type) where
  lower : R
  upper : R
  cost : R
deriving Repr

structure Row (R : Type) where
  lower : R
  upper : R
  terms : List (Nat × R)
deriving Repr

structure Problem (R : Type) where
  columns : List (Column R)
  maximize : Bool
  rows : List (Row R)
deriving Repr

/-- How a ranging pass ended. -/
inductive Status where
  | optimal
  | infeasible
  | unbounded
  | unboundedOrInfeasible
  | timeLimit
  | notSet
  | modelEmpty
deriving DecidableEq, Repr

namespace Status

def text : Status → String
  | optimal => "Optimal"
  | infeasible => "Infeasible"
  | unbounded => "Unbounded"
  | unboundedOrInfeasible => "Primal infeasible or unbounded"
  | timeLimit => "Time limit reached"
  | notSet => "Not Set"
  | modelEmpty => "Empty"

end Status

/-- A value for each row and each column. -/
structure Values (R : Type) where
  rows : List R
  columns : List R
deriving Repr

/-- The answer of a ranging pass, or the words in which it failed. -/
structure Answer (R : Type) where
  failure : Option String
  status : Status
  /-- The number of simplex iterations, if it was counted. -/
  iterations : Option Int
  duals : Values R
  lowers : Values R
  uppers : Values R
  costLowers : List R
  costUppers : List R
deriving Repr

/-- A step of handing a problem over. -/
inductive Call (R : Type) where
  | silence
  | addColumns (columns : List (Column R))
  | setCosts (columns : List (Column R))
  | maximize
  | addRow (row : Row R)
  | run
deriving Repr

/-- The steps of handing a problem over and having it solved. -/
def Problem.calls {R : Type} (p : Problem R) : List (Call R) :=
  [.addColumns p.columns, .setCosts p.columns] ++ (if p.maximize then [.maximize] else [])
    ++ p.rows.map .addRow ++ [.run]

end Optima.Ranging
