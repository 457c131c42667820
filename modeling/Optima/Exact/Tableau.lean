/-!
# Tableaus

A linear program with bounds on its variables and on its rows, in exact arithmetic. The variables of a tableau are
the columns of the program, numbered from zero, and after them the activities of its rows. At any time as many
variables as there are rows are basic: they are linear combinations of the other ones, and the point moves as the
nonbasic ones are moved.
-/

namespace Optima.Exact

/-- The bounds of a variable; a missing one is no bound. -/
structure Bounds where
  lower : Option Rat
  upper : Option Rat
deriving DecidableEq, Repr, Inhabited

namespace Bounds

/-- Whether a number is below the lower bound. -/
def isAbove (b : Bounds) (x : Rat) : Bool :=
  b.lower.any (x < ·)

/-- Whether a number is above the upper bound. -/
def isBelow (b : Bounds) (x : Rat) : Bool :=
  b.upper.any (· < x)

/-- Whether no number lies between the bounds. -/
def isEmpty (b : Bounds) : Bool :=
  b.lower.any b.isBelow

/-- Whether a number may grow within the bounds. -/
def allowsMore (b : Bounds) (x : Rat) : Bool :=
  b.upper.all (x < ·)

/-- Whether a number may shrink within the bounds. -/
def allowsLess (b : Bounds) (x : Rat) : Bool :=
  b.lower.all (· < x)

/-- Whether the two bounds are the same number. -/
def isFixed (b : Bounds) : Bool :=
  b.lower.isSome && b.lower == b.upper

/-- The number a variable with these bounds starts from. -/
def start (b : Bounds) : Rat :=
  (b.lower.or b.upper).getD 0

/-- The numbers that two pairs of bounds allow. -/
def meet (a b : Bounds) : Bounds where
  lower := match a.lower, b.lower with
    | some x, some y => some (if x ≤ y then y else x)
    | x, y => x.or y
  upper := match a.upper, b.upper with
    | some x, some y => some (if x ≤ y then x else y)
    | x, y => x.or y

end Bounds

/-- A linear program: the bounds and the cost of each column, and the bounds and the coefficients of each row. -/
structure Problem where
  columns : List Bounds
  costs : List Rat
  rows : List (Bounds × List (Nat × Rat))
deriving Repr

structure Tableau where
  /-- The bounds of the variables. -/
  bounds : Array Bounds
  /-- The basic variables. -/
  basic : Array Nat
  /-- The nonbasic variables. -/
  nonbasic : Array Nat
  /-- The basic variables as combinations of the nonbasic ones. -/
  matrix : Array (Array Rat)
  /-- The values of the variables. -/
  point : Array Rat
deriving Repr

namespace Tableau

/-- The coefficient of a nonbasic variable in a basic one, by their places. -/
def coefficient (t : Tableau) (i k : Nat) : Rat :=
  (t.matrix.getD i #[]).getD k 0

def boundsOf (t : Tableau) (v : Nat) : Bounds :=
  t.bounds.getD v default

def valueOf (t : Tableau) (v : Nat) : Rat :=
  t.point.getD v 0

def basicAt (t : Tableau) (i : Nat) : Nat :=
  t.basic.getD i 0

def nonbasicAt (t : Tableau) (k : Nat) : Nat :=
  t.nonbasic.getD k 0

/-- The tableau in which the rows are basic and the columns stand at the given values. -/
def ofStarts (p : Problem) (starts : List Rat) : Tableau :=
  let n := p.columns.length
  let activity (terms : List (Nat × Rat)) : Rat := (terms.map fun (j, a) => a * starts.getD j 0).foldl (· + ·) 0
  { bounds := (p.columns ++ p.rows.map Prod.fst).toArray
    basic := ((List.range p.rows.length).map (n + ·)).toArray
    nonbasic := (List.range n).toArray
    matrix := (p.rows.map fun (_, terms) =>
      ((List.range n).map fun j => (terms.lookup j).getD 0).toArray).toArray
    point := (starts ++ p.rows.map (activity ∘ Prod.snd)).toArray }

/-- The tableau in which the rows are basic and the columns stand at their starts. -/
def ofProblem (p : Problem) : Tableau :=
  ofStarts p (p.columns.map Bounds.start)

/-- Moves a nonbasic variable, and the basic ones with it. -/
def move (t : Tableau) (k : Nat) (step : Rat) : Tableau :=
  let start := t.point.modify (t.nonbasicAt k) (· + step)
  let follow (p : Array Rat) (i : Nat) := p.modify (t.basicAt i) (· + t.coefficient i k * step)
  { t with point := (List.range t.basic.size).foldl follow start }

/-- The row of a variable that becomes basic in place of another one. -/
def pivotRow (row : Array Rat) (k : Nat) : Array Rat :=
  let a := row.getD k 1
  row.mapIdx fun j x => if j = k then 1 / a else -x / a

/-- Another row after a pivot, with `pivot` the row of the variable that became basic. -/
def eliminate (pivot row : Array Rat) (k : Nat) : Array Rat :=
  let c := row.getD k 0
  row.mapIdx fun j x => if j = k then c * pivot.getD k 0 else x + c * pivot.getD j 0

/-- Exchanges a basic and a nonbasic variable. -/
def pivot (t : Tableau) (i k : Nat) : Tableau :=
  let row := pivotRow (t.matrix.getD i #[]) k
  { t with
    basic := t.basic.setIfInBounds i (t.nonbasicAt k)
    nonbasic := t.nonbasic.setIfInBounds k (t.basicAt i)
    matrix := t.matrix.mapIdx fun r old => if r = i then row else eliminate row old k }

/-- The cost of moving each nonbasic variable by one, `costs` being those of the columns. -/
def reducedCosts (t : Tableau) (costs : Array Rat) : Array Rat :=
  t.nonbasic.mapIdx fun k v =>
    (List.range t.basic.size).foldl (fun d i => d + costs.getD (t.basicAt i) 0 * t.coefficient i k)
      (costs.getD v 0)

end Tableau

end Optima.Exact
