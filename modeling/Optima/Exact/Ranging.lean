import Optima.Exact.Search
import Optima.Ranging.Problem

/-!
# Exact ranging

The duals of the optimal basis of a linear program, and how far costs and binding sides may move before another basis
becomes optimal.
-/

namespace Optima.Exact

variable {R : Type} [Scalar R]

/-- The linear program of a ranging problem; costs are lowered. -/
def rangingProblem (p : Ranging.Problem R) : Problem where
  columns := p.columns.map fun c => ⟨bound? c.lower, bound? c.upper⟩
  costs := p.columns.map fun c => if p.maximize then -number c.cost else number c.cost
  rows := p.rows.map fun r =>
    (⟨bound? r.lower, bound? r.upper⟩, r.terms.map fun (j, x) => (j, number x))

/-- The common part of intervals. -/
def meetAll (intervals : List Bounds) : Bounds :=
  intervals.foldl Bounds.meet ⟨none, none⟩

namespace Tableau

def nonbasicPlace? (t : Tableau) (v : Nat) : Option Nat :=
  t.nonbasic.findIdx? (· == v)

def basicPlace? (t : Tableau) (v : Nat) : Option Nat :=
  t.basic.findIdx? (· == v)

/-- The reduced cost of a variable; that of a basic one is zero. -/
def reducedCost (t : Tableau) (costs : Array Rat) (v : Nat) : Rat :=
  ((t.nonbasicPlace? v).map fun k => (t.reducedCosts costs).getD k 0).getD 0

/-- How far a basic variable lets a nonbasic one move. -/
def roomOf (t : Tableau) (i k : Nat) : Bounds :=
  let v := t.basicAt i
  ⟨(t.room v (-t.coefficient i k)).map (- ·), t.room v (t.coefficient i k)⟩

/-- How far a nonbasic variable may move until a basic one reaches a bound, or itself its other bound. -/
def moveRange (t : Tableau) (k : Nat) : Bounds :=
  let v := t.nonbasicAt k
  let own : Bounds :=
    if (t.boundsOf v).isFixed then ⟨none, none⟩
    else if (t.boundsOf v).allowsMore (t.valueOf v) then ⟨none, t.room v 1⟩
    else ⟨(t.room v (-1)).map (- ·), none⟩
  meetAll (own :: (List.range t.basic.size).map fun i => t.roomOf i k)

/-- The interval of a value around which it may move. -/
def around (x : Rat) (b : Bounds) : Bounds :=
  ⟨b.lower.map (x + ·), b.upper.map (x + ·)⟩

/-- The values a nonbasic variable may take while the basis stays as it is. A basic variable has its bounds. -/
def valueRange (t : Tableau) (v : Nat) : Bounds :=
  match t.nonbasicPlace? v with
  | some k => around (t.valueOf v) (t.moveRange k)
  | none => t.boundsOf v

/-- How much of `slope` may be added to a reduced cost before it changes its sign. A variable that cannot move has no
such limit. -/
def slopeRange (t : Tableau) (v : Nat) (d slope : Rat) : Bounds :=
  let b := t.boundsOf v
  if b.isFixed || slope = 0 then ⟨none, none⟩
  else
    let edge := some (-d / slope)
    if b.allowsMore (t.valueOf v) == decide (0 < slope) then ⟨edge, none⟩ else ⟨none, edge⟩

/-- How far the cost of a column may move while the point stays optimal. -/
def costMoves (t : Tableau) (costs : Array Rat) (j : Nat) : Bounds :=
  let d := t.reducedCosts costs
  match t.basicPlace? j with
  | some i => meetAll ((List.range t.nonbasic.size).map fun k =>
      t.slopeRange (t.nonbasicAt k) (d.getD k 0) (t.coefficient i k))
  | none => t.slopeRange j (t.reducedCost costs j) 1

end Tableau

def lowerLimit (x : Option Rat) : R :=
  (x.map Scalar.ofRat).getD (-Scalar.infinity)

def upperLimit (x : Option Rat) : R :=
  (x.map Scalar.ofRat).getD Scalar.infinity

/-- An interval of numbers, the other way round when costs are the negatives of what is asked for. -/
def flip (maximize : Bool) (b : Bounds) : Bounds :=
  if maximize then ⟨b.upper.map (- ·), b.lower.map (- ·)⟩ else b

/-- An answer without values. -/
def failure (status : Ranging.Status) : Ranging.Answer R :=
  ⟨none, status, none, ⟨[], []⟩, ⟨[], []⟩, ⟨[], []⟩, [], []⟩

/-- Values for the rows and the columns of a problem, whose variables are numbered columns first. -/
def valuesOf (p : Ranging.Problem R) (f : Nat → R) : Ranging.Values R where
  rows := (List.range p.rows.length).map fun i => f (p.columns.length + i)
  columns := (List.range p.columns.length).map f

/-- The duals of a linear program, and the limits between which they and the costs stay as they are. -/
def ranging (p : Ranging.Problem R) : Ranging.Answer R :=
  let problem := rangingProblem p
  match problem.solve with
  | .infeasible => failure .infeasible
  | .unbounded => failure .unbounded
  | .optimal t =>
    let costs := problem.costs.toArray
    let costRange (j : Nat) : Bounds := flip p.maximize (Tableau.around (costs.getD j 0) (t.costMoves costs j))
    { failure := none
      status := .optimal
      iterations := none
      duals := valuesOf p fun v =>
        let d := t.reducedCost costs v
        Scalar.ofRat (if p.maximize then -d else d)
      lowers := valuesOf p fun v => lowerLimit (t.valueRange v).lower
      uppers := valuesOf p fun v => upperLimit (t.valueRange v).upper
      costLowers := (List.range p.columns.length).map fun j => lowerLimit (costRange j).lower
      costUppers := (List.range p.columns.length).map fun j => upperLimit (costRange j).upper }

end Optima.Exact
