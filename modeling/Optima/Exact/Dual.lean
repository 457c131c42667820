import Optima.Exact.Simplex
import Optima.Exact.Tightening

/-!
# The dual simplex algorithm

The columns start at the bounds that their costs favour, and the rows are brought into their bounds one after the
other, each time by the nonbasic variable that costs least. A variable that misses a bound by no more than its leeway
counts as within its bounds. When tightening has stopped short of the point that two rows meet in, the columns thus
stay at the bounds it has reached.
-/

namespace Optima.Exact

def Bounds.favoured? (b : Bounds) (cost : Rat) : Option Rat :=
  if 0 < cost then b.lower else if cost < 0 then b.upper else some b.start

namespace Tableau

/-- The place of a basic variable that misses its bounds by more than its leeway. -/
def missing? (t : Tableau) (leeway : Array Rat) : Option Nat :=
  leastNumber (placesWhere t.basic fun _ v =>
    let b := t.boundsOf v
    let e := leeway.getD v 0
    b.isAbove (t.valueOf v + e) || b.isBelow (t.valueOf v - e))

/-- The one of two places whose ratio is smaller, the first one when they are equal. -/
def cheaper (best : Option (Nat × Rat)) (place : Nat) (ratio : Rat) : Option (Nat × Rat) :=
  match best with
  | some (p, least) => if ratio < least then some (place, ratio) else some (p, least)
  | none => some (place, ratio)

/-- The nonbasic variable that closes the gap of a basic one at the least cost, by its place; among equals the one
with the least number. -/
def entering? (t : Tableau) (costs : Array Rat) (i : Nat) (gap : Rat) : Option Nat :=
  let d := t.reducedCosts costs
  let candidates := placesWhere t.nonbasic fun k v => t.mayRaise (gap * t.coefficient i k) v
  let ordered := candidates.mergeSort fun a b => decide (a.2 ≤ b.2)
  (ordered.foldl (fun best (k, _) => cheaper best k (size (d.getD k 0 / t.coefficient i k))) none).map Prod.fst

/-- Brings the basic variables into their bounds and keeps the cost as low as it can be. -/
def raise (costs leeway : Array Rat) : (fuel : Nat) → Tableau → Solved
  | 0, t => .optimal t
  | fuel + 1, t =>
    match t.missing? leeway with
    | none => .optimal t
    | some i =>
      let gap := t.gap (t.basicAt i)
      match t.entering? costs i gap with
      | none => .infeasible
      | some k => raise costs leeway fuel ((t.move k (gap / t.coefficient i k)).pivot i k)

end Tableau

namespace Problem

/-- By how much a variable may miss its bounds: a column by the tolerance, and a row by as much as that makes for the
column with the greatest coefficient. -/
def leeway (p : Problem) : Array Rat :=
  let ofRow (terms : List (Nat × Rat)) : Rat :=
    tolerance * terms.foldl (fun most (_, a) => if most ≤ size a then size a else most) 0
  (p.columns.map (fun _ => tolerance) ++ p.rows.map (ofRow ∘ Prod.snd)).toArray

/-- The bounds that the costs favour, if each column has one. -/
def favoured? (p : Problem) : Option (List Rat) :=
  (p.columns.zip p.costs).mapM fun (b, c) => b.favoured? c

/-- Solves a linear program from the bounds that the costs favour, within the leeway of its variables. A program that
has no such bounds is solved in two phases. -/
def solveNearly (p : Problem) : Solved :=
  if p.columns.any Bounds.isEmpty || p.rows.any (·.1.isEmpty) then .infeasible
  else match p.favoured? with
    | none => p.solve
    | some starts => (Tableau.ofStarts p starts).raise p.costs.toArray p.leeway p.steps

end Problem

end Optima.Exact
