import Optima.Exact.Tableau

/-!
# The simplex algorithm

A linear program is solved in two phases. The first one mends one bound after the other until the point is feasible,
the second one lowers the cost. Wherever there is a choice, the variable with the least number is taken, so no basis
comes back and the number of bases bounds the number of steps.
-/

namespace Optima.Exact

/-- What has become of a linear program. -/
inductive Solved where
  | infeasible
  | unbounded
  | optimal (t : Tableau)
deriving Repr

def leastNumber (candidates : List (Nat × Nat)) : Option Nat :=
  (candidates.foldl (fun best (place, number) =>
    match best with
    | none => some (place, number)
    | some (p, n) => if number < n then some (place, number) else some (p, n)) none).map Prod.fst

/-- The places of an array whose entries have a property, with the entries. -/
def placesWhere (xs : Array Nat) (p : Nat → Nat → Bool) : List (Nat × Nat) :=
  (List.range xs.size).filterMap fun i =>
    match xs[i]? with
    | some v => if p i v then some (i, v) else none
    | none => none

namespace Tableau

/-- The place of a basic variable that is out of its bounds. -/
def violated? (t : Tableau) : Option Nat :=
  leastNumber (placesWhere t.basic fun _ v =>
    (t.boundsOf v).isAbove (t.valueOf v) || (t.boundsOf v).isBelow (t.valueOf v))

/-- Whether a nonbasic variable may be moved so that something with this slope in it grows. -/
def mayRaise (t : Tableau) (slope : Rat) (v : Nat) : Bool :=
  (0 < slope && (t.boundsOf v).allowsMore (t.valueOf v)) || (slope < 0 && (t.boundsOf v).allowsLess (t.valueOf v))

/-- How far a basic variable is from the bounds it is out of. -/
def gap (t : Tableau) (v : Nat) : Rat :=
  let b := t.boundsOf v
  let x := t.valueOf v
  if b.isAbove x then b.lower.getD x - x else b.upper.getD x - x

/-- Brings the basic variables into their bounds; nothing if there is no feasible point. -/
def mend : (fuel : Nat) → Tableau → Option Tableau
  | 0, _ => none
  | fuel + 1, t =>
    match t.violated? with
    | none => some t
    | some i =>
      let gap := t.gap (t.basicAt i)
      match leastNumber (placesWhere t.nonbasic fun k v => t.mayRaise (gap * t.coefficient i k) v) with
      | none => none
      | some k => mend fuel ((t.move k (gap / t.coefficient i k)).pivot i k)

/-- How far a variable may go in a direction with a speed, if there is a limit. -/
def room (t : Tableau) (v : Nat) (speed : Rat) : Option Rat :=
  let b := t.boundsOf v
  let x := t.valueOf v
  if 0 < speed then b.upper.map fun u => (u - x) / speed
  else if speed < 0 then b.lower.map fun l => (l - x) / speed
  else none

/-- The basic variable that stops a nonbasic one first, by its place, and how far that is. -/
def blocking? (t : Tableau) (k : Nat) (direction : Rat) : Option (Nat × Rat) :=
  (List.range t.basic.size).foldl (fun best i =>
    match t.room (t.basicAt i) (direction * t.coefficient i k), best with
    | none, _ => best
    | some r, none => some (i, r)
    | some r, some (j, s) =>
      if r < s || (r == s && t.basicAt i < t.basicAt j) then some (i, r) else best) none

def lower (costs : Array Rat) : (fuel : Nat) → Tableau → Solved
  | 0, t => .optimal t
  | fuel + 1, t =>
    let d := t.reducedCosts costs
    match leastNumber (placesWhere t.nonbasic fun k v => t.mayRaise (-d.getD k 0) v) with
    | none => .optimal t
    | some k =>
      let direction : Rat := if d.getD k 0 < 0 then 1 else -1
      match t.blocking? k direction, t.room (t.nonbasicAt k) direction with
      | none, none => .unbounded
      | none, some own => lower costs fuel (t.move k (direction * own))
      | some (i, r), none => lower costs fuel ((t.move k (direction * r)).pivot i k)
      | some (i, r), some own =>
        if own ≤ r then lower costs fuel (t.move k (direction * own))
        else lower costs fuel ((t.move k (direction * r)).pivot i k)

end Tableau

/-- A bound on the number of steps: every variable is basic, or at its one bound, or at the other. -/
def Problem.steps (p : Problem) : Nat :=
  Nat.pow 3 (p.columns.length + p.rows.length) + 1

/-- Solves a linear program. -/
def Problem.solve (p : Problem) : Solved :=
  if p.columns.any Bounds.isEmpty || p.rows.any (·.1.isEmpty) then .infeasible
  else match (Tableau.ofProblem p).mend p.steps with
    | none => .infeasible
    | some t => t.lower p.costs.toArray p.steps

end Optima.Exact
