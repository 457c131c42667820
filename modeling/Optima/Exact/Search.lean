import Optima.Exact.Dual
import Optima.Search.Program

/-!
# An exact search

A program is solved by branching: whenever the linear program without integrality and sets has a solution that breaks
one of them, two smaller programs exclude it between them. Branches whose linear program is no better than the best
point so far are dropped. A program with integrality or sets has its bounds tightened before, and is then solved within
the tolerance: a column counts as whole when it is that near to a whole number, and as zero when it is that near to it.
-/

namespace Optima.Exact

open Search (Program Outcome)

variable {R : Type} [Scalar R]

/-- A scalar as a bound; infinities are none. -/
def bound? (x : R) : Option Rat :=
  match Scalar.exact x with
  | .rat q => some q
  | _ => none

/-- A finite scalar as a number. -/
def number (x : R) : Rat :=
  (bound? x).getD 0

def rowBounds (r : Search.Row R) : Bounds :=
  match r.sense with
  | .atMost => ⟨none, bound? r.rhs⟩
  | .atLeast => ⟨bound? r.rhs, none⟩
  | .equal => ⟨bound? r.rhs, bound? r.rhs⟩

/-- Terms with columns counted from zero. -/
def terms (ts : List (Nat × R)) : List (Nat × Rat) :=
  ts.map fun (col, x) => (col - 1, number x)

/-- The linear program of a program; costs are lowered. -/
def relaxation (p : Program R) : Problem where
  columns := p.columns.map fun c => ⟨bound? c.lower, bound? c.upper⟩
  costs :=
    let objective := terms p.objective
    (List.range p.columns.length).map fun j =>
      let c := (objective.lookup j).getD 0
      if p.maximize then -c else c
  rows := p.rows.map fun r => (rowBounds r, terms r.terms)

/-- The columns of a set in the order of their weights, and how many neighbours among them may differ from zero. -/
structure Ordered where
  columns : List Nat
  width : Nat
deriving Repr

def Ordered.ofSet (s : Search.OrderedSet R) : Ordered where
  columns := ((s.terms.map fun (col, w) => (col - 1, number w)).mergeSort fun a b => decide (a.2 ≤ b.2)).map Prod.fst
  width := s.kind.toNat

/-- A restriction of some columns. -/
abbrev Cut := List (Nat × Bounds)

def zeroCut (columns : List Nat) : Cut :=
  columns.map (·, ⟨some 0, some 0⟩)

def Problem.cut (p : Problem) (c : Cut) : Problem :=
  { p with columns := p.columns.mapIdx fun j b =>
      (c.filter (·.1 == j)).foldl (fun b (_, more) => b.meet more) b }

/-- The whole number next to a number. -/
def nearestWhole (x : Rat) : Rat :=
  (x + 1 / 2).floor

/-- Whether a number counts as zero. -/
def isNearZero (x : Rat) : Bool :=
  size x ≤ tolerance

/-- The two branches that exclude a point between them, if it breaks the integrality of a column. -/
def integerBranches? (integers : List Nat) (point : Nat → Rat) : Option (Cut × Cut) :=
  (integers.find? fun j => !isNearZero (point j - nearestWhole (point j))).map fun j =>
    let below : Rat := (point j).floor
    ([(j, ⟨none, some below⟩)], [(j, ⟨some (below + 1), none⟩)])

/-- The two branches that exclude a point between them, if it breaks a set: nonzero columns have to stay on one side
of a place between the first and the last of them. -/
def Ordered.branches? (s : Ordered) (point : Nat → Rat) : Option (Cut × Cut) :=
  let places := (List.range s.columns.length).filter fun i => !isNearZero (point (s.columns.getD i 0))
  match places.head?, places.getLast? with
  | some first, some last =>
    if last - first < s.width then none
    else
      let middle := (first + last) / 2
      let left := if s.width = 1 then middle + 1 else max (first + 1) middle
      let right := if s.width = 1 then middle + 1 else left + 1
      some (zeroCut (s.columns.take left), zeroCut (s.columns.drop right))
  | _, _ => none

/-- What is to be searched: a linear program, its integer columns and its sets. -/
structure Task where
  problem : Problem
  integers : List Nat
  sets : List Ordered
deriving Repr

/-- The two branches that exclude a point between them, if there is something it breaks. -/
def Task.branches? (t : Task) (point : Nat → Rat) : Option (Cut × Cut) :=
  (integerBranches? t.integers point).or (t.sets.findSome? fun s => s.branches? point)

/-- What has become of a search. -/
inductive Found where
  | nothing
  | unbounded
  | best (cost : Rat) (t : Tableau)
deriving Repr

def Problem.cost (p : Problem) (t : Tableau) : Rat :=
  (p.costs.mapIdx fun j c => c * t.valueOf j).foldl (· + ·) 0

/-- Searches a task; `best` is the best that has been found before. -/
def Task.search : (depth : Nat) → Task → Found → Found
  | 0, _, best => best
  | depth + 1, t, best =>
    match t.problem.solveNearly with
    | .infeasible => best
    | .unbounded => .unbounded
    | .optimal tableau =>
      let cost := t.problem.cost tableau
      let worse := match best with
        | .nothing => false
        | .unbounded => true
        | .best least _ => least ≤ cost
      if worse then best
      else match t.branches? tableau.valueOf with
        | none => .best cost tableau
        | some (left, right) =>
          let best := Task.search depth { t with problem := t.problem.cut left } best
          Task.search depth { t with problem := t.problem.cut right } best

/-- How deep a search may branch. -/
def maxDepth : Nat := 10000

def integerColumns (p : Program R) : List Nat :=
  (List.range p.columns.length).filter fun j => (p.columns[j]?).any Column.integer

/-- Tightens the bounds of a task. A linear program is left as it is. -/
def Task.tighten (t : Task) : Task :=
  if t.integers.isEmpty && t.sets.isEmpty then t else { t with problem := t.problem.tighten t.integers }

def task (p : Program R) : Task where
  problem := relaxation p
  integers := integerColumns p
  sets := p.sets.map Ordered.ofSet

/-- The value of a column at the point of a tableau; integer columns have whole values. -/
def Task.valueOf (t : Task) (tableau : Tableau) (j : Nat) : Rat :=
  let x := tableau.valueOf j
  if t.integers.contains j then nearestWhole x else x

/-- An outcome that took no time and has no point. -/
def outcome (status : Search.Status) : Outcome R :=
  ⟨Scalar.zero, none, status, [], none⟩

/-- What has become of a task. Without a lowest cost of its linear program there is nothing to search for. -/
def Task.run (t : Task) : Found :=
  match t.problem.solve with
  | .unbounded => .unbounded
  | _ => t.tighten.search maxDepth .nothing

/-- The outcome of a program. A program without columns has no proper one. -/
def answer (p : Program R) : Outcome R :=
  if p.columns.isEmpty then outcome .other
  else match (task p).run with
    | .nothing => outcome .infeasible
    | .unbounded => outcome .unbounded
    | .best cost t =>
      { outcome .optimal with
        point := (List.range p.columns.length).map fun j => some (Scalar.ofRat ((task p).valueOf t j))
        bound := some (Scalar.ofRat (if p.maximize then -cost else cost)) }

end Optima.Exact
