import Optima.Value.Basic

/-!
# Programs for the search

What the search is given: columns with bounds and integrality, rows with one right-hand side each, an objective and
special-ordered sets. Terms name columns by their numbers, counted from one. A program does not say how an answer is
found; that is the business of a source of outcomes.
-/

namespace Optima

/-- A column: the bounds of a variable, and whether it is integer. -/
structure Column (R : Type) where
  name : String
  lower : R
  upper : R
  integer : Bool
deriving DecidableEq, Repr

namespace Search

/-- How the activity of a row stands to its right-hand side. -/
inductive Sense where
  | atMost
  | atLeast
  | equal
deriving DecidableEq, Repr

structure Row (R : Type) where
  name : String
  sense : Sense
  rhs : R
  terms : List (Nat × R)
deriving DecidableEq, Repr

/-- A special-ordered set: its columns with their weights. -/
structure OrderedSet (R : Type) where
  kind : Int
  terms : List (Nat × R)
deriving DecidableEq, Repr

structure Program (R : Type) where
  columns : List (Column R)
  rows : List (Row R)
  maximize : Bool
  objective : List (Nat × R)
  sets : List (OrderedSet R)
deriving DecidableEq, Repr

def Program.empty {R : Type} : Program R := ⟨[], [], false, [], []⟩

/-- The simplex algorithm a search is told to use. -/
inductive Method where
  | auto
  | primal
  | dual
deriving DecidableEq, Repr

def Method.name : Method → String
  | auto => "AUTO"
  | primal => "PRIMAL"
  | dual => "DUAL"

/-- What a search is told beside the program. -/
structure Knobs (R : Type) where
  verbose : Bool
  integerTolerance : Value R
  gapAbsolute : Value R
  gapRelative : Value R
  preprocess : Bool
  method : Method
  cutoff : Option (Value R)
deriving Repr

/-- The knobs of a search that has been told nothing. -/
def Knobs.start {R : Type} [Scalar R] : Knobs R where
  verbose := true
  integerTolerance := .real (Scalar.decimal 1 (-6))
  gapAbsolute := .real (Scalar.decimal 1 (-10))
  gapRelative := .real (Scalar.decimal 1 (-4))
  preprocess := true
  method := .auto
  cutoff := none

/-- A point given as the values of some columns. -/
abbrev Start (R : Type) := List (Nat × R)

/-- A search with its program, its knobs and the point it starts from. The serial number tells searches apart. -/
structure Model (R : Type) where
  serial : Nat
  program : Program R
  knobs : Knobs R
  start : Option (Start R)
deriving Repr

/-- How a search ended. -/
inductive Status where
  | error
  | optimal
  | infeasible
  | unbounded
  | feasible
  | integerInfeasible
  | noSolutionFound
  | loaded
  | cutoff
  | infeasibleOrUnbounded
  | truncated
  | other
deriving DecidableEq, Repr

namespace Status

def all : List Status := [
  error, optimal, infeasible, unbounded, feasible, integerInfeasible, noSolutionFound, loaded, cutoff,
  infeasibleOrUnbounded, truncated, other]

def name : Status → String
  | error => "ERROR"
  | optimal => "OPTIMAL"
  | infeasible => "INFEASIBLE"
  | unbounded => "UNBOUNDED"
  | feasible => "FEASIBLE"
  | integerInfeasible => "INT_INFEASIBLE"
  | noSolutionFound => "NO_SOLUTION_FOUND"
  | loaded => "LOADED"
  | cutoff => "CUTOFF"
  | infeasibleOrUnbounded => "INF_OR_UNBD"
  | truncated => "TRUNCATED"
  | other => "OTHER"

/-- Whether a search that ended so has a point to show. -/
def hasPoint : Status → Bool
  | optimal | feasible => true
  | _ => false

/-- Whether a search that ended so would go on with more time. -/
def interrupted : Status → Bool
  | feasible | noSolutionFound => true
  | _ => false

end Status

/-- One answer of a search: the time it took, and how it ended with the values it found, or a failure. -/
structure Outcome (R : Type) where
  seconds : R
  failure : Option String
  status : Status
  /-- The values of the first columns; a column may have none. -/
  point : List (Option R)
  bound : Option R
deriving Repr

/-- The values of the first `count` columns, if each has one. -/
def Outcome.values? {R : Type} (o : Outcome R) (count : Nat) : Option (List R) :=
  (List.range count).mapM fun i => (o.point[i]?).join

/-- What a search is asked for: the search as it stands, how long it may take, and how many points it may find. -/
structure Request (R : Type) where
  search : Model R
  budget : R
  pointLimit : Nat
deriving Repr

/-- Where the outcomes of searches come from: they are given beforehand, or each program has its own. -/
inductive Source (R : Type) where
  | script (outcomes : List (Outcome R))
  | solver (answer : Program R → Outcome R)

namespace Source

variable {R : Type}

def outcomes (source : Source R) (program : Program R) : List (Outcome R) :=
  match source with
  | script outcomes => outcomes
  | solver answer => [answer program]

/-- The source when the first outcome has been used. -/
def next : Source R → Source R
  | script outcomes => script outcomes.tail
  | solver answer => solver answer

end Source

end Search

end Optima
