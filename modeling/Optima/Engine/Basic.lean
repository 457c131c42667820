import Optima.Host.Basic
import Optima.Settings.Setting

/-!
# Engines

An engine holds a program in columns and rows, both counted from one. A column has bounds and may be integer; a row
has a relation, a right-hand side, and perhaps a range that closes its other side. There is one objective and any
number of special-ordered sets. Beside the program an engine has settings, observers, the results of its last solve,
and the search it last handed its program to.

Numbers whose size is that of the sentinel or more count as infinite. Inside an engine they are infinities; towards
the caller the infinities are the sentinel with their signs.
-/

namespace Optima

/-- How the activity of a row stands to its right-hand side. A free row is not limited at all. -/
inductive Relation where
  | free
  | atMost
  | atLeast
  | equal
deriving DecidableEq, Repr

instance : Enumeration Relation where
  title := "ConstraintType"
  members := [.free, .atMost, .atLeast, .equal]
  label
    | .free => "FR"
    | .atMost => "LE"
    | .atLeast => "GE"
    | .equal => "EQ"
  code
    | .free => .number 0
    | .atMost => .number 1
    | .atLeast => .number 2
    | .equal => .number 3

/-- How a solve ended. -/
inductive Verdict where
  | unknownError
  | noMemory
  | notRun
  | optimal
  | suboptimal
  | infeasible
  | unbounded
  | degenerate
  | numericalFailure
  | userAbort
  | timeout
  | presolved
deriving DecidableEq, Repr

instance : Enumeration Verdict where
  title := "SolveReturn"
  members := [.unknownError, .noMemory, .notRun, .optimal, .suboptimal, .infeasible, .unbounded, .degenerate,
    .numericalFailure, .userAbort, .timeout, .presolved]
  label
    | .unknownError => "UNKNOWNERROR"
    | .noMemory => "NOMEMORY"
    | .notRun => "NOTRUN"
    | .optimal => "OPTIMAL"
    | .suboptimal => "SUBOPTIMAL"
    | .infeasible => "INFEASIBLE"
    | .unbounded => "UNBOUNDED"
    | .degenerate => "DEGENERATE"
    | .numericalFailure => "NUMFAILURE"
    | .userAbort => "USERABORT"
    | .timeout => "TIMEOUT"
    | .presolved => "PRESOLVED"
  code
    | .unknownError => .number (-5)
    | .noMemory => .number (-2)
    | .notRun => .number (-1)
    | .optimal => .number 0
    | .suboptimal => .number 1
    | .infeasible => .number 2
    | .unbounded => .number 3
    | .degenerate => .number 4
    | .numericalFailure => .number 5
    | .userAbort => .number 6
    | .timeout => .number 7
    | .presolved => .number 9

def Search.Status.verdict : Search.Status → Verdict
  | optimal => .optimal
  | feasible => .suboptimal
  | infeasible | integerInfeasible | cutoff => .infeasible
  | unbounded => .unbounded
  | noSolutionFound => .timeout
  | error => .numericalFailure
  | loaded | infeasibleOrUnbounded | truncated | other => .unknownError

namespace Engine

structure Row (R : Type) where
  name : String
  /-- The coefficients, by columns. -/
  entries : List (Nat × R)
  relation : Relation
  rhs : R
  range : Option R
deriving DecidableEq, Repr

structure OrderedSet (R : Type) where
  name : String
  kind : Int
  priority : Int
  columns : List Nat
  weights : List R
deriving DecidableEq, Repr

/-- Who is called during a solve. -/
structure Hooks (R : Type) where
  poller : Option (Poller R)
  log : Option Observer
  message : Option Observer
  /-- An observer of the same messages that is not told which they are. -/
  progress : Option Observer
  mask : Int
deriving Repr

namespace Hooks

variable {R : Type}

/-- The observer who is told of an event. -/
def observer? (h : Hooks R) : Event R → Option Observer
  | .log _ _ => h.log
  | .message _ _ => h.message
  | .progress _ => h.progress
  | .poll _ _ | .exported _ _ _ _ _ => none

/-- Who is called when somebody has been told of an event. -/
def told (h : Hooks R) : Event R → Hooks R
  | .log _ _ => { h with log := h.log.map Observer.next }
  | .message _ _ => { h with message := h.message.map Observer.next }
  | .progress _ => { h with progress := h.progress.map Observer.next }
  | .poll _ _ => { h with poller := h.poller.map Poller.next }
  | .exported _ _ _ _ _ => h

end Hooks

/-- The answer of a ranging pass, rows first and then columns, infinities being the sentinel. -/
structure Sensitivity (R : Type) where
  duals : List R
  lowers : List R
  uppers : List R
  costLowers : List R
  costUppers : List R
deriving Repr

/-- What the last solve found. -/
structure Results (R : Type) where
  verdict : Verdict
  /-- The best point found, as the values of the columns. -/
  incumbent : Option (List R)
  /-- The objective, the activities of the rows and the values of the columns. -/
  solution : Option (List (Total R))
  objective : Total R
  bound : R
  pointCount : Nat
  sensitivity : Option (Sensitivity R)
  iterations : Int
  elapsed : R
deriving Repr

/-- A place where an engine can be held until it is let go: before it solves, or before it is released. -/
inductive Gate where
  | solve
  | release
deriving DecidableEq, Repr

/-- What is wrong with a defective engine: the words in which it fails to solve, or to take a row, and where it is
held. -/
structure Defects where
  solve : Option String
  row : Option String
  gate : Option Gate
deriving DecidableEq, Repr

/-- Nothing is wrong. -/
def Defects.none : Defects := ⟨.none, .none, .none⟩

end Engine

structure Engine (R : Type) where
  columns : List (Column R)
  rows : List (Engine.Row R)
  objective : List (Nat × R)
  maximize : Bool
  sets : List (Engine.OrderedSet R)
  settings : Settings R
  rowMode : Bool
  /-- Whether a solve that ends well is followed by a ranging pass. -/
  wantsSensitivity : Bool
  hooks : Engine.Hooks R
  /-- The file to which lines of the log are added; nothing or an empty text for none. -/
  logFile : Value R
  exporter : Option String
  results : Engine.Results R
  search : Option (Search.Model R)
  /-- Whether the search holds the program as it is. -/
  loaded : Bool
  defects : Engine.Defects

namespace Engine

variable {R : Type} [Scalar R]

/-- The size from which on a number counts as infinite. -/
def sentinel (e : Engine R) : R :=
  e.settings.sentinel

/-! ### Infinities -/

/-- Whether a number counts as infinite. -/
def isInfinite (e : Engine R) (x : R) : Bool :=
  Scalar.le e.sentinel (Scalar.abs x)

/-- Whether a value counts as infinite; it has to be a number. -/
def countsInfinite (e : Engine R) (v : Value R) : Except Fault Bool := do
  let x ← v.comparable
  pure ((Scalar.exact e.sentinel).le (if x.isNegative then -x else x))

/-- A number as the engine keeps it. -/
def inner (e : Engine R) (x : R) : R :=
  if e.isInfinite x then Scalar.copySign Scalar.infinity x else x

/-- A number as the caller gets it. -/
def outer (e : Engine R) (x : R) : R :=
  if e.isInfinite x then Scalar.copySign e.sentinel x else x

def innerOf (e : Engine R) (v : Value R) : Except Fault R :=
  v.toReal.map e.inner

/-! ### Columns, rows and the objective -/

def column (e : Engine R) (col : Int) : Except Fault (Column R) :=
  match (if col < 1 then none else e.columns[(col - 1).toNat]?) with
  | some c => .ok c
  | none => .error (.columnOutOfRange col e.columns.length)

def row (e : Engine R) (row : Int) : Except Fault (Row R) :=
  match (if row < 1 then none else e.rows[(row - 1).toNat]?) with
  | some r => .ok r
  | none => .error (.rowOutOfRange row e.rows.length)

def lowerBound (e : Engine R) (col : Int) : Except Fault R :=
  (e.column col).map fun c => e.outer c.lower

def upperBound (e : Engine R) (col : Int) : Except Fault R :=
  (e.column col).map fun c => e.outer c.upper

/-- Whether a column is open on both sides. -/
def isUnbounded (e : Engine R) (col : Int) : Except Fault Bool :=
  (e.column col).map fun c =>
    Scalar.same c.lower (-Scalar.infinity) && Scalar.same c.upper Scalar.infinity

/-- The right-hand side of a row; row zero is the objective. -/
def rhs (e : Engine R) (row : Int) : Except Fault R :=
  if row = 0 then .ok Scalar.zero else (e.row row).map fun r => e.outer r.rhs

/-- The width of a row: zero for an equation, and the sentinel for a row without a range. -/
def rhsRange (e : Engine R) (row : Int) : Except Fault R :=
  (e.row row).map fun r =>
    match r.relation, r.range with
    | .equal, _ => Scalar.zero
    | _, none => e.sentinel
    | _, some range => e.outer range

def Row.width? (r : Row R) : Option R :=
  r.range.filter fun range => !Scalar.isInfinite range

/-- The least and the greatest activity of a row. -/
def Row.limits (r : Row R) : R × R :=
  match r.relation with
  | .equal => (r.rhs, r.rhs)
  | .atLeast => (r.rhs, (r.width?.map (r.rhs + ·)).getD Scalar.infinity)
  | .atMost => ((r.width?.map (r.rhs - ·)).getD (-Scalar.infinity), r.rhs)
  | .free => (-Scalar.infinity, Scalar.infinity)

/-- The least and the greatest activity of a row, for the caller. -/
def rowBounds (e : Engine R) (row : Int) : Except Fault (R × R) :=
  (e.row row).map fun r => (e.outer r.limits.1, e.outer r.limits.2)

/-- The coefficient of a column among entries, zero where there is none. -/
def coefficientIn (entries : List (Nat × R)) (col : Int) : R :=
  (entries.lookup col.toNat).getD Scalar.zero

/-- An element of the matrix; row zero is the objective. -/
def element (e : Engine R) (row col : Int) : Except Fault R := do
  let _ ← e.column col
  if row = 0 then pure (coefficientIn e.objective col)
  else do
    let r ← e.row row
    pure (coefficientIn r.entries col)

/-- The number of coefficients in the rows. -/
def nonzeros (e : Engine R) : Nat :=
  e.rows.foldl (fun n r => n + r.entries.length) 0

/-- Whether solving the program needs a search. -/
def isMixed (e : Engine R) : Bool :=
  !e.sets.isEmpty || e.columns.any Column.integer

/-! ### Results -/

/-- The best value the objective can have, as far as the search has got. -/
def bound (e : Engine R) : R :=
  e.outer e.results.bound

/-- The dual of a row, or the reduced cost of a column counted on after the rows; zero where none is known. -/
def dual (e : Engine R) (index : Int) : R :=
  match e.results.sensitivity with
  | none => Scalar.zero
  | some s => if index < 1 then Scalar.zero else (s.duals[(index - 1).toNat]?).getD Scalar.zero

/-- The results before a solve. -/
def Results.start (maximize : Bool) (sentinel : R) : Results R where
  verdict := .notRun
  incumbent := none
  solution := none
  objective := .scalar Scalar.zero
  bound := if maximize then -sentinel else sentinel
  pointCount := 0
  sensitivity := none
  iterations := 0
  elapsed := Scalar.zero

/-! ### Making engines -/

/-- The columns of a new engine: continuous, from zero on. -/
def newColumn (number : Nat) : Column R where
  name := "C" ++ toString number
  lower := Scalar.zero
  upper := Scalar.infinity
  integer := false

def new (columns : Nat) (defects : Defects) (search : Search.Model R) : Engine R where
  columns := (List.range columns).map fun i => newColumn (i + 1)
  rows := []
  objective := []
  maximize := false
  sets := []
  settings := .start
  rowMode := false
  wantsSensitivity := false
  hooks := ⟨none, none, none, none, 0⟩
  logFile := .nothing
  exporter := none
  results := .start false Setting.defaultInfinite
  search := some search
  loaded := false
  defects := defects

/-- Makes an engine. Its search is told to be quiet from the beginning. -/
def create (columns : Nat) (defects : Defects) : Action (Host R) (Engine R) := do
  let search ← Host.newSearch { Search.Knobs.start with verbose := false }
  pure (new columns defects search)

/-- An engine that has been released: its program, its search and its observers are gone. -/
def release (e : Engine R) : Engine R :=
  { e with
    columns := []
    rows := []
    objective := []
    sets := []
    search := none
    loaded := false
    hooks := { e.hooks with poller := none, log := none, message := none, progress := none } }

end Engine

end Optima
