import Optima.Engine.Loading
import Optima.Engine.Ranging

/-!
# Solving

A solve hands the program to the search and lets it run. When someone wants to be asked whether to abort, and the
program needs a real search, it runs in slices of one second, two seconds, four seconds and so on, and the question is
asked after each. The best point of all outcomes is kept.
-/

namespace Optima.Engine

variable {R : Type} [Scalar R]

/-- The sum of coefficients times the values of their columns. -/
def activity (entries : List (Nat × R)) (point : List R) : Total R :=
  Total.ofTerms (entries.map fun (col, x) => x * (point[col - 1]?).getD Scalar.zero)

/-- Whether an objective is better than the best one so far. -/
def improves (e : Engine R) (objective : R) : Bool :=
  match e.results.incumbent with
  | none => true
  | some _ =>
    if e.maximize then Scalar.lt e.results.objective.value objective
    else Scalar.lt objective e.results.objective.value

/-- Looks at a point the search has found, and keeps it if it is better than the best one so far. -/
def capture (point : List R) : Work R Unit := do
  let e := (← get).engine
  let objective := activity e.objective point
  if e.results.incumbent.isNone then send (if e.isMixed then .milpFeasible else .lpFeasible)
  if e.improves objective.value then
    updateResults fun r =>
      { r with incumbent := some point, objective := objective, pointCount := r.pointCount + 1 }
    send (if e.isMixed then .milpBetter else .lpOptimal)

def noteBound (bound : Option R) : Work R Unit :=
  match bound with
  | some b => updateResults fun r => { r with bound := b }
  | none => pure ()

/-- Takes note of an outcome: of the time it took, of its point, and of its bound. -/
def takeOutcome (o : Search.Outcome R) : Work R Unit := do
  outside (modify fun h => { h with clock := h.clock + o.seconds, source := h.source.next })
  match o.failure with
  | some text => throw (.failed text)
  | none =>
    if o.status.hasPoint then
      match o.values? (← get).engine.columns.length with
      | some point => capture point
      | none => pure ()
    noteBound o.bound

/-- The time at which a solve has to stop. Only a positive timeout sets one. -/
def deadline (clock : R) (timeout : Value R) : Except Fault R := do
  if timeout.truth then
    let t ← timeout.comparable
    if (Extended.rat 0).lt t then pure (clock + (← timeout.toReal)) else pure Scalar.infinity
  else pure Scalar.infinity

/-- The greatest number of points a search may be asked for. -/
def allPoints : Nat := Nat.pow 2 30

/-- How the slices of a solve are cut. -/
structure Plan (R : Type) where
  deadline : R
  pointLimit : Nat
  /-- Whether the search runs in slices at all. -/
  sliced : Bool
  /-- Whether the first point ends the solve. -/
  firstOnly : Bool
deriving Repr

/-- How a solve is cut into slices. -/
def plan (e : Engine R) (clock : R) : Except Fault (Plan R) := do
  let deadline ← deadline clock (e.settings.get .timeout)
  let firstOnly := (e.settings.get .breakAtFirst).truth
  pure ⟨deadline, if firstOnly then 1 else allPoints, e.hooks.poller.isSome && e.isMixed, firstOnly⟩

/-- The verdict when the time is up. -/
def expired (e : Engine R) : Verdict :=
  if e.results.incumbent.isSome then .suboptimal else .timeout

/-- Notes what the search is asked for. -/
def request (budget : R) (pointLimit : Nat) : Work R Unit := do
  match (← get).engine.search with
  | none => pure ()
  | some search =>
    outside (modify fun h => { h with requests := h.requests ++ [⟨search, budget, pointLimit⟩] })

/-- Lets the next slice start from the best point so far. -/
def restart : Work R Unit := do
  match (← get).engine.results.incumbent with
  | none => pure ()
  | some point => updateSearch fun search => { search with start := some (point.mapIdx fun i x => (i + 1, x)) }

/-- Begins a slice of at most `slice` seconds, or says how the solve ends when the time is up. -/
def beginSlice (plan : Plan R) (slice : R) : Work R (Option Verdict) := do
  let s ← get
  let remaining := plan.deadline - s.host.clock
  if Scalar.le remaining Scalar.zero then pure (some s.engine.expired)
  else
    request (if plan.sliced then Scalar.smaller remaining slice else remaining) plan.pointLimit
    pure none

/-- Asks for outcome after outcome until one of them is an end. The first of them may take `slice` seconds, if the
search runs in slices at all, and each one twice as long as the one before. -/
def slices (plan : Plan R) (slice : R) : List (Search.Outcome R) → Work R Verdict
  | [] => do
    match ← beginSlice plan slice with
    | some verdict => pure verdict
    | none => throw (.failed "script exhausted")
  | o :: rest => do
    match ← beginSlice plan slice with
    | some verdict => pure verdict
    | none =>
      takeOutcome o
      if !plan.sliced || !o.status.interrupted || plan.firstOnly then pure o.status.verdict
      else if ← abortRequested then pure .userAbort
      else
        restart
        slices plan (Scalar.two * slice) rest

/-- Lets the search run. -/
def optimize : Work R Verdict := do
  let s ← get
  let plan ← Action.lift (s.engine.plan s.host.clock)
  let program := (s.engine.search.map Search.Model.program).getD .empty
  slices plan Scalar.one (s.host.source.outcomes program)

/-- The objective, the activities of the rows and the values of the columns at a point. -/
def solutionAt (e : Engine R) (point : List R) : List (Total R) :=
  e.results.objective :: e.rows.map (fun r => activity r.entries point) ++ point.map .scalar

/-- Keeps the solution at the best point, if there is one. -/
def storeSolution : Work R Unit := do
  let e := (← get).engine
  match e.results.incumbent with
  | none => pure ()
  | some point => updateResults fun r => { r with solution := some (e.solutionAt point) }

/-- Hands the program over, has it searched, and stores what was found. -/
def searchProgram : Work R Verdict := do
  load
  configure
  let e := (← get).engine
  log ("Loaded " ++ toString e.columns.length ++ " columns, " ++ toString e.rows.length ++ " rows, "
    ++ toString e.sets.length ++ " SOS constraints")
  if ← abortRequested then pure .userAbort
  else
    send .presolve
    let verdict ← optimize
    storeSolution
    if verdict = .optimal && (← get).engine.wantsSensitivity then rangeSolution
    pure verdict

/-- Solves the program, unless a row without entries rules out every point. -/
def run : Work R Verdict := do
  let e := (← get).engine
  match ← Action.lift (violatedEmptyRow? (e.settings.get .epsint) e.rows) with
  | some r =>
    log ("Empty row " ++ r.name ++ " excludes zero activity")
    pure .infeasible
  | none => searchProgram

/-- Runs and keeps the verdict. -/
def runAndKeep : Work R Unit := do
  let verdict ← run
  updateResults fun r => { r with verdict := verdict }

def solve : Work R Verdict := do
  match (← get).engine.defects.solve with
  | some text => throw (.failed text)
  | none =>
    modify fun s =>
      { s with engine := { s.engine with results := .start s.engine.maximize s.engine.sentinel } }
    let start := (← get).host.clock
    Action.finish runAndKeep fun s =>
      { s with engine := { s.engine with results :=
        { s.engine.results with elapsed := s.host.clock - start } } }
    let r := (← get).engine.results
    log ("Solve finished with status " ++ Enumeration.label r.verdict ++ " in "
      ++ Scalar.fixedText 3 r.elapsed ++ "s")
    pure r.verdict

end Optima.Engine
