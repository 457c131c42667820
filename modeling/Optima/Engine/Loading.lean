import Optima.Engine.Session

/-!
# Handing a program to the search

The search knows rows with one right-hand side only. A row that is limited on both sides becomes an equation with a
slack column of its own, whose width is that of the row; a row that is not limited, or that has no entries, is left
out. A program that the search holds already is not handed over again.
-/

namespace Optima.Engine

variable {R : Type} [Scalar R]

/-- The slack column of a row that lies between two limits. -/
def slackColumn (r : Row R) (lower upper : R) : Column R where
  name := r.name ++ "_rng"
  lower := Scalar.zero
  upper := upper - lower
  integer := false

/-- The row of the search with these terms. A right-hand side is never a negative zero. -/
def searchRow (r : Row R) (sense : Search.Sense) (rhs : R) (slack : List (Nat × R)) : Search.Row R where
  name := r.name
  sense := sense
  rhs := rhs + Scalar.zero
  terms := r.entries ++ slack

/-- The slack columns and the rows for the rows of an engine; `next` is the number of the next column. -/
def searchRows (next : Nat) : List (Row R) → List (Column R) × List (Search.Row R)
  | [] => ([], [])
  | r :: rest =>
    let (lower, upper) := r.limits
    if r.entries.isEmpty then searchRows next rest
    else if Scalar.same lower upper then
      let (columns, rows) := searchRows next rest
      (columns, searchRow r .equal upper [] :: rows)
    else if Scalar.isFinite lower && Scalar.isFinite upper then
      let (columns, rows) := searchRows (next + 1) rest
      (slackColumn r lower upper :: columns, searchRow r .equal upper [(next, Scalar.one)] :: rows)
    else
      let (columns, rows) := searchRows next rest
      if Scalar.isFinite lower then (columns, searchRow r .atLeast lower [] :: rows)
      else if Scalar.isFinite upper then (columns, searchRow r .atMost upper [] :: rows)
      else (columns, rows)

/-- The program of an engine, for the search. Sets without columns are left out. -/
def program (e : Engine R) : Search.Program R :=
  let (slacks, rows) := searchRows (e.columns.length + 1) e.rows
  { columns := e.columns ++ slacks
    rows := rows
    maximize := e.maximize
    objective := e.objective
    sets := (e.sets.filter fun s => !s.columns.isEmpty).map fun s => ⟨s.kind, s.columns.zip s.weights⟩ }

/-- A search that a program can be handed to: the engine's own while nothing has been handed to it, else a new one. -/
def freshSearch : Work R (Search.Model R) := do
  match (← get).engine.search with
  | some search =>
    if search.program.columns.isEmpty then pure search else outside (Host.newSearch .start)
  | none => outside (Host.newSearch .start)

/-- Sees to it that the search holds the program. -/
def load : Work R Unit := do
  if (← get).engine.loaded then pure ()
  else
    let search ← freshSearch
    let program := (← get).engine.program
    useSearch { search with program := program }
    modify fun s => { s with engine := { s.engine with loaded := true } }

/-- Whether the settings ask the search to report. -/
def wantsReports (e : Engine R) : Except Fault Bool := do
  let verbose ← (e.settings.get .verbose).comparable
  pure ((Extended.rat 4).le verbose || (e.settings.get .trace).truth || (e.settings.get .debug).truth)

/-- Tells the search what the settings say, one knob after the other. -/
def configure : Work R Unit := do
  let e := (← get).engine
  let reports ← Action.lift e.wantsReports
  tune fun k =>
    { k with
      verbose := reports
      integerTolerance := e.settings.get .epsint
      gapAbsolute := e.settings.get .gapAbsolute
      gapRelative := e.settings.get .gapRelative
      preprocess := (e.settings.get .presolve).truth }
  let simplex ← Action.lift e.settings.simplexType
  tune fun k => { k with method := if simplex.endsPrimal then .primal else .dual }
  let cutoff := e.settings.get .objectiveBound
  let isOpen ← Action.lift (e.countsInfinite cutoff)
  if !isOpen then tune fun k => { k with cutoff := some cutoff }
  Setting.unused.forM fun s => do
    let v := e.settings.get s
    if !v.same s.start then
      outside (Host.record .debug ("Setting " ++ s.name ++ "=" ++ v.written ++ " is kept but not applied by CBC"))

/-- Whether a row without entries cannot be satisfied, within a tolerance. -/
def excludesZero (tolerance : Value R) (r : Row R) : Except Fault Bool := do
  let t ← tolerance.comparable
  pure (t.lt (Scalar.exact r.limits.1) || (Scalar.exact r.limits.2).lt (-t))

/-- The first row without entries that cannot be satisfied. -/
def violatedEmptyRow? (tolerance : Value R) : List (Row R) → Except Fault (Option (Row R))
  | [] => .ok none
  | r :: rest => do
    let violated ← if r.entries.isEmpty then excludesZero tolerance r else pure false
    if violated then pure (some r) else violatedEmptyRow? tolerance rest

end Optima.Engine
