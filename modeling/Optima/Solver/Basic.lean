import Optima.Engine.Solving
import Optima.Result.Classes
import Optima.Encoding.Extract

/-!
# Solvers

A solver solves one model once: it encodes the model into an engine, lets the engine solve it, takes the solution
back into the model, and then answers questions about the solve until it is shut down. Its phase is what its
surroundings see of it.
-/

namespace Optima

/-- What a solve is given: the settings, the observers, and whether ranging is wanted. -/
structure Params (R : Type) where
  settings : Setting → Value R
  logFile : Value R
  log : Option Observer
  message : Option Observer
  progress : Option Observer
  polls : Option (List (Poll R))
  sensitivity : Value R

/-- The parameters of a solve that is given none. -/
def Params.start {R : Type} [Scalar R] : Params R where
  settings := Setting.start
  logFile := .text ""
  log := none
  message := none
  progress := none
  polls := none
  sensitivity := .flag false

structure Solver (R : Type) where
  factory : Factory
  encoding : Option (Encoding R)
  verdict : Verdict
  /-- Whether ranging was wanted for the solve. -/
  sensitivity : Value R

namespace Solver

/-- A solver that has done nothing yet. -/
def new {R : Type} (factory : Factory) : Solver R := ⟨factory, none, .notRun, .flag false⟩

/-- A solver with its model in its surroundings. -/
structure Session (R : Type) where
  solver : Solver R
  model : Model R
  host : Host R

/-- An operation on a solver, its model and its surroundings. -/
abbrev Work (R α : Type) := Action (Session R) α

variable {R : Type} [Scalar R]

def Session.phase (s : Session R) : Phase :=
  s.host.phase.getD .start

def Session.engine (s : Session R) : Except Fault (Engine R) :=
  match s.solver.encoding with
  | some t => .ok t.engine
  | none => .error .notSolved

/-- The session after its engine has been at work. -/
def Session.withEngine (s : Session R) (naming : Naming R) (w : Engine.Session R) : Session R :=
  { s with host := w.host, solver := { s.solver with encoding := some ⟨w.engine, naming⟩ } }

def onEngine {α : Type} (act : Engine.Work R α) : Work R α := fun s =>
  match s.solver.encoding with
  | none => .error .notSolved s
  | some t =>
    match act ⟨t.engine, s.host⟩ with
    | .ok a w => .ok a (s.withEngine t.naming w)
    | .error fault w => .error fault (s.withEngine t.naming w)

/-- Does something to the surroundings alone. -/
def onHost {α : Type} (act : Action (Host R) α) : Work R α :=
  Action.on Session.host (fun h s => { s with host := h }) act

/-- Does something to the model alone. -/
def onModel {α : Type} (act : Model.Edit R α) : Work R α :=
  Action.on Session.model (fun m s => { s with model := m }) act

def setPhase (p : Phase) : Work R Unit :=
  modify fun s => { s with host := { s.host with phase := some p } }

def updateSolver (f : Solver R → Solver R) : Work R Unit :=
  modify fun s => { s with solver := f s.solver }

/-! ### Solving -/

/-- The messages a solve passes on. -/
def messages : List Message := [.presolve, .lpFeasible, .lpOptimal, .lpEqual, .milpFeasible, .milpBetter]

def applyParams (p : Params R) : Engine.Build R Unit := do
  Setting.all.forM fun s => Engine.putSetting s (p.settings s)
  Engine.setSensitivity p.sensitivity
  Engine.setLogFile p.logFile
  Engine.setPoller (p.polls.map fun polls => ⟨polls, true⟩)
  Engine.setLog p.log
  Engine.setMessages p.message p.progress (.integer (Message.mask messages))

/-- Takes the engine's solution back into the model. -/
def extract : Work R Unit := do
  match (← get).solver.encoding with
  | none => throw .notSolved
  | some t =>
    let found ← onModel (Encoding.extract t.engine t.naming)
    if !found then onHost (Host.record .debug "No primal solution to extract")

def encode (p : Params R) : Work R Unit := do
  let s ← get
  let t ← onHost (Encoding.ofModel s.model s.solver.factory (p.settings .infinite))
  updateSolver fun solver => { solver with encoding := some t }

/-- Encodes the model and lets the engine solve it. -/
def search (p : Params R) : Work R Unit := do
  updateSolver fun solver => { solver with sensitivity := p.sensitivity }
  encode p
  onEngine (Engine.inside (applyParams p))
  let e ← Action.lift (← get).engine
  onHost (Host.record .info
    ("Solving " ++ toString e.columns.length ++ " columns and " ++ toString e.rows.length ++ " rows"))
  let verdict ← onEngine Engine.solve
  updateSolver fun solver => { solver with verdict := verdict }

/-- Encodes the model, solves it, and takes the solution back. -/
def run (p : Params R) : Work R Unit := do
  search p
  extract

/-- Runs; a fault puts the solver into the phase of having aborted. -/
def runGuarded (p : Params R) : Work R Unit :=
  tryCatch (run p) fun fault => do
    onHost (Host.record .error "Solve aborted by an error")
    setPhase .aborted
    throw fault

/-- Solves the model, unless that has been done or the solver has been shut down. -/
def solve (p : Params R) : Work R Unit := do
  match (← get).phase.claim? with
  | none => pure ()
  | some claimed =>
    setPhase claimed
    runGuarded p
    let settled := (← get).phase.settle
    setPhase settled
    onHost (Host.record .info ("Solve finished in state " ++ Enumeration.label settled ++ " with status "
      ++ Enumeration.label (← get).solver.verdict))

/-- Releases the engine. -/
def shutdown : Work R Unit := do
  if (← get).phase.closing = .proceeds then
    setPhase .disposing
    updateSolver fun solver => { solver with encoding := none }
    setPhase .disposed
    onHost (Host.record .info "Solver shut down")

/-- Solves, and shuts down whether or not that went well; in between, `failure` is a fault of the caller's own. The
answer is the phase after the solve. -/
def solveWithin (p : Params R) (failure : Option String) : Work R Phase := do
  let body : Work R Phase := do
    solve p
    match failure with
    | some text => throw (.failed text)
    | none => pure (← get).phase
  let phase ← tryCatch body fun fault => do
    shutdown
    throw fault
  shutdown
  pure phase

end Solver

end Optima
