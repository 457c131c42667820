import Optima.Exact.Ranging
import Optima.Lifecycle.Calls
import Optima.Model.Assemble
import Optima.Report.Details

/-!
# Workspaces

A workspace is what one user works with: a model, an engine, a solver, an encoding and a report, at most one of
each at hand, in common surroundings. Engines and models are shared: the engine at hand may be the solver's, and a
report goes on looking at its engine while that is changed. So the workspace keeps all models and engines in lists,
and everything else names them by their places.
-/

namespace Optima

/-- A solver in a workspace: the place of its model, and of its engine if it has one. -/
structure Seat (R : Type) where
  solver : Solver R
  model : Nat
  engine : Option Nat

def Seat.current {R : Type} (seat : Seat R) (engines : List (Engine R)) : Solver R :=
  match seat.solver.encoding, seat.engine.bind (engines[·]?) with
  | some t, some e => { seat.solver with encoding := some { t with engine := e } }
  | _, _ => seat.solver

/-- A report at hand: on the ranging of an engine, or on the details of the solver's solve. -/
inductive Report (R : Type) where
  | sensitivity (engine : Nat) (naming : Naming R)
  | details
deriving Repr

structure Workspace (R : Type) where
  models : List (Model R)
  engines : List (Engine R)
  /-- The place of the model at hand. -/
  model : Nat
  /-- The place of the engine at hand. -/
  engine : Option Nat
  seat : Option (Seat R)
  /-- The last encoding: the place of its engine, and its names. -/
  encoding : Option (Nat × Naming R)
  report : Option (Report R)
  host : Host R

namespace Workspace

variable {R : Type} [Scalar R]

def new (host : Host R) : Workspace R := ⟨[.empty], [], 0, none, none, none, none, host⟩

abbrev Task (R α : Type) := Action (Workspace R) α

def modelAt (w : Workspace R) (place : Nat) : Model R :=
  (w.models[place]?).getD .empty

def engineAt (w : Workspace R) (place : Nat) : Except Fault (Engine R) :=
  match w.engines[place]? with
  | some e => .ok e
  | none => .error .absent

def engineAtHand (w : Workspace R) : Except Fault (Engine R) :=
  match w.engine with
  | some place => w.engineAt place
  | none => .error .absent

/-- Does something to the surroundings. -/
def onHost {α : Type} (act : Action (Host R) α) : Task R α :=
  Action.on Workspace.host (fun h w => { w with host := h }) act

/-- Does something to the model at hand. -/
def onModel {α : Type} (act : Model.Edit R α) : Task R α :=
  Action.on (fun w => w.modelAt w.model) (fun m w => { w with models := w.models.set w.model m }) act

/-- Adds a model, which then is at hand. -/
def addModel (m : Model R) : Task R Unit :=
  modify fun w => { w with models := w.models ++ [m], model := w.models.length }

/-- Makes a model from plain data and puts it at hand. -/
def assembleModel (keys : List (Value R)) (rows : List (RowData R)) (objective : Option (Terms R))
    (minimize : Value R) : Task R Unit := do
  let m ← Action.lift (Model.assemble keys rows objective minimize)
  onHost (Host.record .debug ("Built model with " ++ toString m.variableVids.length ++ " variables and "
    ++ toString m.rowVids.length ++ " rows"))
  addModel m

/-- Adds an engine and returns its place. -/
def addEngine (e : Engine R) : Task R Nat := do
  let w ← get
  set { w with engines := w.engines ++ [e] }
  pure w.engines.length

def onEngine {α : Type} (act : Engine.Work R α) : Task R α := do
  let w ← get
  match w.engine with
  | none => throw .absent
  | some place =>
    let e ← Action.lift (w.engineAt place)
    Action.on (fun w => ⟨e, w.host⟩)
      (fun s w => { w with engines := w.engines.set place s.engine, host := s.host }) act

def onEngineAlone {α : Type} (act : Engine.Build R α) : Task R α :=
  onEngine (Engine.inside act)

/-! ### The solver -/

def session? (w : Workspace R) : Option (Solver.Session R) :=
  w.seat.map fun seat => ⟨seat.current w.engines, w.modelAt seat.model, w.host⟩

def session (w : Workspace R) : Except Fault (Solver.Session R) :=
  match w.session? with
  | some s => .ok s
  | none => .error .absent

/-- Puts the engine of a solver back to its place. An engine that the solver has let go stays in its place, released;
one that the solver has made gets a new place. -/
def putBack (seat : Seat R) (solver : Solver R) (engines : List (Engine R)) : Seat R × List (Engine R) :=
  match solver.encoding, seat.engine with
  | some t, some place => ({ seat with solver := solver }, engines.set place t.engine)
  | some t, none => ({ seat with solver := solver, engine := some engines.length }, engines ++ [t.engine])
  | none, some place => ({ seat with solver := solver, engine := none }, engines.modify place Engine.release)
  | none, none => ({ seat with solver := solver }, engines)

def withSession (w : Workspace R) (seat : Seat R) (s : Solver.Session R) : Workspace R :=
  let (seat, engines) := putBack seat s.solver w.engines
  { w with seat := some seat, engines := engines, models := w.models.set seat.model s.model, host := s.host }

def onSolver {α : Type} (act : Solver.Work R α) : Task R α := do
  let w ← get
  match w.seat, w.session? with
  | some seat, some s => Action.on (fun _ => s) (fun s w => w.withSession seat s) act
  | _, _ => throw .absent

/-- Makes a solver for the model at hand. A solver that was there before is shut down. -/
def newSolver (factory : Factory) : Task R Unit := do
  if (← get).seat.isSome then onSolver Solver.shutdown
  modify fun w =>
    { w with
      seat := some ⟨.new factory, w.model, none⟩
      host := { w.host with phase := some .start } }

/-- Puts the solver's engine at hand. -/
def takeEngine : Task R Unit := do
  let w ← get
  match w.seat with
  | none => throw .absent
  | some seat =>
    match seat.engine with
    | none => throw .notSolved
    | some place => set { w with engine := some place }

/-! ### Encodings and reports -/

/-- Makes an engine and puts it at hand. -/
def newEngine (columns : Nat) : Task R Unit := do
  let e ← onHost (Engine.create columns .none)
  let place ← addEngine e
  modify fun w => { w with engine := some place }

/-- Encodes the model at hand and puts the engine at hand. -/
def encode (infinite : Value R) (factory : Factory) : Task R (Naming R) := do
  let w ← get
  let t ← onHost (Encoding.ofModel (w.modelAt w.model) factory infinite)
  let place ← addEngine t.engine
  modify fun w => { w with engine := some place, encoding := some (place, t.naming) }
  pure t.naming

/-- Takes the solution of the last encoding back into the model at hand. -/
def extract : Task R Unit := do
  let w ← get
  match w.encoding with
  | none => throw .absent
  | some (place, naming) =>
    let e ← Action.lift (w.engineAt place)
    let found ← onModel (Encoding.extract e naming)
    if !found then onHost (Host.record .debug "No primal solution to extract")

/-- The report of a kind that the solver gives, if it gives one. -/
def reportOf (w : Workspace R) (kind : Option ReportKind) : Except Fault (Option (Report R)) := do
  let s ← w.session
  match kind with
  | some .sensitivity =>
    let r ← s.sensitivityReport?
    pure (r.bind fun r => (w.seat.bind Seat.engine).map fun place => .sensitivity place r.naming)
  | some .details => pure (some .details)
  | some .infeasibility | none => pure none

/-- Asks the solver for a report and puts it at hand, if there is one. -/
def getReport (kind : ReportKind) : Task R (Option (Report R)) := do
  let w ← get
  let report ← Action.lift (w.reportOf (some kind))
  match report with
  | some r => set { w with report := some r }
  | none => pure ()
  pure report

/-- Makes a sensitivity report on the last encoding, with a sentinel of its own if one is given. -/
def newReport (infinite : Value R) : Task R Unit := do
  let w ← get
  match w.encoding with
  | none => throw .absent
  | some (place, naming) =>
    let sentinel ← match infinite with
      | .nothing => pure naming.sentinel
      | v => Action.lift v.toReal
    set { w with report := some (.sensitivity place { naming with sentinel := sentinel }) }

def sensitivityReport (w : Workspace R) : Except Fault (SensitivityReport R) :=
  match w.report with
  | some (.sensitivity place naming) => (w.engineAt place).map fun e => ⟨e, naming⟩
  | _ => .error .absent

def detailsSession (w : Workspace R) : Except Fault (Solver.Session R) :=
  match w.report with
  | some .details => w.session
  | _ => .error .absent

end Workspace

end Optima
