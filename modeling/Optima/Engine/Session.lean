import Optima.Engine.Building

/-!
# Engines at work

A session is an engine in its surroundings. Here is what the longer operations of an engine are put together from:
writing a line of the log, sending a message, asking whether to abort, and changing the search and the results.
-/

namespace Optima.Engine

structure Session (R : Type) where
  engine : Engine R
  host : Host R

/-- An operation on an engine and its surroundings. -/
abbrev Work (R α : Type) := Action (Session R) α

variable {R : Type} [Scalar R]

/-- Does something to the engine alone. -/
def inside {α : Type} (act : Build R α) : Work R α :=
  Action.on Session.engine (fun e s => { s with engine := e }) act

/-- Does something to the surroundings alone. -/
def outside {α : Type} (act : Action (Host R) α) : Work R α :=
  Action.on Session.host (fun h s => { s with host := h }) act

/-- Adds a line to the log file, if there is one. -/
def writeLog (text : String) : Work R Unit := do
  match (← get).engine.logFile with
  | .text path =>
    if path.isEmpty then pure () else outside (Host.changeFiles fun f => f.append path (text ++ "\n"))
  | file => if file.truth then throw .wrongKind

/-- Tells the observer of such events of one, if there is an observer. -/
def tell (event : Option Phase → Event R) : Work R Unit := do
  let s ← get
  match s.engine.hooks.observer? (event s.host.phase) with
  | none => pure ()
  | some observer =>
    inside (passTurn (event s.host.phase))
    outside (Host.notify event)
    match observer.reply with
    | .notes => pure ()
    | .fails text => throw (.failed text)

/-- Writes a line of the log: into the journal, to the observer, and to the log file. -/
def log (text : String) : Work R Unit := do
  outside (Host.record .debug text)
  tell (.log text)
  writeLog text

/-- Sends a message to the observers, if the mask lets it through. -/
def send (m : Message) : Work R Unit := do
  if m.passes (← get).engine.hooks.mask then
    tell (.message m)
    tell .progress

/-- Asks whether to abort. Nobody asked says no. -/
def abortRequested : Work R Bool := do
  match (← get).engine.hooks.poller with
  | none => pure false
  | some poller =>
    inside (setPoller (some poller.next))
    match poller.answer? with
    | none => pure false
    | some (.fails text) =>
      outside (Host.notify (.poll none))
      throw (.failed text)
    | some (.answers v) =>
      outside (Host.notify (.poll (some v)))
      if v.truth && poller.marks then outside Host.markAborting
      pure v.truth

def updateResults (f : Results R → Results R) : Work R Unit :=
  modify fun s => { s with engine := { s.engine with results := f s.engine.results } }

/-- Makes a search the engine's own. -/
def useSearch (search : Search.Model R) : Work R Unit := do
  modify fun s => { s with engine := { s.engine with search := some search } }
  outside (Host.publish search)

def updateSearch (f : Search.Model R → Search.Model R) : Work R Unit := do
  match (← get).engine.search with
  | none => pure ()
  | some search => useSearch (f search)

def tune (f : Search.Knobs R → Search.Knobs R) : Work R Unit :=
  updateSearch fun search => { search with knobs := f search.knobs }

end Optima.Engine
