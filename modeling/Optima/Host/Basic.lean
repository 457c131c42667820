import Optima.Host.Event
import Optima.Host.Folder
import Optima.Ranging.Problem
import Optima.Search.Program

/-!
# The surroundings of an engine

What lies outside of engines and solvers and is shared by all of them: the clock, the files, the journal, the
observers' notes, the searches and the ranging passes, and the exporters that were registered.
-/

namespace Optima

/-- How important an entry of the journal is. -/
inductive Level where
  | debug
  | info
  | warning
  | error
deriving DecidableEq, Repr

def Level.name : Level → String
  | debug => "DEBUG"
  | info => "INFO"
  | warning => "WARNING"
  | error => "ERROR"

/-- The file a search writes when it is told to write its program: what is put after the name it was given, if it
writes at all, and the text. -/
structure Artefact where
  suffix : Option String
  text : String
deriving DecidableEq, Repr

structure Host (R : Type) where
  /-- The time, in seconds. -/
  clock : R
  folder : Folder
  journal : List (Level × String)
  events : List (Event R)
  /-- The phase of the solver, if there is one. -/
  phase : Option Phase
  source : Search.Source R
  /-- The number of searches made so far. -/
  searches : Nat
  /-- The search made last, as it stands. -/
  latest : Option (Search.Model R)
  requests : List (Search.Request R)
  ranging : Ranging.Problem R → Ranging.Answer R
  rangingCalls : List (Ranging.Call R)
  artefact : Artefact
  /-- The exporters that were registered, with what they return. -/
  exporters : List (String × Value R)

namespace Host

variable {R : Type}

/-- Surroundings in which nothing has happened yet. -/
def start [Scalar R] (source : Search.Source R) (ranging : Ranging.Problem R → Ranging.Answer R) : Host R where
  clock := Scalar.zero
  folder := .empty
  journal := []
  events := []
  phase := none
  source := source
  searches := 0
  latest := none
  requests := []
  ranging := ranging
  rangingCalls := []
  artefact := ⟨some "", "model"⟩
  exporters := []

/-- Writes an entry into the journal. -/
def record (level : Level) (text : String) : Action (Host R) Unit :=
  modify fun h => { h with journal := h.journal ++ [(level, text)] }

/-- Tells the observers' notes of an event. -/
def notify (event : Option Phase → Event R) : Action (Host R) Unit :=
  modify fun h => { h with events := h.events ++ [event h.phase] }

/-- Makes the solver's phase that of aborting, if there is a solver. -/
def markAborting : Action (Host R) Unit :=
  modify fun h => { h with phase := h.phase.map fun _ => .aborting }

def changeFiles (change : Folder → Except FileFault Folder) : Action (Host R) Unit := do
  match change (← get).folder with
  | .ok folder => modify fun h => { h with folder := folder }
  | .error fault => throw (.file fault)

/-- Changes the files; a file that cannot be used is told to the journal, and the answer is whether all went well. -/
def tryFiles (change : Folder → Except FileFault Folder) (complaint : String) : Action (Host R) Bool := do
  match change (← get).folder with
  | .ok folder =>
    modify fun h => { h with folder := folder }
    pure true
  | .error fault =>
    record .error (complaint ++ ": " ++ fault.message)
    pure false

/-- Makes a search with the given knobs and without a program. -/
def newSearch (knobs : Search.Knobs R) : Action (Host R) (Search.Model R) := do
  let h ← get
  let search : Search.Model R := ⟨h.searches + 1, .empty, knobs, none⟩
  set { h with searches := search.serial, latest := some search }
  pure search

/-- Takes note of how a search stands. -/
def publish (search : Search.Model R) : Action (Host R) Unit :=
  modify fun h => if search.serial = h.searches then { h with latest := some search } else h

end Host

end Optima
