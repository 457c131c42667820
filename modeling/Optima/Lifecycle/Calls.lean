import Optima.Lifecycle.Phase

/-!
# Calls side by side

Any number of calls of `solve` and `shutdown` on one solver, as a transition system. A call is at a stage, and a step
takes one call from its stage to the next. The steps that run under the solver's lock look at the phase and change it
at once; a call that has to wait has no step until the phase lets it go on. What an engine, a factory or an observer
may do is a choice: to go on, to fail, or to ask for an abort.

Engines are numbered in the order in which they are made, and for each one it is counted how often it was told to
solve and how often it was released.
-/

namespace Optima.Lifecycle

/-- Where a call stands. -/
inductive Stage where
  /-- `solve` has been called. -/
  | entering
  /-- About to claim the solver. -/
  | claiming
  /-- Waiting for the call that has claimed the solver. -/
  | awaiting
  /-- Looking whether there is anything to solve. -/
  | checking
  /-- Having an engine made. -/
  | making
  /-- Loading the model into an engine. -/
  | loading (engine : Nat)
  /-- Releasing an engine that could not be loaded. -/
  | dropping (engine : Nat)
  /-- About to keep the engine that has been loaded. -/
  | keeping (engine : Nat)
  /-- Telling the engine the parameters. -/
  | preparing (engine : Nat)
  /-- The engine solves. -/
  | solving (engine : Nat)
  /-- Taking the solution back. -/
  | extracting (engine : Nat)
  /-- About to say that the solve is over. -/
  | settling
  /-- About to say that the solve has failed. -/
  | failing
  /-- `shutdown` has been called. -/
  | closing
  /-- Waiting for the call that disposes of the solver. -/
  | joining
  /-- Waiting for the solve to finish. -/
  | draining
  /-- About to look for the engine. -/
  | releasing
  /-- Releasing the engine. -/
  | deleting (engine : Nat)
  /-- About to forget the engine that has been released. -/
  | clearing
  /-- About to say that the solver has been disposed of. -/
  | finishing
  | returned
  | raised
deriving DecidableEq, Repr

namespace Stage

def isOver : Stage → Bool
  | returned | raised => true
  | _ => false

end Stage

/-- What happens where the solver's code does not decide it. -/
inductive Choice where
  | goesOn
  | fails
  | aborts
deriving DecidableEq, Repr

/-- How often an engine was told to solve and was released. -/
structure EngineLife where
  solves : Nat
  releases : Nat
deriving DecidableEq, Repr

structure Shared where
  phase : Phase
  /-- The engine of the solver's encoding. -/
  encoding : Option Nat
  /-- How often the factory was called. -/
  orders : Nat
  engines : List EngineLife
deriving DecidableEq, Repr

namespace Shared

/-- A solver that has not been called yet. -/
def start : Shared := ⟨.start, none, 0, []⟩

def setPhase (s : Shared) (p : Phase) : Shared :=
  { s with phase := p }

def setEncoding (s : Shared) (engine : Option Nat) : Shared :=
  { s with encoding := engine }

/-- Counts a call of the factory. -/
def countOrder (s : Shared) : Shared :=
  { s with orders := s.orders + 1 }

/-- Adds an engine, which has done nothing yet. -/
def addEngine (s : Shared) : Shared :=
  { s with engines := s.engines ++ [⟨0, 0⟩] }

def countSolve (s : Shared) (engine : Nat) : Shared :=
  { s with engines := s.engines.modify engine fun e => { e with solves := e.solves + 1 } }

def countRelease (s : Shared) (engine : Nat) : Shared :=
  { s with engines := s.engines.modify engine fun e => { e with releases := e.releases + 1 } }

/-- The step of a call at a stage, if it has one: what it makes of what is shared, and its next stage. -/
def step (s : Shared) : Stage → Choice → Option (Shared × Stage)
  | .entering, _ => some (s, if s.phase.isClosing then .returned else .claiming)
  | .claiming, _ =>
    match s.phase.claim? with
    | some p => some (s.setPhase p, .checking)
    | none => some (s, .awaiting)
  | .awaiting, _ => if s.phase.releasesSolve then some (s, .returned) else none
  | .checking, .fails => some (s, .failing)
  | .checking, _ => some (s, .making)
  | .making, .fails => some (s.countOrder, .failing)
  | .making, _ => some (s.countOrder.addEngine, .loading s.engines.length)
  | .loading e, .fails => some (s, .dropping e)
  | .loading e, _ => some (s, .keeping e)
  | .dropping e, _ => some (s.countRelease e, .failing)
  | .keeping e, _ => some (s.setEncoding (some e), .preparing e)
  | .preparing _, .fails => some (s, .failing)
  | .preparing e, _ => some (s.countSolve e, .solving e)
  | .solving _, .fails => some (s, .failing)
  | .solving e, .aborts => some (s.setPhase .aborting, .solving e)
  | .solving e, .goesOn => some (s, .extracting e)
  | .extracting _, .fails => some (s, .failing)
  | .extracting _, _ => some (s, .settling)
  | .settling, _ => some (s.setPhase s.phase.settle, .returned)
  | .failing, _ => some (s.setPhase .aborted, .raised)
  | .closing, _ =>
    match s.phase.closing with
    | .done => some (s, .returned)
    | .joins => some (s, .joining)
    | .waits => some (s, .draining)
    | .proceeds => some (s.setPhase .disposing, .releasing)
  | .joining, _ => if s.phase = .disposed then some (s, .returned) else none
  | .draining, _ => if s.phase.isFinished then some (s.setPhase .disposing, .releasing) else none
  | .releasing, _ =>
    match s.encoding with
    | some e => some (s, .deleting e)
    | none => some (s, .finishing)
  | .deleting e, _ => some (s.countRelease e, .clearing)
  | .clearing, _ => some (s.setEncoding none, .finishing)
  | .finishing, _ => some (s.setPhase .disposed, .returned)
  | .returned, _ | .raised, _ => none

end Shared

/-- What the calls share, and where each of them stands. -/
structure Config extends Shared where
  calls : List Stage
deriving DecidableEq, Repr

namespace Config

/-- A solver that has not been called yet, with calls about to be made. -/
def start (calls : List Stage) : Config := ⟨.start, calls⟩

def step (c : Config) (i : Nat) (choice : Choice) : Option Config := do
  let stage ← c.calls[i]?
  let (shared, next) ← c.toShared.step stage choice
  pure ⟨shared, c.calls.set i next⟩

/-- Lets a call go on, step after step, until it is at a stage that holds it, cannot go on, or has made `fuel`
steps. -/
def advance (c : Config) (i : Nat) (holds : Stage → Bool) : (fuel : Nat) → Config
  | 0 => c
  | fuel + 1 =>
    if (c.calls[i]?).any holds then c
    else match c.step i .goesOn with
      | some c => c.advance i holds fuel
      | none => c

/-- More steps than a call can make without being told to abort. -/
def callLength : Nat := 16

end Config

/-- What two calls look like from outside, the first being held on its way: the phase while it is held, whether the
second one has to wait, and the phase and the number of engines then. -/
structure Meeting where
  before : Phase
  waits : Bool
  after : Phase
  engines : Nat
deriving DecidableEq, Repr

def Config.meet (c : Config) (first second : Stage) (holds : Stage → Bool) : Meeting :=
  let held := ({ c with calls := [first, second] } : Config).advance 0 holds callLength
  let met := held.advance 1 Stage.isOver callLength
  ⟨held.phase, !(met.calls[1]?).any Stage.isOver, met.phase, met.engines.length⟩

end Optima.Lifecycle
