import Optima.Lifecycle.Phase
import Optima.Value.Basic

/-!
# Events

What the observers of a solve are told. Every event carries the phase of the solver at the moment the observer is
called, if there is a solver.
-/

namespace Optima

/-- The kinds of message an engine can send. Each has a bit of its own in a mask. -/
inductive Message where
  | presolve
  | iteration
  | invert
  | lpFeasible
  | lpOptimal
  | lpEqual
  | lpBetter
  | milpFeasible
  | milpEqual
  | milpBetter
deriving DecidableEq, Repr

namespace Message

def bit : Message → Nat
  | presolve => 0
  | iteration => 1
  | invert => 2
  | lpFeasible => 3
  | lpOptimal => 4
  | lpEqual => 5
  | lpBetter => 6
  | milpFeasible => 7
  | milpEqual => 8
  | milpBetter => 9

/-- Whether a mask lets a message through. The bits of a negative number are those of its complement to a power of
two. -/
def passes (m : Message) (mask : Int) : Bool :=
  (mask.emod (Nat.pow 2 10)).toNat.testBit m.bit

/-- The mask that lets these messages through. -/
def mask (messages : List Message) : Int :=
  messages.foldl (fun sum m => sum + Nat.pow 2 m.bit) 0

instance : Enumeration Message where
  title := "MessageMask"
  members := [.presolve, .iteration, .invert, .lpFeasible, .lpOptimal, .lpEqual, .lpBetter, .milpFeasible, .milpEqual,
    .milpBetter]
  label
    | .presolve => "PRESOLVE"
    | .iteration => "ITERATION"
    | .invert => "INVERT"
    | .lpFeasible => "LPFEASIBLE"
    | .lpOptimal => "LPOPTIMAL"
    | .lpEqual => "LPEQUAL"
    | .lpBetter => "LPBETTER"
    | .milpFeasible => "MILPFEASIBLE"
    | .milpEqual => "MILPEQUAL"
    | .milpBetter => "MILPBETTER"
  code m := .number (Nat.pow 2 m.bit)

/-- A mask without the bits of a sign: a negative one is counted back from a power of two that has room for it and
for all messages. -/
def unsigned (mask : Int) : Nat :=
  if 0 ≤ mask then mask.toNat else (mask + max (Nat.pow 2 10) (Nat.pow 2 (mask.natAbs.log2 + 1))).toNat

/-- The label of a mask: those of its messages, and the number that its other bits make up. A mask without messages
has none. -/
def maskLabel (mask : Int) : Option String :=
  let n := unsigned mask
  let labels := ((Enumeration.members (E := Message)).filter fun m => n.testBit m.bit).map Enumeration.label
  let rest := n / Nat.pow 2 10 * Nat.pow 2 10
  if labels.isEmpty then none
  else some ("|".intercalate (labels ++ if rest = 0 then [] else [toString rest]))

end Message

/-- What an observer was told. -/
inductive Event (R : Type) where
  | log (text : String) (phase : Option Phase)
  | message (m : Message) (phase : Option Phase)
  | progress (phase : Option Phase)
  /-- An answer to the question whether to abort; there is none when the observer failed. -/
  | poll (answer : Option (Value R)) (phase : Option Phase)
  /-- A call of an exporter that was registered. -/
  | exported (exporter file : String) (options results : Value R) (phase : Option Phase)
deriving Repr

/-- What is left of the answers that somebody gives in order, when the next one has been given. The last one is given
again. -/
def leftAfter {α : Type} : List α → List α
  | _ :: answer :: rest => answer :: rest
  | answers => answers

/-- What an observer makes of an event: it takes note, or takes note and fails. -/
inductive Reply where
  | notes
  | fails (text : String)
deriving DecidableEq, Repr

/-- Who is told of the events of one kind. The replies are given in order, and the last one is given again. -/
structure Observer where
  replies : List Reply
deriving DecidableEq, Repr

namespace Observer

/-- What is made of the next event. An observer without replies takes note. -/
def reply (o : Observer) : Reply :=
  o.replies.headD .notes

/-- The observer when it has been told of an event. -/
def next (o : Observer) : Observer :=
  ⟨leftAfter o.replies⟩

end Observer

/-- An answer to the question whether to abort, or a failure to answer. -/
inductive Poll (R : Type) where
  | answers (v : Value R)
  | fails (text : String)
deriving Repr

/-- Who is asked whether to abort. The answers are given in order, and the last one is given again. -/
structure Poller (R : Type) where
  polls : List (Poll R)
  /-- Whether a poll that says yes puts the solver into the phase of aborting. -/
  marks : Bool
deriving Repr

namespace Poller

variable {R : Type}

/-- The answer that is given next. -/
def answer? (p : Poller R) : Option (Poll R) :=
  p.polls.head?

/-- The poller when it has been asked. -/
def next (p : Poller R) : Poller R :=
  { p with polls := leftAfter p.polls }

end Poller

end Optima
