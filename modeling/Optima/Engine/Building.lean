import Optima.Engine.Basic

/-!
# Building programs in an engine

The operations that change an engine's program. An operation that goes through takes back the program from the
search, so that the next use hands it over anew. Most operations check everything before they write; those that write
in steps keep the steps they took before a fault.
-/

namespace Optima.Engine

variable {R : Type} [Scalar R]

/-- An operation on an engine alone. -/
abbrev Build (R α : Type) := Action (Engine R) α

/-- Notes that the search no longer holds the program. -/
def changed : Build R Unit :=
  modify fun e => { e with loaded := false }

def modifyColumn (col : Int) (f : Column R → Column R) : Build R Unit := do
  let _ ← Action.lift ((← get).column col)
  modify fun e => { e with columns := e.columns.modify (col - 1).toNat f }

def putSetting (s : Setting) (v : Value R) : Build R Unit := do
  let e ← get
  let settings ← Action.lift (e.settings.set s v)
  set { e with settings := settings }

/-- Changes a setting, by name. -/
def setParameter (name : String) (v : Value R) : Build R Unit :=
  match Setting.ofName? name with
  | none => throw (.unknownSetting name)
  | some s => putSetting s v

/-- Sets the size from which on a number counts as infinite. -/
def setInfinite (infinite : Value R) : Build R Unit :=
  putSetting .infinite infinite

def setColumnName (col : Int) (name : String) : Build R Unit := do
  modifyColumn col fun c => { c with name := name }
  changed

/-- Says whether a column is integer. -/
def setInteger (col : Int) (integer : Value R) : Build R Unit := do
  modifyColumn col fun c => { c with integer := integer.truth }
  changed

def writeLower (col : Int) (lower : Value R) : Build R Unit := do
  let x ← Action.lift ((← get).innerOf lower)
  modifyColumn col fun c => { c with lower := x }

def writeUpper (col : Int) (upper : Value R) : Build R Unit := do
  let x ← Action.lift ((← get).innerOf upper)
  modifyColumn col fun c => { c with upper := x }

/-- Sets both bounds of a column, the lower one first. -/
def setBounds (col : Int) (lower upper : Value R) : Build R Unit := do
  let _ ← Action.lift ((← get).column col)
  writeLower col lower
  writeUpper col upper
  changed

def setLower (col : Int) (lower : Value R) : Build R Unit := do
  writeLower col lower
  changed

def setUpper (col : Int) (upper : Value R) : Build R Unit := do
  writeUpper col upper
  changed

/-- Opens a column on both sides. -/
def setUnbounded (col : Int) : Build R Unit := do
  modifyColumn col fun c => { c with lower := -Scalar.infinity, upper := Scalar.infinity }
  changed

/-- Switches the building of whole rows on or off, and says whether that changed anything. -/
def setRowMode (on : Value R) : Build R Bool := do
  let e ← get
  set { e with rowMode := on.truth }
  pure (e.rowMode != on.truth)

/-- Puts a coefficient among entries; a column that is there keeps its place. -/
def putEntry (entries : List (Nat × R)) (col : Nat) (x : R) : List (Nat × R) :=
  if (entries.lookup col).isSome then entries.map fun (c, y) => if c == col then (c, x) else (c, y)
  else entries ++ [(col, x)]

/-- Puts a coefficient and its column among entries. A zero is passed over. -/
def putTerm (e : Engine R) (entries : List (Nat × R)) (term : Value R × Int) : Except Fault (List (Nat × R)) := do
  let _ ← e.column term.2
  if term.1.same (.real Scalar.zero) then pure entries
  else pure (putEntry entries term.2.toNat (← term.1.toReal))

/-- The entries that coefficients and their columns make up. -/
def compact (e : Engine R) (terms : List (Value R × Int)) : Except Fault (List (Nat × R)) :=
  terms.foldlM e.putTerm []

/-- Adds a row and returns its number. -/
def addRow (values : List (Value R)) (columns : List Int) (relation rhs : Value R) : Build R Nat := do
  let e ← get
  match e.defects.row with
  | some text => throw (.failed text)
  | none =>
    let entries ← Action.lift (e.compact (values.zip columns))
    let relation ← Action.lift (relation.toMember Relation)
    let rhs ← Action.lift (e.innerOf rhs)
    let number := e.rows.length + 1
    modify fun e => { e with rows := e.rows ++ [⟨"R" ++ toString number, entries, relation, rhs, none⟩] }
    changed
    pure number

/-- Closes the other side of a row. -/
def setRange (row : Int) (range : Value R) : Build R Unit := do
  let x ← Action.lift ((← get).innerOf range)
  let _ ← Action.lift ((← get).row row)
  modify fun e =>
    { e with rows := e.rows.modify (row - 1).toNat fun r => { r with range := some (Scalar.abs x) } }
  changed

def setObjective (values : List (Value R)) (columns : List Int) : Build R Unit := do
  let entries ← Action.lift ((← get).compact (values.zip columns))
  modify fun e => { e with objective := entries }
  changed

/-- Says which way the objective is optimised. -/
def setSense (maximize : Value R) : Build R Unit := do
  modify fun e => { e with maximize := maximize.truth }
  changed

/-- Sees to it that there is a column of this number. -/
def checkColumn (e : Engine R) (col : Int) : Build R Unit :=
  Action.lift ((e.column col).map fun _ => ⟨⟩)

/-- Adds a special-ordered set and returns the number of sets. -/
def addSet (name : String) (kind priority : Value R) (columns : List Int) (weights : List (Value R)) :
    Build R Nat := do
  let e ← get
  columns.forM e.checkColumn
  let kind ← Action.lift kind.toInteger
  let priority ← Action.lift priority.toInteger
  let weights ← Action.lift (weights.mapM Value.toReal)
  let number := e.sets.length + 1
  let name := if name.isEmpty then "SOS" ++ toString number else name
  modify fun e => { e with sets := e.sets ++ [⟨name, kind, priority, columns.map Int.toNat, weights⟩] }
  changed
  pure number

/-- Says whether a solve that ends well is followed by a ranging pass. -/
def setSensitivity (enabled : Value R) : Build R Unit :=
  modify fun e => { e with wantsSensitivity := enabled.truth }

def setPoller (poller : Option (Poller R)) : Build R Unit :=
  modify fun e => { e with hooks := { e.hooks with poller := poller } }

/-- The next turn of whoever is told of such an event is the one after this. -/
def passTurn (event : Event R) : Build R Unit :=
  modify fun e => { e with hooks := e.hooks.told event }

def setLog (log : Option Observer) : Build R Unit :=
  modify fun e => { e with hooks := { e.hooks with log := log } }

/-- Sets the observers of messages, and the mask of the messages they are told of. -/
def setMessages (message progress : Option Observer) (mask : Value R) : Build R Unit := do
  modify fun e => { e with hooks := { e.hooks with message := message, progress := progress } }
  let mask ← Action.lift mask.toInteger
  modify fun e => { e with hooks := { e.hooks with mask := mask } }

/-- Sets the file to which lines of the log are added. -/
def setLogFile (file : Value R) : Build R Unit :=
  modify fun e => { e with logFile := file }

end Optima.Engine
