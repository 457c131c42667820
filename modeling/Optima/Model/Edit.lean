import Optima.Model.Basic

/-!
# Editing models

The operations that change a model. Each looks up what it is given, converts it and checks it before it writes, so
an operation that stops with a fault has written nothing.
-/

namespace Optima.Model

variable {R : Type} [Scalar R]

abbrev Edit (R α : Type) := Action (Model R) α

/-- Adds an entry. A key that is in use returns the vid it names instead. -/
def add (key : Value R) (role : Role) : Edit R Nat := do
  let m ← get
  let known ← Action.lift (m.lookup? key)
  match known with
  | some vid => pure vid
  | none =>
    set (m.append (Entry.new key role))
    pure m.entries.length

/-- Adds a variable and returns its vid. -/
def addVariable (key : Value R) : Edit R Nat :=
  add key .newVariable

/-- Adds a row, perhaps as a special-ordered set, and returns its vid. -/
def addRow (key sos : Value R) : Edit R Nat := do
  let sos ← Action.lift (sos.toMember SosType)
  add key (.row sos)

def modifyEntry (vid : Int) (f : Entry R → Entry R) : Edit R Unit :=
  modify fun m => { m with entries := m.entries.modify vid.toNat f }

/-- Sets both bounds of an entry. An infinite bound is no bound. -/
def setBounds (vid : Int) (lower upper : Value R) : Edit R Unit := do
  let lower ← Action.lift lower.toReal
  let upper ← Action.lift upper.toReal
  if Scalar.isNaN lower || Scalar.isNaN upper then throw (.boundIsNaN vid)
  if Scalar.lt upper lower then throw (.boundsCrossed vid (Scalar.text lower) (Scalar.text upper))
  let _ ← Action.lift ((← get).entry vid)
  modifyEntry vid fun e => { e with lower := lower, upper := upper }

/-- Sets the lower bound of an entry. -/
def setLower (vid : Int) (lower : Value R) : Edit R Unit := do
  let e ← Action.lift ((← get).entry vid)
  setBounds vid lower (.real e.upper)

/-- Sets the upper bound of an entry. -/
def setUpper (vid : Int) (upper : Value R) : Edit R Unit := do
  let e ← Action.lift ((← get).entry vid)
  setBounds vid (.real e.lower) upper

def setIgnoresBounds (vid : Int) (ignores : Value R) : Edit R Unit := do
  let e ← Action.lift ((← get).variableEntry vid)
  modifyEntry vid fun old => { old with role := .variable e.integer ignores.truth }

/-- Says whether a variable is integer. -/
def setInteger (vid : Int) (integer : Value R) : Edit R Unit := do
  let e ← Action.lift ((← get).variableEntry vid)
  modifyEntry vid fun old => { old with role := .variable integer.truth e.ignoresBounds }

/-- Says whether an entry is basic. -/
def setBasic (vid : Int) (basic : Value R) : Edit R Unit := do
  let _ ← Action.lift ((← get).entry vid)
  modifyEntry vid fun e => { e with basic := basic.truth }

/-- Writes the value of an entry. -/
def setValue (vid : Int) (value : Value R) : Edit R Unit := do
  let _ ← Action.lift ((← get).entry vid)
  let value ← Action.lift value.toReal
  modifyEntry vid fun e => { e with value := value, state := .defined }

/-- Sets the coefficient of a variable in a row; zero removes it. -/
def setCoefficient (row var : Int) (value : Value R) : Edit R Unit := do
  let m ← get
  let _ ← Action.lift (m.rowEntry row)
  let _ ← Action.lift (m.variableEntry var)
  let value ← Action.lift value.toReal
  set { m with matrix := m.matrix.set row.toNat var.toNat value }

/-- Makes a row the objective. A model has one goal at most. -/
def addGoal (vid : Int) (priority minimize : Value R) : Edit R (Goal R) := do
  let m ← get
  let e ← Action.lift (m.rowEntry vid)
  if m.goal.isSome then throw .secondGoal
  let goal : Goal R := ⟨e.key, vid.toNat, priority, minimize.truth, true⟩
  set { m with goal := some goal }
  pure goal

/-- Takes the goal off a row, and says whether it was there. -/
def removeGoal (vid : Int) : Edit R Bool := do
  let m ← get
  if m.isGoal vid then
    set { m with goal := none }
    pure true
  else pure false

def clearGoals : Edit R Unit :=
  modify fun m => { m with goal := none }

def setProperty (name : String) (vid : Int) (value : Value R) : Edit R Unit :=
  match Property.ofName? name with
  | some .lowerBound => setLower vid value
  | some .upperBound => setUpper vid value
  | none => throw (.unknownProperty name)

end Optima.Model
