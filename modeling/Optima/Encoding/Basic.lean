import Optima.Engine.Building
import Optima.Model.Basic

/-!
# Encoding models

A model names variables and rows by vids, an engine names columns and rows by numbers. An encoding is an engine that
has been loaded with a model, together with the two maps between the names. Variables become columns in the order of
their creation. The row with the goal becomes the objective, rows with a set type become special-ordered sets, and
every other row becomes a row with the next number.
-/

namespace Optima

/-- The names of a model's variables and rows in an engine. -/
structure Naming (R : Type) where
  /-- The columns of the variables. -/
  columns : List (Nat × Nat)
  /-- The rows of the rows that are neither goals nor sets. -/
  rows : List (Nat × Nat)
  /-- The size from which on a number counted as infinite when the engine was loaded. -/
  sentinel : R
deriving Repr

namespace Naming

variable {R : Type}

def column? (n : Naming R) (vid : Int) : Option Nat :=
  if vid < 0 then none else n.columns.lookup vid.toNat

def row? (n : Naming R) (vid : Int) : Option Nat :=
  if vid < 0 then none else n.rows.lookup vid.toNat

end Naming

/-- An engine loaded with a model. -/
structure Encoding (R : Type) where
  engine : Engine R
  naming : Naming R

/-- How the engine for an encoding is made. -/
inductive Factory where
  | makes (defects : Engine.Defects)
  | makesNone
  | fails (reason : String)
deriving DecidableEq, Repr

def Factory.standard : Factory := .makes .none

namespace Encoding

variable {R : Type} [Scalar R]

def columnMap (m : Model R) : List (Nat × Nat) :=
  m.variableVids.mapIdx fun i vid => (vid, i + 1)

/-- The coefficients of a row, and their columns. -/
def compact (m : Model R) (row : Nat) : List (Value R) × List Int :=
  let terms := m.rowTerms row
  (terms.map fun (_, x) => .real x,
    terms.map fun (var, _) => (((columnMap m).lookup var).getD 0 : Nat))

def loadBounds (column : Int) (v : Entry R) : Engine.Build R Unit :=
  if v.ignoresBounds then Engine.setUnbounded column
  else if Scalar.isInfinite v.lower then do
    Engine.setUnbounded column
    if !Scalar.isInfinite v.upper then Engine.setUpper column (.real v.upper)
  else if Scalar.isInfinite v.upper then Engine.setLower column (.real v.lower)
  else Engine.setBounds column (.real v.lower) (.real v.upper)

def loadColumn (column : Int) (v : Entry R) : Engine.Build R Unit := do
  loadBounds column v
  if v.integer then Engine.setInteger column (.flag true)

def loadVariable (m : Model R) (vid column : Nat) : Engine.Build R Unit :=
  match m.entries[vid]? with
  | some v => loadColumn column v
  | none => pure ()

/-- Loads the variables, in order. -/
def loadColumns (m : Model R) : Engine.Build R Unit :=
  (columnMap m).forM fun place => loadVariable m place.1 place.2

def loadObjective (m : Model R) (goal : Goal R) : Engine.Build R Unit := do
  Engine.setSense (.flag !goal.minimize)
  let (values, columns) := compact m goal.row
  Engine.setObjective values columns

/-- Loads a row and returns its number. A row with two different limits has a range, and a row without limits has an
infinite right-hand side. -/
def loadRow (m : Model R) (row : Nat) (e : Entry R) (sentinel : R) : Engine.Build R Nat := do
  let (values, columns) := compact m row
  let add (relation : Relation) (rhs : R) := Engine.addRow values columns (.ofMember relation) (.real rhs)
  match Scalar.isInfinite e.lower, Scalar.isInfinite e.upper with
  | false, false =>
    if Scalar.same e.lower e.upper then add .equal e.upper
    else
      let number ← add .atMost e.upper
      Engine.setRange number (.real (e.upper - e.lower))
      pure number
  | false, true => add .atLeast e.lower
  | true, false => add .atMost e.upper
  | true, true => add .atMost sentinel

def loadSet (m : Model R) (row number : Nat) (sos : SosType) : Engine.Build R Unit := do
  let (weights, columns) := compact m row
  let kind := if sos = .sos1 then 1 else 2
  let _ ← Engine.addSet ("SOS" ++ toString number) (.integer kind) (.integer number) columns weights

/-- What has been loaded of the rows: the numbers of the ordinary ones, and how many sets. -/
structure Progress where
  rows : List (Nat × Nat)
  sets : Nat
deriving DecidableEq, Repr

def loadEntry (m : Model R) (sentinel : R) (done : Progress) (row : Nat) : Engine.Build R Progress := do
  match m.entries[row]? with
  | none => pure done
  | some e =>
    match m.goalOn? row with
    | some goal =>
      loadObjective m goal
      pure done
    | none =>
      if e.sos = .none then
        let number ← loadRow m row e sentinel
        pure { done with rows := done.rows ++ [(row, number)] }
      else
        loadSet m row (done.sets + 1) e.sos
        pure { done with sets := done.sets + 1 }

/-- Sets the size from which on a number counts as infinite; nothing leaves the engine its own. -/
def setSentinel (infinite : Value R) : Engine.Build R Unit :=
  match infinite with
  | .nothing => pure ()
  | v => Engine.setInfinite v

/-- Loads a model and returns the names of its variables and rows, and the number of its sets. -/
def loadModel (m : Model R) (infinite : Value R) : Engine.Build R (Naming R × Nat) := do
  setSentinel infinite
  let sentinel := (← get).sentinel
  let _ ← Engine.setRowMode (.flag true)
  loadColumns m
  let done ← m.rowVids.foldlM (loadEntry m sentinel) ⟨[], 0⟩
  let _ ← Engine.setRowMode (.flag false)
  pure (⟨columnMap m, done.rows, sentinel⟩, done.sets)

def makeEngine (factory : Factory) (columns : Nat) : Action (Host R) (Engine R) :=
  match factory with
  | .makes defects => Engine.create columns defects
  | .makesNone => throw (.noEngineMade none)
  | .fails reason => throw (.noEngineMade (some reason))

/-- Encodes a model. The model has to have a variable. -/
def ofModel (m : Model R) (factory : Factory) (infinite : Value R) : Action (Host R) (Encoding R) := do
  if m.variableVids.isEmpty then throw .emptyModel
  let engine ← makeEngine factory m.variableVids.length
  match loadModel m infinite engine with
  | .error fault _ => throw fault
  | .ok (naming, sets) engine =>
    Host.record .debug ("Translated " ++ toString naming.columns.length ++ " columns, "
      ++ toString naming.rows.length ++ " rows, " ++ toString sets ++ " SOS constraints")
    pure ⟨engine, naming⟩

end Encoding

end Optima
