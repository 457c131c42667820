import Optima.Model.Matrix
import Optima.Value.Basic

/-!
# Models

A linear model is a list of entries, each a variable or a row. An entry is named by its place in the list, its vid,
so vids are handed out in the order of creation and stay. Rows carry bounds of their own; a row becomes the objective
when the goal is put on it, and a special-ordered set when it is created with a set type.
-/

namespace Optima

/-- The kind of a special-ordered set. -/
inductive SosType where
  | none
  | sos1
  | sos2
deriving DecidableEq, Repr

instance : Enumeration SosType where
  title := "SosType"
  members := [.none, .sos1, .sos2]
  label
    | .none => "NONE"
    | .sos1 => "SOS1"
    | .sos2 => "SOS2"
  code
    | .none => .number 0
    | .sos1 => .number 1
    | .sos2 => .number 2

/-- Whether a value has been written for an entry. -/
inductive ValueState where
  | invalid
  | defined
deriving DecidableEq, Repr

instance : Enumeration ValueState where
  title := "ValueState"
  members := [.invalid, .defined]
  label
    | .invalid => "INVALID"
    | .defined => "DEFINED"
  code
    | .invalid => .word "INVALID"
    | .defined => .word "DEFINED"

/-- What an entry is. -/
inductive Role where
  | variable (integer ignoresBounds : Bool)
  | row (sos : SosType)
deriving DecidableEq, Repr

def Role.newVariable : Role :=
  .variable false false

/-- A variable or a row. -/
structure Entry (R : Type) where
  key : Value R
  role : Role
  lower : R
  upper : R
  value : R
  state : ValueState
  basic : Bool
deriving Repr

namespace Entry

variable {R : Type}

def isRow (e : Entry R) : Bool :=
  match e.role with
  | .row _ => true
  | .variable .. => false

def sos (e : Entry R) : SosType :=
  match e.role with
  | .row sos => sos
  | .variable .. => .none

def integer (e : Entry R) : Bool :=
  match e.role with
  | .variable integer _ => integer
  | .row _ => false

def ignoresBounds (e : Entry R) : Bool :=
  match e.role with
  | .variable _ ignores => ignores
  | .row _ => false

def keyed (e : Entry R) : Bool :=
  match e.key with
  | .nothing => false
  | _ => true

/-- A new entry: without bounds, and with no value written. -/
def new [Scalar R] (key : Value R) (role : Role) : Entry R where
  key := key
  role := role
  lower := -Scalar.infinity
  upper := Scalar.infinity
  value := Scalar.zero
  state := .invalid
  basic := false

end Entry

/-- The goal of a model: the row that is the objective, and which way it is optimised. -/
structure Goal (R : Type) where
  key : Value R
  row : Nat
  priority : Value R
  minimize : Bool
  enabled : Bool
deriving Repr

structure Model (R : Type) where
  entries : List (Entry R)
  /-- The keys in use, with the vids they name. -/
  names : List (Value R × Nat)
  matrix : Matrix R
  goal : Option (Goal R)
deriving Repr

namespace Model

variable {R : Type}

def empty : Model R := ⟨[], [], .empty, none⟩

/-- The model with one more entry, whose vid is the next one. Its key names it, and the matrix gets a line for it. -/
def append (m : Model R) (e : Entry R) : Model R :=
  { m with
    entries := m.entries ++ [e]
    names := if e.keyed then m.names ++ [(e.key, m.entries.length)] else m.names
    matrix := if e.isRow then m.matrix.addRow m.entries.length else m.matrix.addColumn m.entries.length }

def entry? (m : Model R) (vid : Int) : Option (Entry R) :=
  if vid < 0 then none else m.entries[vid.toNat]?

def entry (m : Model R) (vid : Int) : Except Fault (Entry R) :=
  match m.entry? vid with
  | some e => .ok e
  | none => .error (.unknownVid vid)

def variableEntry (m : Model R) (vid : Int) : Except Fault (Entry R) := do
  let e ← m.entry vid
  if e.isRow then throw (.rowNotVariable vid) else pure e

def rowEntry (m : Model R) (vid : Int) : Except Fault (Entry R) := do
  let e ← m.entry vid
  if e.isRow then pure e else throw (.variableNotRow vid)

/-! ### Listings -/

/-- The vids of the entries with a property, in the order of creation. -/
def vidsWhere (m : Model R) (p : Entry R → Bool) : List Nat :=
  (List.range m.entries.length).filter fun vid => (m.entries[vid]?).any p

def variableVids (m : Model R) : List Nat :=
  m.vidsWhere fun e => !e.isRow

def rowVids (m : Model R) : List Nat :=
  m.vidsWhere Entry.isRow

def vids (m : Model R) : List Nat :=
  List.range m.entries.length

/-- The keys of the entries with a property, in the order of creation. -/
def keysWhere (m : Model R) (p : Entry R → Bool) : List (Value R) :=
  (m.entries.filter p).map Entry.key

/-- The keys in use, in the order of creation. -/
def keys (m : Model R) : List (Value R) :=
  m.names.map Prod.fst

def sosRows (m : Model R) (sos : SosType) : List Nat :=
  m.vidsWhere fun e => e.isRow && e.sos == sos

def goals (m : Model R) : List (Goal R) :=
  m.goal.toList

/-! ### Keys -/

/-- The vid that a key names, if any. -/
def find? [Scalar R] (m : Model R) (key : Value R) : Option Nat :=
  (m.names.find? fun name => name.1.same key).map Prod.snd

/-- The vid that a key names, if any; only values that may be keys can be asked for. -/
def lookup? [Scalar R] (m : Model R) (key : Value R) : Except Fault (Option Nat) :=
  if key.isKey then .ok (m.find? key) else .error .wrongKind

/-- The vid that a key names. -/
def lookup [Scalar R] (m : Model R) (key : Value R) : Except Fault Nat := do
  match ← m.lookup? key with
  | some vid => pure vid
  | none => throw (.unknownKey key.shown)

/-! ### Coefficients -/

/-- The coefficient of a variable in a row, zero where there is none. -/
def coefficient [Scalar R] (m : Model R) (row var : Int) : R :=
  if row < 0 ∨ var < 0 then Scalar.zero else (m.matrix.get? row.toNat var.toNat).getD Scalar.zero

/-- The coefficients of a row, in the order in which the variables were created. -/
def rowTerms (m : Model R) (row : Nat) : List (Nat × R) :=
  m.matrix.rowEntries m.variableVids row

/-- The coefficients of a variable, in the order in which the rows were created. -/
def variableTerms (m : Model R) (var : Nat) : List (Nat × R) :=
  m.matrix.columnEntries m.rowVids var

def rowEntries (m : Model R) (row : Int) : Except Fault (List (Nat × R)) := do
  let _ ← m.rowEntry row
  pure (m.rowTerms row.toNat)

def variableEntries (m : Model R) (var : Int) : Except Fault (List (Nat × R)) := do
  let _ ← m.variableEntry var
  pure (m.variableTerms var.toNat)

def rowEntryCount (m : Model R) (row : Int) : Except Fault Nat := do
  let _ ← m.rowEntry row
  pure (m.matrix.rowCount row.toNat)

def variableEntryCount (m : Model R) (var : Int) : Except Fault Nat := do
  let _ ← m.variableEntry var
  pure (m.matrix.columnCount var.toNat)

/-! ### Questions about the whole model -/

def integerCount (m : Model R) : Nat :=
  (m.entries.filter Entry.integer).length

/-- Whether some row is a special-ordered set. -/
def hasSos (m : Model R) : Bool :=
  m.entries.any fun e => e.isRow && e.sos != .none

/-- Whether solving the model needs a search: some variable is integer or some row is a special-ordered set. -/
def isMixed (m : Model R) : Bool :=
  0 < m.integerCount || m.hasSos

def goalOn? (m : Model R) (vid : Int) : Option (Goal R) :=
  m.goal.filter fun g => (g.row : Int) == vid

def isGoal (m : Model R) (vid : Int) : Bool :=
  (m.goalOn? vid).isSome

/-- The two bounds of an entry. -/
def bounds (m : Model R) (vid : Int) : Except Fault (R × R) := do
  let e ← m.entry vid
  pure (e.lower, e.upper)

/-- A property of an entry that is asked for by name. -/
inductive Property where
  | lowerBound
  | upperBound
deriving DecidableEq, Repr

namespace Property

def name : Property → String
  | lowerBound => "VariableLowerBound"
  | upperBound => "VariableUpperBound"

def ofName? (s : String) : Option Property :=
  [lowerBound, upperBound].find? fun p => p.name == s

end Property

def property (m : Model R) (name : String) (vid : Int) : Except Fault R :=
  match Property.ofName? name with
  | some .lowerBound => (m.bounds vid).map Prod.fst
  | some .upperBound => (m.bounds vid).map Prod.snd
  | none => .error (.unknownProperty name)

end Model

end Optima
