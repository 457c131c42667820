import Optima.Encoding.Basic

/-!
# Sensitivity reports

The duals and limits that an engine holds, asked for by vids. A range is a value with the limits between which the
basis stays optimal; numbers whose size is that of the sentinel or more are reported as infinities. Vids that have no
place in the engine get zeros.
-/

namespace Optima

/-- A value and the limits between which it may change. -/
structure SensitivityRange (R : Type) where
  current : R
  lower : R
  upper : R
deriving Repr

/-- An engine's duals and limits, with the names of a model's variables and rows. -/
structure SensitivityReport (R : Type) where
  engine : Engine R
  naming : Naming R

namespace SensitivityReport

variable {R : Type} [Scalar R]

/-- The range of what has no place in the engine. -/
def nowhere : SensitivityRange R := ⟨Scalar.zero, Scalar.zero, Scalar.zero⟩

/-- Whether a number counts as infinite. -/
def isInfinite (s : SensitivityReport R) (x : R) : Bool :=
  Scalar.le s.naming.sentinel (Scalar.abs x)

def normalize (s : SensitivityReport R) (x : R) : R :=
  if s.isInfinite x then Scalar.copySign Scalar.infinity x else x

def entryAt (xs : List R) (place : Nat) : Except Fault R :=
  match xs[place - 1]? with
  | some x => .ok x
  | none => .error .pastEnd

def limits (s : SensitivityReport R) (arrays : Option (List R × List R)) (place : Nat) : Except Fault (R × R) := do
  match arrays with
  | none => pure (-Scalar.infinity, Scalar.infinity)
  | some (lowers, uppers) =>
    let lower ← entryAt lowers place
    let upper ← entryAt uppers place
    pure (if Scalar.le lower (-s.naming.sentinel) then -Scalar.infinity else lower,
      if Scalar.le s.naming.sentinel upper then Scalar.infinity else upper)

def objectiveRange (s : SensitivityReport R) (vid : Int) : Except Fault (SensitivityRange R) := do
  match s.naming.column? vid with
  | none => pure nowhere
  | some column =>
    let (lower, upper) ← s.limits (s.engine.results.sensitivity.map fun a => (a.costLowers, a.costUppers)) column
    pure ⟨s.normalize (← s.engine.element 0 column), lower, upper⟩

/-- The bound of a variable that is not the lower one: the upper one, or whichever of the two is finite, or their
sum when both are. -/
def boundSum (s : SensitivityReport R) (lower upper : R) : R :=
  match s.isInfinite lower, s.isInfinite upper with
  | true, true => Scalar.zero
  | true, false => upper
  | false, true => lower
  | false, false => lower + upper

/-- Whether a dual says that the lower side is the binding one, the objective being minimised. -/
def bindsBelow (s : SensitivityReport R) (dual : R) : Bool :=
  let sign : R := if s.engine.maximize then -Scalar.one else Scalar.one
  Scalar.le Scalar.zero (dual * sign)

def bindingSide (s : SensitivityReport R) (row : Nat) (dual : Except Fault R) : Except Fault R := do
  let relation := (← s.engine.row row).relation
  let width ← s.engine.rhsRange row
  let rhs ← s.engine.rhs row
  let ranged := Scalar.lt width s.naming.sentinel
  pure (if s.bindsBelow (← dual) then if relation = .atMost && ranged then rhs - width else rhs
    else if relation = .atLeast && ranged then rhs + width else rhs)

def bindingBound (s : SensitivityReport R) (column : Nat) (dual : Except Fault R) : Except Fault R := do
  let lower ← s.engine.lowerBound column
  let upper ← s.engine.upperBound column
  pure (if s.bindsBelow (← dual) then lower else s.boundSum lower upper)

/-- The range of a value that binds; `place` is where its dual and its limits are. -/
def rangeAt (s : SensitivityReport R) (place : Nat) (current : Except Fault R → Except Fault R) :
    Except Fault (SensitivityRange R) := do
  match s.engine.results.sensitivity with
  | none =>
    let (lower, upper) ← s.limits none place
    pure ⟨s.normalize Scalar.zero, lower, upper⟩
  | some a =>
    let current ← current (entryAt a.duals place)
    let (lower, upper) ← s.limits (some (a.lowers, a.uppers)) place
    pure ⟨s.normalize current, lower, upper⟩

/-- The range of the binding right-hand side of a row, or of the binding bound of a variable. -/
def variableRange (s : SensitivityReport R) (vid : Int) : Except Fault (SensitivityRange R) :=
  match s.naming.row? vid, s.naming.column? vid with
  | some row, _ => s.rangeAt row (s.bindingSide row)
  | none, some column => s.rangeAt (s.engine.rows.length + column) (s.bindingBound column)
  | none, none => .ok nowhere

/-- The dual of a row, or the reduced cost of a variable; zero when there is none. -/
def dual (s : SensitivityReport R) (vid : Int) : R :=
  match s.naming.row? vid, s.naming.column? vid with
  | some row, _ => s.engine.dual row
  | none, some column => s.engine.dual ((column + s.engine.rows.length : Nat) : Int)
  | none, none => Scalar.zero

end SensitivityReport

end Optima
