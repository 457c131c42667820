import Optima.Model.Edit

/-!
# Models from plain data

A model given at one stroke: the keys of its variables, its rows with their coefficients and bounds, and perhaps the
coefficients of an objective. Variables start with the bounds zero and infinity, and the objective becomes a row of
its own with the key `objective`.
-/

namespace Optima

/-- Coefficients by the keys of their variables. -/
abbrev Terms (R : Type) := List (Value R × Value R)

/-- Terms with each key once: a key that comes again keeps its place and takes the later coefficient. -/
def Terms.collapse {R : Type} [Scalar R] (terms : Terms R) : Except Fault (Terms R) :=
  terms.foldlM (fun (done : Terms R) (key, value) =>
    if !key.isKey then .error .wrongKind
    else if done.any (·.1.same key) then
      .ok (done.map fun (k, v) => if k.same key then (k, value) else (k, v))
    else .ok (done ++ [(key, value)])) []

/-- A row given by its key, its coefficients and its bounds. -/
structure RowData (R : Type) where
  key : Value R
  terms : Terms R
  lower : Value R
  upper : Value R

namespace Model

variable {R : Type} [Scalar R]

def objectiveKey : Value R := .text "objective"

/-- Sets the coefficients of a row. -/
def setTerms (row : Nat) (terms : Terms R) : Edit R Unit :=
  terms.forM fun (key, value) => do
    let var ← Action.lift ((← get).lookup key)
    setCoefficient row var value

/-- Adds the variables, the rows and the objective, in this order. -/
def fill (keys : List (Value R)) (rows : List (RowData R)) (objective : Option (Terms R))
    (minimize : Value R) : Edit R Unit := do
  keys.forM fun key => do
    let vid ← addVariable key
    setBounds vid (.integer 0) (.real Scalar.infinity)
  rows.forM fun row => do
    let vid ← addRow row.key (.integer 0)
    setBounds vid row.lower row.upper
    setTerms vid row.terms
  match objective with
  | none => pure ()
  | some terms =>
    let vid ← addRow objectiveKey (.integer 0)
    setTerms vid terms
    let _ ← addGoal vid (.integer 0) minimize

/-- The model with the given variables, rows and objective. -/
def assemble (keys : List (Value R)) (rows : List (RowData R)) (objective : Option (Terms R))
    (minimize : Value R) : Except Fault (Model R) :=
  match fill keys rows objective minimize .empty with
  | .ok _ m => .ok m
  | .error fault _ => .error fault

end Model

end Optima
