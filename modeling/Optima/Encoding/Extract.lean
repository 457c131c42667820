import Optima.Model.Edit
import Optima.Encoding.Basic

/-!
# Taking a solution back

A solution lists the objective, the activities of the rows and the values of the columns. Taking it back writes the
value of every variable, of every row that has a number, and of the goal; sets keep what they had.
-/

namespace Optima.Encoding

variable {R : Type} [Scalar R]

def writeValue (solution : List (Total R)) (vid place : Nat) : Model.Edit R Unit :=
  match solution[place]? with
  | some x => Model.setValue vid (.real x.value)
  | none => throw .pastEnd

def writeSolution (e : Engine R) (naming : Naming R) (solution : List (Total R)) : Model.Edit R Unit := do
  naming.columns.forM fun (vid, column) => writeValue solution vid (e.rows.length + column)
  naming.rows.forM fun (vid, row) => writeValue solution vid row
  (← get).goals.forM fun goal => Model.setValue goal.row (.real e.results.objective.value)

/-- Writes the solution of an engine into a model, if it has one; says whether it has. -/
def extract (e : Engine R) (naming : Naming R) : Model.Edit R Bool := do
  match e.results.solution with
  | none => pure false
  | some solution =>
    writeSolution e naming solution
    pure true

end Optima.Encoding

