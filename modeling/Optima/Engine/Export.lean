import Optima.Engine.Basic
import Optima.Export.Data

/-!
# Views of an engine

Two views of all that an engine holds: plain data, and a listing to be read by people.
-/

namespace Optima.Engine

variable {R : Type} [Scalar R]

/-- Coefficients by columns, as data. -/
def entriesData (entries : List (Nat × R)) : Data R :=
  .record (entries.map fun (col, x) => (toString col, .real x))

def columnData (e : Engine R) (c : Column R) : Data R :=
  .record [("name", .text c.name), ("lower", .real (e.outer c.lower)), ("upper", .real (e.outer c.upper)),
    ("integer", .flag c.integer)]

def rowData (e : Engine R) (r : Row R) : Data R :=
  .record [("name", .text r.name), ("type", .text (Enumeration.label r.relation)), ("rh", .real (e.outer r.rhs)),
    ("range", match r.range with | none => .nothing | some x => .real (e.outer x)),
    ("entries", entriesData r.entries)]

def setData (s : OrderedSet R) : Data R :=
  .record [("name", .text s.name), ("type", .integer s.kind), ("priority", .integer s.priority),
    ("columns", .list (s.columns.map fun col => .integer (col : Nat))), ("weights", .list (s.weights.map .real))]

def resultsData (r : Results R) : Data R :=
  .record [("status", .text (Enumeration.label r.verdict)), ("objective", .ofTotal r.objective),
    ("solution", match r.solution with | none => .nothing | some xs => .list (xs.map .ofTotal))]

/-- The program as data, and with `withResults` also what the last solve found. -/
def toData (e : Engine R) (withResults : Bool) : Data R :=
  .record ([("sense", .text (if e.maximize then "max" else "min")), ("objective", entriesData e.objective),
      ("columns", .list (e.columns.map e.columnData)), ("rows", .list (e.rows.map e.rowData)),
      ("sos", .list (e.sets.map setData))]
    ++ if withResults then [("results", resultsData e.results)] else [])

/-! ### Listing -/

/-- Coefficients by columns, in a line. -/
def entriesText (entries : List (Nat × R)) : String :=
  "\x7b" ++ ", ".intercalate (entries.map fun (col, x) => toString col ++ ": " ++ Scalar.text x) ++ "\x7d"

/-- The columns of a set with their weights, in a line. -/
def weightsText (s : OrderedSet R) : String :=
  "[" ++ ", ".intercalate ((s.columns.zip s.weights).map fun (col, w) =>
    "(" ++ toString col ++ ", " ++ Scalar.text w ++ ")") ++ "]"

def columnLine (e : Engine R) (number : Nat) (c : Column R) : String :=
  "C" ++ toString number ++ " " ++ c.name ++ " " ++ (if c.integer then "int" else "real") ++ " ["
    ++ Scalar.text (e.outer c.lower) ++ ", " ++ Scalar.text (e.outer c.upper) ++ "]"

def rowLine (number : Nat) (r : Row R) : String :=
  "R" ++ toString number ++ " " ++ r.name ++ " " ++ Enumeration.label r.relation ++ " " ++ Scalar.text r.rhs
    ++ (match r.range with | none => "" | some x => " range " ++ Scalar.text x) ++ " " ++ entriesText r.entries

def setLine (s : OrderedSet R) : String :=
  s.name ++ " type " ++ toString s.kind ++ " priority " ++ toString s.priority ++ " " ++ weightsText s

def listingLines (e : Engine R) : List String :=
  ["Model: " ++ toString e.columns.length ++ " columns, " ++ toString e.rows.length ++ " rows, "
      ++ toString e.sets.length ++ " SOS",
    "Sense: " ++ (if e.maximize then "maximize" else "minimize"),
    "Objective: " ++ entriesText e.objective]
  ++ e.columns.mapIdx (fun i c => e.columnLine (i + 1) c)
  ++ e.rows.mapIdx (fun i r => rowLine (i + 1) r)
  ++ e.sets.map setLine
  ++ Setting.all.map (fun s => s.name ++ "=" ++ (e.settings.get s).written)
  ++ ["Status: " ++ Enumeration.label e.results.verdict]

/-- Everything an engine holds, line by line. -/
def listing (e : Engine R) : String :=
  "\n".intercalate e.listingLines ++ "\n"

end Optima.Engine
