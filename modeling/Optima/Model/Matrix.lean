import Optima.Number.Scalar

/-!
# Sparse matrices

The coefficients of a model, kept twice: each row has a line with the coefficients of its columns, and each column a
line with those of its rows, so that both can be listed without a search.  A coefficient is put into two lines and
taken out of two lines.  No coefficient is zero.

Rows and columns are named by numbers.  A line has no order of its own; a listing is made in an order that the caller
gives.
-/

namespace Optima

/-- The coefficients of one row by columns, or of one column by rows. -/
abbrev Line (R : Type) := List (Nat × R)

namespace Line

variable {R : Type}

/-- Puts a coefficient at a place of a line, in place of the one that is there. -/
def put (l : Line R) (place : Nat) (x : R) : Line R :=
  if (l.lookup place).isSome then l.map fun c => if c.1 == place then (place, x) else c else l ++ [(place, x)]

/-- The line without the coefficient at a place. -/
def erase (l : Line R) (place : Nat) : Line R :=
  l.filter fun c => c.1 != place

/-- Writes a coefficient at a place of a line; zero leaves the place empty. -/
def write [Scalar R] (l : Line R) (place : Nat) (x : R) : Line R :=
  if Scalar.same x Scalar.zero then l.erase place else l.put place x

end Line

/-- Lines by the numbers of their rows, or of their columns. -/
abbrev Lines (R : Type) := List (Nat × Line R)

namespace Lines

variable {R : Type}

/-- The line with a number; without coefficients if there is none. -/
def line (s : Lines R) (n : Nat) : Line R :=
  (s.lookup n).getD []

/-- Changes the line with a number. -/
def modify (s : Lines R) (n : Nat) (f : Line R → Line R) : Lines R :=
  s.map fun p => if p.1 == n then (n, f p.2) else p

end Lines

structure Matrix (R : Type) where
  rows : Lines R
  columns : Lines R
deriving Repr

namespace Matrix

variable {R : Type}

def empty : Matrix R := ⟨[], []⟩

/-- Gives a new row a line. -/
def addRow (a : Matrix R) (row : Nat) : Matrix R :=
  { a with rows := a.rows ++ [(row, [])] }

/-- Gives a new column a line. -/
def addColumn (a : Matrix R) (column : Nat) : Matrix R :=
  { a with columns := a.columns ++ [(column, [])] }

/-- The coefficient at a place, if there is one, out of the line of the row. -/
def get? (a : Matrix R) (row column : Nat) : Option R :=
  (a.rows.line row).lookup column

/-- The coefficient at a place, if there is one, out of the line of the column. -/
def columnGet? (a : Matrix R) (row column : Nat) : Option R :=
  (a.columns.line column).lookup row

/-- Puts a coefficient at a place, on both sides; zero leaves the place empty. -/
def set [Scalar R] (a : Matrix R) (row column : Nat) (value : R) : Matrix R where
  rows := a.rows.modify row (·.write column value)
  columns := a.columns.modify column (·.write row value)

def rowEntries (a : Matrix R) (columns : List Nat) (row : Nat) : List (Nat × R) :=
  columns.filterMap fun column => (a.get? row column).map (column, ·)

def columnEntries (a : Matrix R) (rows : List Nat) (column : Nat) : List (Nat × R) :=
  rows.filterMap fun row => (a.columnGet? row column).map (row, ·)

/-- The number of coefficients of a row. -/
def rowCount (a : Matrix R) (row : Nat) : Nat :=
  (a.rows.line row).length

/-- The number of coefficients of a column. -/
def columnCount (a : Matrix R) (column : Nat) : Nat :=
  (a.columns.line column).length

/-- The number of coefficients. -/
def count (a : Matrix R) : Nat :=
  a.rows.foldl (fun n line => n + line.2.length) 0

end Matrix

end Optima
