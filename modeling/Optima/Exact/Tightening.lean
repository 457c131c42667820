import Optima.Exact.Tableau

/-!
# Tightening bounds

A row leaves each of its columns only what the other ones cannot make up for, so the bounds of the others, and those of
the row, imply bounds for a column. A column that gains a bound may let the next one gain, and rows can go on tightening
each other in ever smaller steps. Bounds are therefore moved only for gains above the tolerance, and what is left of
the steps is not made. Every bound that is found is implied, so no point of the program is lost.
-/

namespace Optima.Exact

/-- The size up to which a difference does not count. -/
def tolerance : Rat := 1 / 1000000

def size (x : Rat) : Rat :=
  if x < 0 then -x else x

namespace Bounds

def scale (b : Bounds) (a : Rat) : Bounds :=
  if 0 ≤ a then ⟨b.lower.map (a * ·), b.upper.map (a * ·)⟩
  else ⟨b.upper.map (a * ·), b.lower.map (a * ·)⟩

def add (b c : Bounds) : Bounds where
  lower := b.lower.bind fun x => c.lower.map (x + ·)
  upper := b.upper.bind fun x => c.upper.map (x + ·)

def whole (b : Bounds) : Bounds where
  lower := b.lower.map fun x => x.ceil
  upper := b.upper.map fun x => x.floor

def gain (b tighter : Bounds) : Bounds where
  lower := match b.lower, tighter.lower with
    | some x, some y => some (if x + tolerance < y then y else x)
    | x, y => x.or y
  upper := match b.upper, tighter.upper with
    | some x, some y => some (if y + tolerance < x then y else x)
    | x, y => x.or y

end Bounds

/-- What the terms of a row can add up to. -/
def reach (columns : List Bounds) (terms : List (Nat × Rat)) : Bounds :=
  (terms.map fun (j, a) => (columns.getD j ⟨none, none⟩).scale a).foldl Bounds.add ⟨some 0, some 0⟩

/-- The bounds that a row implies for a column with a coefficient other than zero. -/
def impliedBounds (columns : List Bounds) (row : Bounds × List (Nat × Rat)) (j : Nat) (a : Rat) : Bounds :=
  let others := reach columns (row.2.filter (·.1 != j))
  (row.1.add (others.scale (-1))).scale (1 / a)

def tightenRow (integers : List Nat) (columns : List Bounds) (row : Bounds × List (Nat × Rat)) : List Bounds :=
  row.2.foldl (fun columns (j, a) =>
    if a = 0 then columns
    else
      let implied := impliedBounds columns row j a
      columns.modify j (·.gain (if integers.contains j then implied.whole else implied))) columns

/-- Goes through the rows, round after round, until no bound gains. -/
def tightenRounds (integers : List Nat) (rows : List (Bounds × List (Nat × Rat))) :
    (rounds : Nat) → List Bounds → List Bounds
  | 0, columns => columns
  | rounds + 1, columns =>
    let next := rows.foldl (tightenRow integers) columns
    if next = columns then columns else tightenRounds integers rows rounds next

/-- How many rounds are made at most. -/
def maxRounds : Nat := 200

/-- The program with tighter bounds for its columns, some of which are integer. -/
def Problem.tighten (p : Problem) (integers : List Nat) : Problem :=
  { p with columns := tightenRounds integers p.rows maxRounds p.columns }

end Optima.Exact
