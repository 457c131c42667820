import Mathlib.Algebra.GroupWithZero.Nat
import Optima.Model.Matrix
import Optima.Proofs.Lookup

/-!
# The two sides of a matrix

A matrix is sound for some rows and columns when its two sides agree: there is a line for each of the rows and one for
each of the columns, a coefficient stands in the line of its row exactly when it stands in the line of its column, no
line has two coefficients at one place, and no coefficient is zero.  Putting a coefficient at a place of a sound
matrix, taking it away, and adding a row or a column give sound matrices (`Sound.set`, `Sound.addRow`,
`Sound.addColumn`).

In a sound matrix the coefficients can be counted by rows or by columns (`Sound.count_rows`, `Sound.count_columns`).
-/

namespace Optima

variable {R : Type}

/-! ### Lines -/

namespace Line

theorem lookup_put (l : Line R) (place : Nat) (x : R) (p : Nat) :
    (l.put place x).lookup p = if p == place then some x else l.lookup p := by
  unfold put
  by_cases hold : (l.lookup place).isSome = true
  · rw [if_pos hold, lookup_mapAt l place fun _ => x]
    split
    · next h =>
      obtain ⟨y, hy⟩ := Option.isSome_iff_exists.1 hold
      rw [eq_of_beq h, hy]
      rfl
    · rfl
  · rw [if_neg hold, List.lookup_append, List.lookup_cons, List.lookup_nil]
    rw [Bool.not_eq_true, Option.isSome_eq_false_iff, Option.isNone_iff_eq_none] at hold
    cases hp : p == place with
    | true => rw [eq_of_beq hp, hold, if_pos rfl, Option.none_or]
    | false => rw [if_neg (by simp), Option.or_none]

theorem lookup_erase (l : Line R) (place p : Nat) :
    (l.erase place).lookup p = if p == place then none else l.lookup p := by
  unfold erase
  induction l with
  | nil => simp
  | cons c l ih =>
    by_cases hc : c.1 = place
    · have hdrop : ¬(c.1 != place) = true := by simp [hc]
      rw [List.filter_cons, if_neg hdrop, ih, List.lookup_cons, hc]
      cases p == place <;> rfl
    · have hkeep : (c.1 != place) = true := by simp [hc]
      rw [List.filter_cons, if_pos hkeep, List.lookup_cons, List.lookup_cons, ih]
      by_cases hp : p = c.1
      · subst hp
        simp [hc]
      · have hne : (p == c.1) = false := by simpa using hp
        rw [hne]

/-- What a line keeps of a coefficient: nothing of a zero. -/
def kept [Scalar R] (x : R) : Option R :=
  if Scalar.same x Scalar.zero then none else some x

theorem kept_eq_some [Scalar R] {x y : R} : kept x = some y ↔ x = y ∧ Scalar.same y Scalar.zero = false := by
  unfold kept
  by_cases h : Scalar.same x Scalar.zero = true
  · rw [if_pos h]
    constructor
    · intro heq
      cases heq
    · rintro ⟨rfl, hne⟩
      rw [h] at hne
      cases hne
  · rw [if_neg h, Option.some.injEq]
    exact ⟨fun heq => ⟨heq, heq ▸ Bool.not_eq_true _ ▸ h⟩, fun h => h.1⟩

theorem lookup_write [Scalar R] (l : Line R) (place : Nat) (x : R) (p : Nat) :
    (l.write place x).lookup p = if p == place then kept x else l.lookup p := by
  unfold write kept
  split
  · exact lookup_erase l place p
  · exact lookup_put l place x p

theorem nodup_put {l : Line R} (h : (l.map Prod.fst).Nodup) (place : Nat) (x : R) :
    ((l.put place x).map Prod.fst).Nodup := by
  unfold put
  by_cases hold : (l.lookup place).isSome = true
  · rw [if_pos hold, map_fst_mapAt l place fun _ => x]
    exact h
  · rw [if_neg hold, List.map_append]
    rw [lookup_isSome] at hold
    exact List.nodup_append.2 ⟨h, by simp, by simpa using fun p q hq heq => hold (by simpa using ⟨q, heq ▸ hq⟩)⟩

theorem nodup_erase {l : Line R} (h : (l.map Prod.fst).Nodup) (place : Nat) :
    ((l.erase place).map Prod.fst).Nodup :=
  h.sublist (List.filter_sublist.map _)

theorem nodup_write [Scalar R] {l : Line R} (h : (l.map Prod.fst).Nodup) (place : Nat) (x : R) :
    ((l.write place x).map Prod.fst).Nodup := by
  unfold write
  split
  · exact nodup_erase h place
  · exact nodup_put h place x

end Line

namespace Lines

theorem line_append (s : Lines R) (n k : Nat) : line (s ++ [(n, [])]) k = s.line k := by
  unfold line
  rw [List.lookup_append, List.lookup_cons, List.lookup_nil]
  cases s.lookup k with
  | some l => rfl
  | none => cases k == n <;> rfl

theorem line_modify {s : Lines R} {n : Nat} (h : n ∈ s.map Prod.fst) (f : Line R → Line R) (k : Nat) :
    (s.modify n f).line k = if k == n then f (s.line n) else s.line k := by
  unfold line modify
  rw [lookup_mapAt]
  split
  · next hk =>
    obtain ⟨l, hl⟩ := Option.isSome_iff_exists.1 (lookup_isSome.2 h)
    rw [eq_of_beq hk, hl]
    rfl
  · rfl

theorem modify_fst (s : Lines R) (n : Nat) (f : Line R → Line R) : (s.modify n f).map Prod.fst = s.map Prod.fst :=
  map_fst_mapAt s n f

theorem mem_of_lookup {s : Lines R} {n p : Nat} {x : R} (h : (s.line n).lookup p = some x) : n ∈ s.map Prod.fst := by
  rw [← lookup_isSome]
  unfold line at h
  cases hn : s.lookup n with
  | some l => rfl
  | none =>
    rw [hn] at h
    cases h

end Lines

namespace Matrix

/-! ### Listings -/

theorem mem_rowEntries {a : Matrix R} {columns : List Nat} {row column : Nat} {x : R} :
    (column, x) ∈ a.rowEntries columns row ↔ column ∈ columns ∧ a.get? row column = some x := by
  simp only [rowEntries, List.mem_filterMap, Option.map_eq_some_iff, Prod.mk.injEq]
  constructor
  · rintro ⟨c, hc, y, hy, rfl, rfl⟩
    exact ⟨hc, hy⟩
  · rintro ⟨hc, hx⟩
    exact ⟨column, hc, x, hx, rfl, rfl⟩

theorem mem_columnEntries {a : Matrix R} {rows : List Nat} {row column : Nat} {x : R} :
    (row, x) ∈ a.columnEntries rows column ↔ row ∈ rows ∧ a.columnGet? row column = some x := by
  simp only [columnEntries, List.mem_filterMap, Option.map_eq_some_iff, Prod.mk.injEq]
  constructor
  · rintro ⟨r, hr, y, hy, rfl, rfl⟩
    exact ⟨hr, hy⟩
  · rintro ⟨hr, hx⟩
    exact ⟨row, hr, x, hx, rfl, rfl⟩

/-- A listing goes through the places it is made for in their order, and passes over those without a coefficient. -/
private theorem listing_sublist (f : Nat → Option R) (l : List Nat) :
    ((l.filterMap fun n => (f n).map (n, ·)).map Prod.fst).Sublist l := by
  induction l with
  | nil => exact .slnil
  | cons n l ih =>
    rw [List.filterMap_cons]
    cases f n with
    | none => exact ih.cons n
    | some x => exact ih.cons_cons n

theorem rowEntries_sublist (a : Matrix R) (columns : List Nat) (row : Nat) :
    ((a.rowEntries columns row).map Prod.fst).Sublist columns :=
  listing_sublist _ columns

theorem columnEntries_sublist (a : Matrix R) (rows : List Nat) (column : Nat) :
    ((a.columnEntries rows column).map Prod.fst).Sublist rows :=
  listing_sublist _ rows

/-! ### Writing -/

open Line (kept)

variable [Scalar R]

/-- The two sides of a matrix agree, and they are those of the rows and the columns. -/
structure Sound (a : Matrix R) (rows columns : List Nat) : Prop where
  rowLines : a.rows.map Prod.fst = rows
  columnLines : a.columns.map Prod.fst = columns
  agree : ∀ row column, a.columnGet? row column = a.get? row column
  rowNodup : ∀ row, ((a.rows.line row).map Prod.fst).Nodup
  columnNodup : ∀ column, ((a.columns.line column).map Prod.fst).Nodup
  nonzero : ∀ {row column : Nat} {x : R}, a.get? row column = some x → Scalar.same x Scalar.zero = false

theorem get?_set {a : Matrix R} {row : Nat} (hrow : row ∈ a.rows.map Prod.fst) (column : Nat) (x : R) (r c : Nat) :
    (a.set row column x).get? r c = if r == row && c == column then kept x else a.get? r c := by
  unfold get? set
  rw [Lines.line_modify hrow]
  by_cases hr : r = row
  · subst hr
    rw [if_pos BEq.rfl, Line.lookup_write, BEq.rfl, Bool.true_and]
  · have hne : (r == row) = false := by simpa using hr
    rw [hne, Bool.false_and]
    rfl

theorem columnGet?_set {a : Matrix R} {column : Nat} (hcolumn : column ∈ a.columns.map Prod.fst) (row : Nat) (x : R)
    (r c : Nat) :
    (a.set row column x).columnGet? r c = if r == row && c == column then kept x else a.columnGet? r c := by
  unfold columnGet? set
  rw [Lines.line_modify hcolumn]
  by_cases hc : c = column
  · subst hc
    rw [if_pos BEq.rfl, Line.lookup_write, BEq.rfl, Bool.and_true]
  · have hne : (c == column) = false := by simpa using hc
    rw [hne, Bool.and_false]
    rfl

namespace Sound

theorem empty : (Matrix.empty : Matrix R).Sound [] [] where
  rowLines := rfl
  columnLines := rfl
  agree _ _ := rfl
  rowNodup _ := .nil
  columnNodup _ := .nil
  nonzero h := by cases h

variable {a : Matrix R} {rows columns : List Nat}

theorem addRow (h : a.Sound rows columns) (row : Nat) : (a.addRow row).Sound (rows ++ [row]) columns where
  rowLines := by simp [Matrix.addRow, h.rowLines]
  columnLines := h.columnLines
  agree r c := by
    rw [get?, Matrix.addRow, Lines.line_append]
    exact h.agree r c
  rowNodup r := by
    rw [Matrix.addRow, Lines.line_append]
    exact h.rowNodup r
  columnNodup := h.columnNodup
  nonzero := by
    intro r c x hx
    rw [get?, Matrix.addRow, Lines.line_append] at hx
    exact h.nonzero hx

theorem addColumn (h : a.Sound rows columns) (column : Nat) :
    (a.addColumn column).Sound rows (columns ++ [column]) where
  rowLines := h.rowLines
  columnLines := by simp [Matrix.addColumn, h.columnLines]
  agree r c := by
    rw [columnGet?, Matrix.addColumn, Lines.line_append]
    exact h.agree r c
  rowNodup := h.rowNodup
  columnNodup c := by
    rw [Matrix.addColumn, Lines.line_append]
    exact h.columnNodup c
  nonzero := h.nonzero

theorem set (h : a.Sound rows columns) {row column : Nat} (hrow : row ∈ rows) (hcolumn : column ∈ columns) (x : R) :
    (a.set row column x).Sound rows columns := by
  rw [← h.rowLines] at hrow
  rw [← h.columnLines] at hcolumn
  exact {
    rowLines := (Lines.modify_fst a.rows row (·.write column x)).trans h.rowLines
    columnLines := (Lines.modify_fst a.columns column (·.write row x)).trans h.columnLines
    agree := fun r c => by rw [columnGet?_set hcolumn, get?_set hrow, h.agree]
    rowNodup := fun r => by
      rw [Matrix.set, Lines.line_modify hrow]
      split
      · exact Line.nodup_write (h.rowNodup row) ..
      · exact h.rowNodup r
    columnNodup := fun c => by
      rw [Matrix.set, Lines.line_modify hcolumn]
      split
      · exact Line.nodup_write (h.columnNodup column) ..
      · exact h.columnNodup c
    nonzero := fun hx => by
      rw [get?_set hrow] at hx
      split at hx
      · exact (Line.kept_eq_some.1 hx).2
      · exact h.nonzero hx }

/-! ### Counting -/

theorem inside (h : a.Sound rows columns) {row column : Nat} {x : R} (hx : a.get? row column = some x) :
    row ∈ rows ∧ column ∈ columns := by
  refine ⟨h.rowLines ▸ Lines.mem_of_lookup hx, ?_⟩
  rw [← h.agree] at hx
  exact h.columnLines ▸ Lines.mem_of_lookup hx

/-- A row has as many coefficients as there are columns with a coefficient in it. -/
theorem rowCount_eq (h : a.Sound rows columns) (hcolumns : columns.Nodup) (row : Nat) :
    a.rowCount row = columns.countP fun column => (a.get? row column).isSome := by
  have hperm : ((a.rows.line row).map Prod.fst).Perm (columns.filter fun column => (a.get? row column).isSome) := by
    refine (List.perm_ext_iff_of_nodup (h.rowNodup row) (hcolumns.filter _)).2 fun column => ?_
    rw [← lookup_isSome, List.mem_filter]
    refine ⟨fun hsome => ?_, fun hmem => hmem.2⟩
    obtain ⟨x, hx⟩ := Option.isSome_iff_exists.1 hsome
    exact ⟨(h.inside hx).2, hsome⟩
  rw [rowCount, ← List.length_map Prod.fst, hperm.length_eq, List.countP_eq_length_filter]

/-- The same for a column. -/
theorem columnCount_eq (h : a.Sound rows columns) (hrows : rows.Nodup) (column : Nat) :
    a.columnCount column = rows.countP fun row => (a.get? row column).isSome := by
  have hperm : ((a.columns.line column).map Prod.fst).Perm (rows.filter fun row => (a.get? row column).isSome) := by
    refine (List.perm_ext_iff_of_nodup (h.columnNodup column) (hrows.filter _)).2 fun row => ?_
    rw [← lookup_isSome, List.mem_filter, ← h.agree]
    refine ⟨fun hsome => ?_, fun hmem => hmem.2⟩
    obtain ⟨x, hx⟩ := Option.isSome_iff_exists.1 hsome
    exact ⟨(h.inside ((h.agree row column).symm.trans hx)).1, hsome⟩
  rw [columnCount, ← List.length_map Prod.fst, hperm.length_eq, List.countP_eq_length_filter]

theorem count_rows (h : a.Sound rows columns) (hrows : rows.Nodup) : a.count = (rows.map a.rowCount).sum := by
  have hkeys : (a.rows.map Prod.fst).Nodup := h.rowLines.symm ▸ hrows
  have hlines : a.rows.map (fun l => l.2.length) = rows.map a.rowCount := by
    rw [← h.rowLines, List.map_map]
    refine List.map_congr_left fun l hl => ?_
    rw [Function.comp_apply, rowCount, Lines.line, (lookup_eq_some_iff_mem hkeys).2 hl]
    rfl
  rw [← hlines, List.sum_eq_foldl_nat, List.foldl_map]
  rfl

private theorem sum_map_add_ite (q : Nat → Bool) (f : Nat → Nat) (l : List Nat) :
    (l.map fun n => f n + if q n = true then 1 else 0).sum = (l.map f).sum + l.countP q := by
  induction l with
  | nil => rfl
  | cons n l ih =>
    rw [List.map_cons, List.sum_cons, ih, List.map_cons, List.sum_cons, List.countP_cons]
    omega

/-- Places can be counted row by row or column by column. -/
private theorem sum_countP_comm (p : Nat → Nat → Bool) (rows columns : List Nat) :
    (rows.map fun row => columns.countP (p row)).sum = (columns.map fun column => rows.countP (p · column)).sum := by
  induction rows with
  | nil => simp
  | cons row rows ih =>
    rw [List.map_cons, List.sum_cons, ih]
    simp only [List.countP_cons]
    rw [sum_map_add_ite, Nat.add_comm]

theorem count_columns (h : a.Sound rows columns) (hrows : rows.Nodup) (hcolumns : columns.Nodup) :
    a.count = (columns.map a.columnCount).sum := by
  have hrow : a.rowCount = fun row => columns.countP fun column => (a.get? row column).isSome :=
    funext (h.rowCount_eq hcolumns)
  have hcolumn : a.columnCount = fun column => rows.countP fun row => (a.get? row column).isSome :=
    funext (h.columnCount_eq hrows)
  rw [h.count_rows hrows, hrow, hcolumn]
  exact sum_countP_comm ..

end Sound

end Matrix

end Optima
