import Optima.Proofs.Model.Reachable

/-!
# What the coefficients of a model are

After any calls, the coefficient of a variable in a row is the number that the last call of `setCoefficient` wrote at
this place; calls that stopped with a fault do not count, and where nothing was written it is zero.  The listing of a
row has the coefficients that are not zero, in the order in which the variables were created; the listing of a variable
has the same coefficients, in the order in which the rows were created; and their numbers add up to that of the whole
model (`performed_coefficients`).

The induction is on the calls; `Change.get?` says what a single call does at one place.
-/

namespace Optima.Model

open Line (kept)

variable {R : Type} [Scalar R]

/-! ### The last number written at a place -/

/-- The number that has been written, if it was at a place. -/
def Effect.at? (row var : Nat) : Effect R → Option R
  | .wrote r v x => if r = row ∧ v = var then some x else none
  | _ => none

/-- The last number among those written at a place. -/
def lastAmong (row var : Nat) (es : List (Effect R)) : Option R :=
  (es.filterMap (Effect.at? row var)).getLast?

/-- The number that the last call of `setCoefficient` wrote at a place, among those that went through. -/
def lastWritten (row var : Nat) (calls : List (Call R)) : Option R :=
  lastAmong row var (effects calls)

omit [Scalar R] in
theorem lastAmong_concat (row var : Nat) (es : List (Effect R)) (e : Effect R) :
    lastAmong row var (es ++ [e]) = (e.at? row var).or (lastAmong row var es) := by
  rw [lastAmong, filterMap_concat]
  cases e.at? row var with
  | none => rw [Option.toList_none, List.append_nil, Option.none_or, lastAmong]
  | some x => rw [Option.toList_some, List.getLast?_concat, Option.some_or]

/-! ### The coefficient at a place -/

omit [Scalar R] in
theorem get?_append (m : Model R) (e : Entry R) (row var : Nat) :
    (m.append e).matrix.get? row var = m.matrix.get? row var := by
  unfold append
  cases e.isRow with
  | true => simp only [↓reduceIte, Matrix.get?, Matrix.addRow, Lines.line_append]
  | false => rfl

/-- What one call does at a place. -/
theorem Change.get? {m n : Model R} {e : Effect R} (hm : m.Proper) (h : Change m e n) {row var : Nat}
    {last : Option R} (hlast : m.matrix.get? row var = last.bind kept) :
    n.matrix.get? row var = ((e.at? row var).or last).bind kept := by
  cases h with
  | coefficient r v hr hv x =>
    rw [Matrix.get?_set (hm.matrix.rowLines.symm ▸ hr)]
    by_cases hplace : r = row ∧ v = var
    · obtain ⟨rfl, rfl⟩ := hplace
      simp [Effect.at?]
    · have hother : (row == r && var == v) = false := by
        rw [Bool.and_eq_false_iff, beq_eq_false_iff_ne, beq_eq_false_iff_ne]
        omega
      simp [Effect.at?, hother, hplace, hlast]
  | add key role hkey hnew hrole => exact (get?_append ..).trans hlast
  | _ => exact hlast

theorem get?_performed (calls : List (Call R)) (row var : Nat) :
    (performed calls).matrix.get? row var = (lastWritten row var calls).bind kept := by
  refine performed_induct (p := fun es m => m.matrix.get? row var = (lastAmong row var es).bind kept) rfl ?_ calls
  intro es m n e hm hlast hchange
  rw [lastAmong_concat]
  exact hchange.get? hm.proper hlast

/-- A number other than zero was the last one written at a place. -/
def Stands (calls : List (Call R)) (row var : Nat) (x : R) : Prop :=
  lastWritten row var calls = some x ∧ Scalar.same x Scalar.zero = false

theorem get?_eq_some {calls : List (Call R)} {row var : Nat} {x : R} :
    (performed calls).matrix.get? row var = some x ↔ Stands calls row var x := by
  rw [get?_performed, Option.bind_eq_some_iff]
  constructor
  · rintro ⟨y, hy, hkept⟩
    obtain ⟨rfl, hx⟩ := Line.kept_eq_some.1 hkept
    exact ⟨hy, hx⟩
  · exact fun h => ⟨x, h.1, Line.kept_eq_some.2 ⟨rfl, h.2⟩⟩

/-! ### Listings -/

section Listings

omit [Scalar R]

variable {m : Model R}

theorem rowEntries_ok {row : Nat} (h : row ∈ m.rowVids) : m.rowEntries row = .ok (m.rowTerms row) := by
  obtain ⟨e, he⟩ := mem_rowVids.1 h
  rw [rowEntries, rowEntry_eq_ok.2 ⟨Int.natCast_nonneg row, he⟩]
  rfl

theorem variableEntries_ok {var : Nat} (h : var ∈ m.variableVids) :
    m.variableEntries var = .ok (m.variableTerms var) := by
  obtain ⟨e, he⟩ := mem_variableVids.1 h
  rw [variableEntries, variableEntry_eq_ok.2 ⟨Int.natCast_nonneg var, he⟩]
  rfl

theorem rowEntryCount_ok {row : Nat} (h : row ∈ m.rowVids) : m.rowEntryCount row = .ok (m.matrix.rowCount row) := by
  obtain ⟨e, he⟩ := mem_rowVids.1 h
  rw [rowEntryCount, rowEntry_eq_ok.2 ⟨Int.natCast_nonneg row, he⟩]
  rfl

theorem variableEntryCount_ok {var : Nat} (h : var ∈ m.variableVids) :
    m.variableEntryCount var = .ok (m.matrix.columnCount var) := by
  obtain ⟨e, he⟩ := mem_variableVids.1 h
  rw [variableEntryCount, variableEntry_eq_ok.2 ⟨Int.natCast_nonneg var, he⟩]
  rfl

end Listings

/-- Answers that are all there can be collected. -/
private theorem mapM_ok {f : Nat → Except Fault Nat} {g : Nat → Nat} {l : List Nat} (h : ∀ n ∈ l, f n = .ok (g n)) :
    l.mapM f = .ok (l.map g) := by
  induction l with
  | nil => rfl
  | cons n l ih =>
    rw [List.mapM_cons, h n (List.mem_cons_self ..), ih fun k hk => h k (List.mem_cons_of_mem _ hk)]
    rfl

/-- The coefficients of a model are those that were last written. -/
structure Records (calls : List (Call R)) (m : Model R) : Prop where
  coefficient : ∀ row ∈ m.rowVids, ∀ var ∈ m.variableVids,
    m.coefficient row var = ((lastWritten row var calls).bind kept).getD Scalar.zero
  /-- A row is listed with the variables in the order of creation. -/
  rowListing : ∀ row ∈ m.rowVids, ∃ terms, m.rowEntries row = .ok terms ∧ (terms.map Prod.fst).Nodup ∧
    (terms.map Prod.fst).Sublist m.variableVids ∧ ∀ var x, (var, x) ∈ terms ↔ Stands calls row var x
  /-- A variable is listed with the rows in the order of creation. -/
  variableListing : ∀ var ∈ m.variableVids, ∃ terms, m.variableEntries var = .ok terms ∧ (terms.map Prod.fst).Nodup ∧
    (terms.map Prod.fst).Sublist m.rowVids ∧ ∀ row x, (row, x) ∈ terms ↔ Stands calls row var x
  rowCounts : ∃ counts, m.rowVids.mapM (fun row : Nat => m.rowEntryCount row) = .ok counts ∧
    m.matrix.count = counts.sum
  variableCounts : ∃ counts, m.variableVids.mapM (fun var : Nat => m.variableEntryCount var) = .ok counts ∧
    m.matrix.count = counts.sum

/-- After any calls, all questions about the coefficients of the model are answered by what was last written. -/
theorem performed_coefficients (calls : List (Call R)) : Records calls (performed calls) := by
  have hsound := (reachable_performed calls).proper.matrix
  have hrows : (performed calls).rowVids.Nodup := nodup_vidsWhere _ _
  have hvariables : (performed calls).variableVids.Nodup := nodup_vidsWhere _ _
  refine ⟨?_, ?_, ?_, ?_, ?_⟩
  · intro row _ var _
    rw [Model.coefficient, if_neg (by omega), Int.toNat_natCast, Int.toNat_natCast, get?_performed]
  · intro row hrow
    have hsub := (performed calls).matrix.rowEntries_sublist (performed calls).variableVids row
    refine ⟨_, rowEntries_ok hrow, hsub.nodup hvariables, hsub, fun var x => ?_⟩
    rw [rowTerms, Matrix.mem_rowEntries, ← get?_eq_some]
    exact ⟨fun h => h.2, fun h => ⟨(hsound.inside h).2, h⟩⟩
  · intro var hvar
    have hsub := (performed calls).matrix.columnEntries_sublist (performed calls).rowVids var
    refine ⟨_, variableEntries_ok hvar, hsub.nodup hrows, hsub, fun row x => ?_⟩
    rw [variableTerms, Matrix.mem_columnEntries, hsound.agree, ← get?_eq_some]
    exact ⟨fun h => h.2, fun h => ⟨(hsound.inside h).1, h⟩⟩
  · exact ⟨_, mapM_ok fun row hrow => rowEntryCount_ok hrow, hsound.count_rows hrows⟩
  · exact ⟨_, mapM_ok fun var hvar => variableEntryCount_ok hvar, hsound.count_columns hrows hvariables⟩

end Optima.Model
