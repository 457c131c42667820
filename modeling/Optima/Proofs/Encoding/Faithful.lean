import Optima.Exact.Ranging
import Optima.Proofs.Encoding.Loading

/-!
# Encodings show their models

An encoding is faithful when its engine can be read as the model, place by place, through the names it comes with:
each variable has the column of its number, each row that is neither the goal nor a set has the row of its number
among these, the elements of the matrix and of the objective are the model's coefficients, and the sets are the rows
with a set type, in their order.

Every model that calls lead to and that has a variable is encoded, and the encoding is faithful
(`ofModel_faithful`).  Since the engine is the described one, each part is read off the description.
-/

namespace Optima.Encoding

variable {R : Type} [Scalar R]

/-- An encoding shows its model. -/
structure Faithful (m : Model R) (t : Encoding R) : Prop where
  /-- The columns are those of the variables, numbered in the order of creation. -/
  column : ∀ (vid : Int) (n : Nat), t.naming.column? vid = some n ↔
    0 ≤ vid ∧ ∃ k, m.variableVids[k]? = some vid.toNat ∧ n = k + 1
  columnCount : t.engine.columns.length = m.variableVids.length
  /-- The rows are those of the ordinary rows, numbered in the order of creation. -/
  row : ∀ (vid : Int) (n : Nat), t.naming.row? vid = some n ↔
    0 ≤ vid ∧ ∃ k, (ordinaryRows m)[k]? = some vid.toNat ∧ n = k + 1
  rowCount : t.engine.rows.length = (ordinaryRows m).length
  element : ∀ row ∈ ordinaryRows m, ∀ var ∈ m.variableVids, ∃ r c : Nat,
    t.naming.row? row = some r ∧ t.naming.column? var = some c ∧ t.engine.element r c = .ok (m.coefficient row var)
  objective : ∀ var ∈ m.variableVids, ∃ c : Nat, t.naming.column? var = some c ∧
    t.engine.element 0 c = .ok ((m.goal.map fun g => m.coefficient g.row var).getD Scalar.zero)
  maximize : t.engine.maximize = true ↔ ∃ g, m.goal = some g ∧ g.minimize = false
  setCount : t.engine.sets.length = (setRows m).length
  /-- The sets are the rows with a set type that are not the goal, with their numbers as priorities. -/
  set : ∀ (k row : Nat) (e : Entry R), (setRows m)[k]? = some row → m.entries[row]? = some e →
    ∃ s, t.engine.sets[k]? = some s ∧ s.kind = (if e.sos = .sos1 then 1 else 2) ∧ s.priority = (k + 1 : Nat) ∧
      s.columns.length = s.weights.length ∧
      s.columns.zip s.weights = (m.rowTerms row).map fun (var, x) => (m.variableVids.idxOf var + 1, x)
  integer : ∀ (var : Nat) (e : Entry R), m.entries[var]? = some e → e.isRow = false → ∃ c : Nat,
    t.naming.column? var = some c ∧ (t.engine.column c).map Column.integer = .ok e.integer
  rowMode : t.engine.rowMode = false

theorem number_eq_some {l : List Nat} (hl : l.Nodup) (vid : Int) (n : Nat) :
    (if vid < 0 then none else (numbering l).lookup vid.toNat) = some n ↔
      0 ≤ vid ∧ ∃ k, l[k]? = some vid.toNat ∧ n = k + 1 := by
  by_cases hvid : vid < 0
  · simp [hvid, Int.not_le.2 hvid]
  · rw [if_neg hvid, numbering_lookup hl]
    simp [Int.not_lt.1 hvid]

theorem number_natCast {l : List Nat} (hl : l.Nodup) {k vid : Nat} (h : l[k]? = some vid) :
    (if (vid : Int) < 0 then none else (numbering l).lookup (vid : Int).toNat) = some (k + 1) :=
  (number_eq_some hl vid (k + 1)).2 ⟨by omega, k, h, rfl⟩

section Described

variable (m : Model R) (sentinel : R) (search : Search.Model R)

theorem described_column {k var : Nat} (h : m.variableVids[k]? = some var) :
    (described m sentinel search).column ((k + 1 : Nat) : Int) = .ok (columnAt m sentinel k var) :=
  Engine.column_succ (by simp [described, h])

private theorem described_row {k row : Nat} (h : (ordinaryRows m)[k]? = some row) :
    (described m sentinel search).row ((k + 1 : Nat) : Int) = .ok (rowAt m sentinel k row) :=
  Engine.row_succ (by simp [described, h])

theorem coefficientIn_terms {k var : Nat} (h : m.variableVids[k]? = some var) (row : Nat) :
    Engine.coefficientIn (terms m row) ((k + 1 : Nat) : Int) = m.coefficient row var := by
  have hlookup := terms_lookup row (List.mem_of_getElem? h)
  rw [columnOf_eq h] at hlookup
  rw [Engine.coefficientIn, Int.toNat_natCast, hlookup, Model.coefficient, if_neg (by omega)]
  rfl

end Described

theorem described_faithful {m : Model R} (sentinel : R) (search : Search.Model R) :
    Faithful m ⟨described m sentinel search, namingOf m sentinel⟩ where
  column vid n := number_eq_some (Model.nodup_vidsWhere m _) vid n
  columnCount := by simp [described]
  row vid n := number_eq_some ((Model.nodup_vidsWhere m _).filter _) vid n
  rowCount := by simp [described]
  element row hrow var hvar := by
    obtain ⟨i, hi⟩ := List.mem_iff_getElem?.1 hrow
    obtain ⟨k, hk⟩ := List.mem_iff_getElem?.1 hvar
    refine ⟨i + 1, k + 1, number_natCast ((Model.nodup_vidsWhere m _).filter _) hi,
      number_natCast (Model.nodup_vidsWhere m _) hk, ?_⟩
    rw [Engine.element, described_column m sentinel search hk, described_row m sentinel search hi,
      ← coefficientIn_terms m hk row]
    rfl
  objective var hvar := by
    obtain ⟨k, hk⟩ := List.mem_iff_getElem?.1 hvar
    refine ⟨k + 1, number_natCast (Model.nodup_vidsWhere m _) hk, ?_⟩
    rw [Engine.element, described_column m sentinel search hk]
    cases hg : m.goal with
    | none => simp [described, hg, Engine.coefficientIn]
    | some g =>
      simp only [described, hg, Option.map_some, Option.getD_some]
      rw [← coefficientIn_terms m hk g.row]
      rfl
  maximize := by
    simp [described, Option.any_eq_true]
  setCount := by simp [described]
  set k row e hrow he := by
    refine ⟨setAt m k row, by simp [described, hrow], ?_, rfl, by simp [setAt, setFor], ?_⟩
    · simp [setAt, setFor, he]
    · have hzip : (setAt m k row).columns.zip (setAt m k row).weights = terms m row := by
        simp [setAt, setFor, List.zip_map']
      rw [hzip, terms]
      refine List.map_congr_left fun t ht => ?_
      rw [columnOf_eq_idxOf (mem_rowTerms.1 ht).1]
  integer var e he hvar := by
    obtain ⟨k, hk⟩ := List.mem_iff_getElem?.1 (Model.mem_variableVids.2 ⟨e, he, hvar⟩)
    refine ⟨k + 1, number_natCast (Model.nodup_vidsWhere m _) hk, ?_⟩
    rw [described_column m sentinel search hk, columnAt, he]
    rfl
  rowMode := rfl

/-- A model that calls lead to and that has a variable is encoded, and the encoding shows it. -/
theorem ofModel_faithful {m : Model R} (hm : m.Reachable) (hvar : m.variableVids ≠ []) {infinite : Value R}
    (hinfinite : infinite = .nothing ∨ ∃ x, infinite.toReal = .ok x) (h : Host R) :
    ∃ t h', ofModel m .standard infinite h = .ok t h' ∧ Faithful m t := by
  obtain ⟨sentinel, hsentinel⟩ : ∃ sentinel, sentinelOf infinite = .ok sentinel := by
    rcases hinfinite with rfl | ⟨x, hx⟩
    · exact ⟨_, rfl⟩
    · cases infinite with
      | nothing => cases hx
      | _ => exact ⟨x, hx⟩
  obtain ⟨journal, hrun⟩ := ofModel_run hm.proper hvar hsentinel h
  exact ⟨_, _, hrun, described_faithful sentinel (searchFor h)⟩

theorem ofModel_faithful_mixture :
    (Model.performed Model.mixture).Reachable ∧ (Model.performed Model.mixture).variableVids ≠ [] ∧
      ∃ t h', ofModel (Model.performed Model.mixture) .standard (.integer 1000) (.start (.script []) Exact.ranging) =
        .ok t h' ∧ Faithful (Model.performed Model.mixture) t :=
  ⟨Model.reachable_performed Model.mixture, by decide,
    ofModel_faithful (Model.reachable_performed Model.mixture) (by decide) (.inr ⟨.rat 1000, rfl⟩) _⟩

end Optima.Encoding
