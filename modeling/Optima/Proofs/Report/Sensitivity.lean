import Optima.Engine.Ranging
import Optima.Proofs.Encoding.Faithful
import Optima.Report.Sensitivity

/-!
# Sensitivity reports speak about the right vids

There are three numberings between a vid and a number of a ranging answer: the place of the vid among the variables or
the ordinary rows, the column or row of an engine, and the place in the engine's arrays, where the rows come before the
columns.  For an engine that holds a model and has kept the answer to its own ranging problem, they fit together: what
the report says of a vid is what the answer has at the place of the vid, and all other vids get zeros (`speaks`).
-/

namespace Optima

variable {R : Type}

/-! ### Answers of the size of their problem -/

namespace Ranging

/-- A value for each row and for each column of a problem. -/
structure Values.Fits (v : Values R) (p : Problem R) : Prop where
  rows : v.rows.length = p.rows.length
  columns : v.columns.length = p.columns.length

instance (v : Values R) (p : Problem R) : Decidable (v.Fits p) :=
  decidable_of_iff (v.rows.length = p.rows.length ∧ v.columns.length = p.columns.length)
    ⟨fun ⟨h, k⟩ => ⟨h, k⟩, fun ⟨h, k⟩ => ⟨h, k⟩⟩

/-- An answer whose arrays have the sizes of a problem. -/
structure Answer.Fits (a : Answer R) (p : Problem R) : Prop where
  duals : a.duals.Fits p
  lowers : a.lowers.Fits p
  uppers : a.uppers.Fits p
  costLowers : a.costLowers.length = p.columns.length
  costUppers : a.costUppers.length = p.columns.length

instance (a : Answer R) (p : Problem R) : Decidable (a.Fits p) :=
  decidable_of_iff (a.duals.Fits p ∧ a.lowers.Fits p ∧ a.uppers.Fits p ∧ a.costLowers.length = p.columns.length ∧
      a.costUppers.length = p.columns.length)
    ⟨fun ⟨h, k, l, m, n⟩ => ⟨h, k, l, m, n⟩, fun ⟨h, k, l, m, n⟩ => ⟨h, k, l, m, n⟩⟩

/-- The values of rows and columns in one list, rows first. -/
def Values.joined (v : Values R) : List R :=
  v.rows ++ v.columns

theorem Values.Fits.row {v : Values R} {p : Problem R} (h : v.Fits p) {i : Nat} (hi : i < p.rows.length) :
    ∃ x, v.rows[i]? = some x ∧ v.joined[i]? = some x := by
  have hi' : i < v.rows.length := h.rows ▸ hi
  refine ⟨v.rows[i], List.getElem?_eq_getElem hi', ?_⟩
  rw [joined, List.getElem?_append_left hi', List.getElem?_eq_getElem hi']

theorem Values.Fits.column {v : Values R} {p : Problem R} (h : v.Fits p) {j : Nat} (hj : j < p.columns.length) :
    ∃ x, v.columns[j]? = some x ∧ v.joined[p.rows.length + j]? = some x := by
  have hj' : j < v.columns.length := h.columns ▸ hj
  refine ⟨v.columns[j], List.getElem?_eq_getElem hj', ?_⟩
  rw [joined, ← h.rows, List.getElem?_append_right (by omega), Nat.add_sub_cancel_left,
    List.getElem?_eq_getElem hj']

end Ranging

namespace Encoding

/-! ### Names of vids -/

section Naming

variable {m : Model R} (sentinel : R)

theorem row?_ordinary {i row : Nat} (hrow : (ordinaryRows m)[i]? = some row) :
    (namingOf m sentinel).row? row = some (i + 1) :=
  number_natCast ((Model.nodup_vidsWhere m _).filter _) hrow

theorem column?_variable {j var : Nat} (hvar : m.variableVids[j]? = some var) :
    (namingOf m sentinel).column? var = some (j + 1) :=
  number_natCast (Model.nodup_vidsWhere m _) hvar

private theorem number_eq_none {l : List Nat} (hl : l.Nodup) {vid : Int} (hvid : ∀ v ∈ l, vid ≠ v) :
    (if vid < 0 then none else (numbering l).lookup vid.toNat) = none := by
  refine Option.eq_none_iff_forall_ne_some.2 fun n hn => ?_
  obtain ⟨hpos, k, hk, -⟩ := (number_eq_some hl vid n).1 hn
  exact hvid _ (List.mem_of_getElem? hk) (Int.toNat_of_nonneg hpos).symm

theorem row?_eq_none {vid : Int} (hvid : ∀ row ∈ ordinaryRows m, vid ≠ row) : (namingOf m sentinel).row? vid = none :=
  number_eq_none ((Model.nodup_vidsWhere m _).filter _) hvid

theorem column?_eq_none {vid : Int} (hvid : ∀ var ∈ m.variableVids, vid ≠ var) :
    (namingOf m sentinel).column? vid = none :=
  number_eq_none (Model.nodup_vidsWhere m _) hvid

/-- A variable is not an ordinary row. -/
theorem row?_variable {j var : Nat} (hvar : m.variableVids[j]? = some var) : (namingOf m sentinel).row? var = none := by
  refine row?_eq_none sentinel fun row hrow hsame => ?_
  obtain rfl : var = row := Int.ofNat_inj.1 hsame
  exact m.variableVids_disjoint (List.mem_of_getElem? hvar) (List.mem_of_mem_filter hrow)

end Naming

variable [Scalar R]

/-! ### Engines that hold a model -/

/-- An engine with the columns, rows and objective of a model. -/
structure Held (m : Model R) (e : Engine R) : Prop where
  columns : e.columns = m.variableVids.mapIdx (columnAt m e.sentinel)
  rows : e.rows = (ordinaryRows m).mapIdx (rowAt m e.sentinel)
  objective : e.objective = (m.goal.map fun g => terms m g.row).getD []

/-- The coefficient of a variable in the goal; zero without a goal. -/
def goalCoefficient (m : Model R) (var : Nat) : R :=
  (m.goal.map fun g => m.coefficient g.row var).getD Scalar.zero

namespace Held

variable {m : Model R} {e : Engine R}

theorem columnCount (h : Held m e) : e.columns.length = m.variableVids.length := by
  simp [h.columns]

theorem rowCount (h : Held m e) : e.rows.length = (ordinaryRows m).length := by
  simp [h.rows]

theorem column (h : Held m e) {j var : Nat} (hvar : m.variableVids[j]? = some var) :
    e.column ((j + 1 : Nat) : Int) = .ok (columnAt m e.sentinel j var) :=
  Engine.column_succ (by simp [h.columns, hvar])

theorem row (h : Held m e) {i row : Nat} (hrow : (ordinaryRows m)[i]? = some row) :
    e.row ((i + 1 : Nat) : Int) = .ok (rowAt m e.sentinel i row) :=
  Engine.row_succ (by simp [h.rows, hrow])

theorem cost (h : Held m e) {j var : Nat} (hvar : m.variableVids[j]? = some var) :
    Engine.coefficientIn e.objective ((j + 1 : Nat) : Int) = goalCoefficient m var := by
  rw [h.objective, goalCoefficient]
  cases m.goal with
  | none => rfl
  | some g => exact coefficientIn_terms m hvar g.row

theorem element (h : Held m e) {j var : Nat} (hvar : m.variableVids[j]? = some var) :
    e.element 0 ((j + 1 : Nat) : Int) = .ok (goalCoefficient m var) := by
  rw [Engine.element, h.column hvar, ← h.cost hvar]
  rfl

end Held

end Encoding

variable [Scalar R]

/-! ### What a report says -/

namespace SensitivityReport

/-- A limit from below as a report gives it. -/
def lowerLimit (sentinel x : R) : R :=
  let y := if Scalar.le sentinel (Scalar.abs x) then Scalar.copySign sentinel x else x
  if Scalar.le y (-sentinel) then -Scalar.infinity else y

/-- A limit from above as a report gives it. -/
def upperLimit (sentinel x : R) : R :=
  let y := if Scalar.le sentinel (Scalar.abs x) then Scalar.copySign sentinel x else x
  if Scalar.le sentinel y then Scalar.infinity else y

/-- A range with these limits, read off an answer. -/
def HasLimits (s : SensitivityReport R) (range : SensitivityRange R) (lower upper : Option R) : Prop :=
  lower.map (lowerLimit s.naming.sentinel) = some range.lower ∧
    upper.map (upperLimit s.naming.sentinel) = some range.upper

/-- The ordinary row at a place: how it was handed over, and what the report says of it. -/
structure SpeaksOfRow (m : Model R) (p : Ranging.Problem R) (a : Ranging.Answer R) (s : SensitivityReport R)
    (i row : Nat) : Prop where
  native : s.engine.row ((i + 1 : Nat) : Int) = .ok (Encoding.rowAt m s.naming.sentinel i row)
  handedOver : p.rows[i]? = some ⟨(Encoding.rowAt m s.naming.sentinel i row).limits.1,
    (Encoding.rowAt m s.naming.sentinel i row).limits.2,
    (m.rowTerms row).map fun (var, x) => (m.variableVids.idxOf var, x)⟩
  dual : a.duals.rows[i]? = some (s.dual row)
  range : ∃ range, s.variableRange row = .ok range ∧ s.HasLimits range a.lowers.rows[i]? a.uppers.rows[i]?

/-- The variable at a place: how it was handed over, and what the report says of it. -/
structure SpeaksOfColumn (m : Model R) (p : Ranging.Problem R) (a : Ranging.Answer R) (s : SensitivityReport R)
    (j var : Nat) : Prop where
  cost : (p.columns[j]?).map Ranging.Column.cost = some (Encoding.goalCoefficient m var)
  dual : a.duals.columns[j]? = some (s.dual var)
  range : ∃ range, s.variableRange var = .ok range ∧ s.HasLimits range a.lowers.columns[j]? a.uppers.columns[j]?
  objectiveRange : ∃ range, s.objectiveRange var = .ok range ∧
    range.current = s.normalize (Encoding.goalCoefficient m var) ∧
    s.HasLimits range a.costLowers[j]? a.costUppers[j]?

/-- A report on a model speaks of each vid as the answer to a ranging problem does. -/
structure Speaks (m : Model R) (p : Ranging.Problem R) (a : Ranging.Answer R) (s : SensitivityReport R) : Prop where
  rowCount : p.rows.length = (Encoding.ordinaryRows m).length
  columnCount : p.columns.length = m.variableVids.length
  row : ∀ i row, (Encoding.ordinaryRows m)[i]? = some row → SpeaksOfRow m p a s i row
  column : ∀ j var, m.variableVids[j]? = some var → SpeaksOfColumn m p a s j var
  /-- Neither an ordinary row nor a variable: the goal, a set, or no vid of the model. -/
  elsewhere : ∀ vid : Int, (∀ row ∈ Encoding.ordinaryRows m, vid ≠ row) → (∀ var ∈ m.variableVids, vid ≠ var) →
    s.dual vid = Scalar.zero ∧ s.variableRange vid = .ok nowhere
  elsewhereObjective : ∀ vid : Int, (∀ var ∈ m.variableVids, vid ≠ var) → s.objectiveRange vid = .ok nowhere

/-! ### Reading a report -/

section Reading

variable (s : SensitivityReport R)

theorem bindingSide_ok {row : Nat} {r : Engine.Row R} (h : s.engine.row ((row + 1 : Nat) : Int) = .ok r) (dual : R) :
    ∃ x, s.bindingSide (row + 1) (.ok dual) = .ok x := by
  have hwidth : ∃ width, s.engine.rhsRange ((row + 1 : Nat) : Int) = .ok width := by
    rw [Engine.rhsRange, h]
    exact ⟨_, rfl⟩
  have hrhs : s.engine.rhs ((row + 1 : Nat) : Int) = .ok (s.engine.outer r.rhs) := by
    rw [Engine.rhs, if_neg (by omega), h]
    rfl
  obtain ⟨width, hwidth⟩ := hwidth
  rw [bindingSide, h, hwidth, hrhs]
  exact ⟨_, rfl⟩

theorem bindingBound_ok {column : Nat} {c : Column R} (h : s.engine.column ((column + 1 : Nat) : Int) = .ok c)
    (dual : R) : ∃ x, s.bindingBound (column + 1) (.ok dual) = .ok x := by
  rw [bindingBound, Engine.lowerBound, Engine.upperBound, h]
  exact ⟨_, rfl⟩

variable {s} (hsentinel : s.engine.sentinel = s.naming.sentinel)
include hsentinel

theorem limits_ok {lowers uppers : List R} {place : Nat} {lower upper : R}
    (hlower : lowers[place]? = some lower) (hupper : uppers[place]? = some upper) :
    s.limits (some (lowers.map s.engine.outer, uppers.map s.engine.outer)) (place + 1) =
      .ok (lowerLimit s.naming.sentinel lower, upperLimit s.naming.sentinel upper) := by
  simp only [limits, entryAt, Nat.add_sub_cancel, List.getElem?_map, hlower, hupper, Option.map_some]
  rw [lowerLimit, upperLimit, ← hsentinel]
  rfl

omit hsentinel in
theorem dual_ok {a : Ranging.Answer R} (hkept : s.engine.results.sensitivity = some (s.engine.sensitivityOf a))
    {place : Nat} {dual : R} (hdual : a.duals.joined[place]? = some dual) :
    s.engine.dual ((place + 1 : Nat) : Int) = dual := by
  have hduals : (s.engine.sensitivityOf a).duals[place]? = some dual := hdual
  have hplace : (((place + 1 : Nat) : Int) - 1).toNat = place := by omega
  rw [Engine.dual, hkept]
  simp only [hplace, hduals, Option.getD_some]
  exact if_neg (by omega)

/-- A range is read at the place where the dual and the limits are. -/
theorem rangeAt_ok {a : Ranging.Answer R} (hkept : s.engine.results.sensitivity = some (s.engine.sensitivityOf a))
    {place : Nat} {dual lower upper : R} (hdual : a.duals.joined[place]? = some dual)
    (hlower : a.lowers.joined[place]? = some lower) (hupper : a.uppers.joined[place]? = some upper)
    {current : Except Fault R → Except Fault R} {x : R} (hcurrent : current (.ok dual) = .ok x) :
    s.rangeAt (place + 1) current =
      .ok ⟨s.normalize x, lowerLimit s.naming.sentinel lower, upperLimit s.naming.sentinel upper⟩ := by
  have hlimits := limits_ok hsentinel hlower hupper
  have hentry : entryAt (s.engine.sensitivityOf a).duals (place + 1) = .ok dual := by
    have hduals : (s.engine.sensitivityOf a).duals[place]? = some dual := hdual
    simp only [entryAt, Nat.add_sub_cancel, hduals]
  have hbounds : s.limits (some ((s.engine.sensitivityOf a).lowers, (s.engine.sensitivityOf a).uppers)) (place + 1) =
      .ok (lowerLimit s.naming.sentinel lower, upperLimit s.naming.sentinel upper) := hlimits
  rw [rangeAt, hkept]
  simp only [hentry, hcurrent, hbounds]
  rfl

end Reading

/-! ### The report on a model -/

section Model

variable {m : Model R} {e : Engine R} (hheld : Encoding.Held m e) (x : List R)
include hheld

theorem rangingRow_eq {i row : Nat} (hrow : (Encoding.ordinaryRows m)[i]? = some row) :
    (e.rangingProblem x).rows[i]? = some ⟨(Encoding.rowAt m e.sentinel i row).limits.1,
      (Encoding.rowAt m e.sentinel i row).limits.2,
      (m.rowTerms row).map fun (var, x) => (m.variableVids.idxOf var, x)⟩ := by
  have hterms : (Encoding.terms m row).map (fun (col, x) => (col - 1, x)) =
      (m.rowTerms row).map fun (var, x) => (m.variableVids.idxOf var, x) := by
    rw [Encoding.terms, List.map_map]
    refine List.map_congr_left fun t ht => ?_
    simp [Encoding.columnOf_eq_idxOf (Encoding.mem_rowTerms.1 ht).1]
  rw [Engine.rangingProblem, List.getElem?_map, hheld.rows, List.getElem?_mapIdx, hrow, ← hterms]
  rfl

theorem rangingColumn_cost {j var : Nat} (hvar : m.variableVids[j]? = some var) :
    ((e.rangingProblem x).columns[j]?).map Ranging.Column.cost = some (Encoding.goalCoefficient m var) := by
  rw [← hheld.cost hvar, Engine.rangingProblem, List.getElem?_mapIdx, hheld.columns, List.getElem?_mapIdx, hvar]
  simp only [Option.map_some, Engine.rangingColumn]
  split <;> rfl

theorem rowCount_eq : (e.rangingProblem x).rows.length = (Encoding.ordinaryRows m).length := by
  simp [Engine.rangingProblem, hheld.rowCount]

theorem columnCount_eq : (e.rangingProblem x).columns.length = m.variableVids.length := by
  simp [Engine.rangingProblem, hheld.columnCount]

variable {x} {p : Ranging.Problem R} (hp : e.rangingProblem x = p) {a : Ranging.Answer R} (hfits : a.Fits p)
  (hkept : e.results.sensitivity = some (e.sensitivityOf a))
include hp hfits hkept

theorem speaks_row {i row : Nat} (hrow : (Encoding.ordinaryRows m)[i]? = some row) :
    SpeaksOfRow m p a ⟨e, Encoding.namingOf m e.sentinel⟩ i row := by
  have hi : i < p.rows.length := by
    rw [← hp, rowCount_eq hheld]
    exact (List.getElem?_eq_some_iff.1 hrow).1
  obtain ⟨dual, hdual, hduals⟩ := hfits.duals.row hi
  obtain ⟨lower, hlower, hlowers⟩ := hfits.lowers.row hi
  obtain ⟨upper, hupper, huppers⟩ := hfits.uppers.row hi
  have hname := Encoding.row?_ordinary e.sentinel hrow
  let s : SensitivityReport R := ⟨e, Encoding.namingOf m e.sentinel⟩
  have hread : s.dual row = dual := by
    rw [SensitivityReport.dual, hname]
    exact dual_ok (s := s) hkept hduals
  obtain ⟨current, hcurrent⟩ := bindingSide_ok s (hheld.row hrow) dual
  have hrange : s.variableRange row =
      .ok ⟨s.normalize current, lowerLimit e.sentinel lower, upperLimit e.sentinel upper⟩ := by
    rw [variableRange, hname]
    exact rangeAt_ok (s := s) rfl hkept hduals hlowers huppers hcurrent
  refine ⟨hheld.row hrow, hp ▸ rangingRow_eq hheld x hrow, hdual.trans (congrArg some hread.symm), _, hrange, ?_, ?_⟩
  · rw [hlower]
    rfl
  · rw [hupper]
    rfl

theorem speaks_column {j var : Nat} (hvar : m.variableVids[j]? = some var) :
    SpeaksOfColumn m p a ⟨e, Encoding.namingOf m e.sentinel⟩ j var := by
  have hj : j < p.columns.length := by
    rw [← hp, columnCount_eq hheld]
    exact (List.getElem?_eq_some_iff.1 hvar).1
  have hrows : e.rows.length = p.rows.length := by
    rw [← hp, rowCount_eq hheld, hheld.rowCount]
  obtain ⟨dual, hdual, hduals⟩ := hfits.duals.column hj
  obtain ⟨lower, hlower, hlowers⟩ := hfits.lowers.column hj
  obtain ⟨upper, hupper, huppers⟩ := hfits.uppers.column hj
  rw [← hrows] at hduals hlowers huppers
  obtain ⟨costLower, hcostLower⟩ : ∃ x, a.costLowers[j]? = some x :=
    ⟨_, List.getElem?_eq_getElem (hfits.costLowers ▸ hj)⟩
  obtain ⟨costUpper, hcostUpper⟩ : ∃ x, a.costUppers[j]? = some x :=
    ⟨_, List.getElem?_eq_getElem (hfits.costUppers ▸ hj)⟩
  have hname := Encoding.column?_variable e.sentinel hvar
  have hnone := Encoding.row?_variable e.sentinel hvar
  let s : SensitivityReport R := ⟨e, Encoding.namingOf m e.sentinel⟩
  have hread : s.dual var = dual := by
    have hplace : s.engine.dual ((e.rows.length + j + 1 : Nat) : Int) = dual := dual_ok hkept hduals
    rw [SensitivityReport.dual, hnone, hname]
    exact (congrArg (fun n : Nat => s.engine.dual n) (Nat.add_comm (j + 1) e.rows.length)).trans hplace
  obtain ⟨current, hcurrent⟩ := bindingBound_ok s (hheld.column hvar) dual
  have hrange : s.variableRange var =
      .ok ⟨s.normalize current, lowerLimit e.sentinel lower, upperLimit e.sentinel upper⟩ := by
    rw [variableRange, hnone, hname]
    exact rangeAt_ok (s := s) rfl hkept hduals hlowers huppers hcurrent
  have hobjective : s.objectiveRange var = .ok ⟨s.normalize (Encoding.goalCoefficient m var),
      lowerLimit e.sentinel costLower, upperLimit e.sentinel costUpper⟩ := by
    have hlimits : s.limits (s.engine.results.sensitivity.map fun a => (a.costLowers, a.costUppers)) (j + 1) =
        .ok (lowerLimit e.sentinel costLower, upperLimit e.sentinel costUpper) := by
      rw [show s.engine.results.sensitivity = some (e.sensitivityOf a) from hkept]
      exact limits_ok (s := s) rfl hcostLower hcostUpper
    rw [objectiveRange, hname]
    simp only [hlimits]
    rw [show s.engine.element 0 ((j + 1 : Nat) : Int) = _ from hheld.element hvar]
    rfl
  refine ⟨hp ▸ rangingColumn_cost hheld x hvar, hdual.trans (congrArg some hread.symm), ⟨_, hrange, ?_, ?_⟩,
    ⟨_, hobjective, rfl, ?_, ?_⟩⟩
  · rw [hlower]
    rfl
  · rw [hupper]
    rfl
  · rw [hcostLower]
    rfl
  · rw [hcostUpper]
    rfl

/-- An engine that holds a model and has kept the answer to its ranging problem is reported on rightly. -/
theorem speaks : Speaks m p a ⟨e, Encoding.namingOf m e.sentinel⟩ where
  rowCount := hp ▸ rowCount_eq hheld x
  columnCount := hp ▸ columnCount_eq hheld x
  row _ _ hrow := speaks_row hheld hp hfits hkept hrow
  column _ _ hvar := speaks_column hheld hp hfits hkept hvar
  elsewhere vid hrow hvar := by
    rw [dual, variableRange, Encoding.row?_eq_none e.sentinel hrow, Encoding.column?_eq_none e.sentinel hvar]
    exact ⟨rfl, rfl⟩
  elsewhereObjective vid hvar := by
    rw [objectiveRange, Encoding.column?_eq_none e.sentinel hvar]
    rfl

end Model

end SensitivityReport

end Optima
