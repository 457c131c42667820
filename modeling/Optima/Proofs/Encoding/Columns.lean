import Optima.Encoding.Basic
import Optima.Proofs.Engine.Building
import Optima.Proofs.Model.Reachable
import Mathlib.Data.List.Induction
import Mathlib.Data.List.Nodup

/-!
# Variables and their columns

Variables are numbered in the order of their creation, and the number of a variable is that of its column.  So the
terms of a row name each column at most once, and they name it where the row has a coefficient (`terms_lookup`).

Loading the variables into a new engine leaves the column of each at its place (`loadColumns_run`).  The loop is
followed from the front: after the first variables of a model the engine has their columns, and then those it was made
with.
-/

namespace Optima.Encoding

variable {R : Type}

/-! ### Numbering -/

/-- The members of a list, numbered from one. -/
def numbering (l : List Nat) : List (Nat × Nat) :=
  l.mapIdx fun i vid => (vid, i + 1)

theorem numbering_map_fst (l : List Nat) : (numbering l).map Prod.fst = l := by
  apply List.ext_getElem?
  intro i
  rw [numbering, List.getElem?_map, List.getElem?_mapIdx, Option.map_map]
  exact Option.map_id'

theorem numbering_lookup {l : List Nat} (h : l.Nodup) {vid n : Nat} :
    (numbering l).lookup vid = some n ↔ ∃ k, l[k]? = some vid ∧ n = k + 1 := by
  rw [lookup_eq_some_iff_mem (by rwa [numbering_map_fst]), numbering, List.mem_mapIdx]
  constructor
  · rintro ⟨k, hk, heq⟩
    obtain ⟨rfl, rfl⟩ := Prod.mk.inj heq
    exact ⟨k, List.getElem?_eq_getElem hk, rfl⟩
  · rintro ⟨k, hk, rfl⟩
    obtain ⟨hlt, rfl⟩ := List.getElem?_eq_some_iff.1 hk
    exact ⟨k, hlt, rfl⟩

/-! ### Columns of variables -/

/-- The column of a variable. -/
def columnOf (m : Model R) (vid : Nat) : Nat :=
  ((columnMap m).lookup vid).getD 0

theorem columnMap_lookup {m : Model R} {k vid : Nat} (h : m.variableVids[k]? = some vid) :
    (columnMap m).lookup vid = some (k + 1) :=
  (numbering_lookup (Model.nodup_vidsWhere m _)).2 ⟨k, h, rfl⟩

theorem columnOf_eq {m : Model R} {k vid : Nat} (h : m.variableVids[k]? = some vid) : columnOf m vid = k + 1 := by
  rw [columnOf, columnMap_lookup h]
  rfl

theorem columnOf_eq_idxOf {m : Model R} {var : Nat} (h : var ∈ m.variableVids) :
    columnOf m var = m.variableVids.idxOf var + 1 :=
  columnOf_eq (List.getElem?_idxOf h)

theorem columnOf_injOn {m : Model R} {v w : Nat} (hv : v ∈ m.variableVids) (hw : w ∈ m.variableVids)
    (h : columnOf m v = columnOf m w) : v = w := by
  obtain ⟨i, hi⟩ := List.mem_iff_getElem?.1 hv
  obtain ⟨j, hj⟩ := List.mem_iff_getElem?.1 hw
  rw [columnOf_eq hi, columnOf_eq hj] at h
  obtain rfl : i = j := by omega
  exact Option.some.inj (hi.symm.trans hj)

theorem columnOf_range {m : Model R} {vid : Nat} (h : vid ∈ m.variableVids) :
    1 ≤ columnOf m vid ∧ columnOf m vid ≤ m.variableVids.length := by
  obtain ⟨k, hk⟩ := List.mem_iff_getElem?.1 h
  have := (List.getElem?_eq_some_iff.1 hk).1
  rw [columnOf_eq hk]
  omega

/-! ### Terms of rows -/

/-- The coefficients of a row, by columns. -/
def terms (m : Model R) (row : Nat) : List (Nat × R) :=
  (m.rowTerms row).map fun t => (columnOf m t.1, t.2)

theorem mem_rowTerms {m : Model R} {row var : Nat} {x : R} :
    (var, x) ∈ m.rowTerms row ↔ var ∈ m.variableVids ∧ m.matrix.get? row var = some x :=
  Matrix.mem_rowEntries

theorem nodup_rowTerms (m : Model R) (row : Nat) : ((m.rowTerms row).map Prod.fst).Nodup :=
  (m.matrix.rowEntries_sublist m.variableVids row).nodup (Model.nodup_vidsWhere m _)

theorem nodup_terms (m : Model R) (row : Nat) : ((terms m row).map Prod.fst).Nodup := by
  have hmap : (terms m row).map Prod.fst = ((m.rowTerms row).map Prod.fst).map (columnOf m) := by
    simp only [terms, List.map_map, Function.comp_def]
  rw [hmap]
  refine List.Nodup.map_on ?_ (nodup_rowTerms m row)
  intro v hv w hw h
  obtain ⟨t, ht, rfl⟩ := List.mem_map.1 hv
  obtain ⟨u, hu, rfl⟩ := List.mem_map.1 hw
  exact columnOf_injOn (mem_rowTerms.1 ht).1 (mem_rowTerms.1 hu).1 h

theorem terms_lookup {m : Model R} (row : Nat) {var : Nat} (hvar : var ∈ m.variableVids) :
    (terms m row).lookup (columnOf m var) = m.matrix.get? row var := by
  apply Option.ext
  intro x
  rw [lookup_eq_some_iff_mem (nodup_terms m row), terms, List.mem_map]
  constructor
  · rintro ⟨t, ht, heq⟩
    obtain ⟨hcol, rfl⟩ := Prod.mk.inj heq
    obtain ⟨hmem, hget⟩ := mem_rowTerms.1 ht
    rwa [← columnOf_injOn hmem hvar hcol]
  · exact fun hx => ⟨(var, x), mem_rowTerms.2 ⟨hvar, hx⟩, rfl⟩

theorem terms_range {m : Model R} {row : Nat} {t : Nat × R} (ht : t ∈ terms m row) :
    1 ≤ t.1 ∧ t.1 ≤ m.variableVids.length := by
  obtain ⟨u, hu, rfl⟩ := List.mem_map.1 ht
  exact columnOf_range (mem_rowTerms.1 hu).1

theorem terms_hasColumn {m : Model R} {e : Engine R} (he : e.columns.length = m.variableVids.length) {row : Nat}
    {t : Nat × R} (ht : t ∈ terms m row) : e.HasColumn t.1 := by
  rw [Engine.HasColumn, he]
  exact terms_range ht

theorem compact_eq (m : Model R) (row : Nat) :
    compact m row = ((terms m row).map fun t => .real t.2, (terms m row).map fun t => (t.1 : Int)) := by
  simp only [compact, terms, columnOf, List.map_map, Function.comp_def]

variable [Scalar R]

theorem terms_nonzero {m : Model R} (hm : m.Proper) {row : Nat} {t : Nat × R} (ht : t ∈ terms m row) :
    Scalar.same t.2 Scalar.zero = false := by
  obtain ⟨u, hu, rfl⟩ := List.mem_map.1 ht
  exact hm.matrix.nonzero (mem_rowTerms.1 hu).2

/-- An engine that has the columns takes the terms of a row as they are. -/
theorem compact_terms {m : Model R} (hm : m.Proper) (row : Nat) {e : Engine R}
    (he : e.columns.length = m.variableVids.length) :
    e.compact ((compact m row).1.zip (compact m row).2) = .ok (terms m row) := by
  rw [compact_eq, List.zip_map', Engine.compact_eq_ok (nodup_terms m row)]
  · exact fun t ht => terms_hasColumn he ht
  · exact fun t ht => terms_nonzero hm ht

/-! ### Columns -/

/-- A number as an engine with this sentinel keeps it. -/
def clip (sentinel x : R) : R :=
  if Scalar.le sentinel (Scalar.abs x) then Scalar.copySign Scalar.infinity x else x

/-- The column of a variable; `number` is the number of the column. -/
def columnFor (sentinel : R) (number : Nat) (v : Entry R) : Column R where
  name := "C" ++ toString number
  lower := if v.ignoresBounds || Scalar.isInfinite v.lower then -Scalar.infinity else clip sentinel v.lower
  upper := if v.ignoresBounds || Scalar.isInfinite v.upper then Scalar.infinity else clip sentinel v.upper
  integer := v.integer

omit [Scalar R] in
private theorem withColumn_getElem? {e : Engine R} {k : Nat} {c : Column R} (h : e.columns[k]? = some c)
    (d : Column R) : (e.withColumn k d).columns[k]? = some d :=
  List.getElem?_set_self (List.getElem?_eq_some_iff.1 h).1

omit [Scalar R] in
private theorem withColumn_withColumn (e : Engine R) (k : Nat) (c d : Column R) :
    (e.withColumn k c).withColumn k d = e.withColumn k d := by
  simp only [Engine.withColumn, List.set_set]

theorem loadBounds_run {e : Engine R} {k : Nat} (h : e.columns[k]? = some (Engine.newColumn (k + 1)))
    (v : Entry R) : loadBounds ((k + 1 : Nat) : Int) v e =
      .ok ⟨⟩ (e.withColumn k { columnFor e.sentinel (k + 1) v with integer := false }) := by
  unfold loadBounds
  by_cases hignores : v.ignoresBounds = true
  · rw [if_pos hignores, Engine.setUnbounded_run h]
    simp [columnFor, hignores, Engine.newColumn]
  by_cases hlower : Scalar.isInfinite v.lower = true
  · rw [if_neg hignores, if_pos hlower, Action.bind_ok (Engine.setUnbounded_run h)]
    by_cases hupper : Scalar.isInfinite v.upper = true
    · simp [columnFor, hlower, hupper, Engine.newColumn]
    · simp only [hupper, Bool.not_false, ↓reduceIte]
      rw [Engine.setUpper_run (withColumn_getElem? h _), withColumn_withColumn]
      simp [columnFor, hignores, hlower, hupper, Engine.newColumn]
      rfl
  · by_cases hupper : Scalar.isInfinite v.upper = true
    · rw [if_neg hignores, if_neg hlower, if_pos hupper, Engine.setLower_run h]
      simp [columnFor, hignores, hlower, hupper, Engine.newColumn]
      rfl
    · rw [if_neg hignores, if_neg hlower, if_neg hupper, Engine.setBounds_run h]
      simp [columnFor, hignores, hlower, hupper, Engine.newColumn]
      rfl

theorem loadColumn_run {e : Engine R} {k : Nat} (h : e.columns[k]? = some (Engine.newColumn (k + 1))) (v : Entry R) :
    loadColumn ((k + 1 : Nat) : Int) v e = .ok ⟨⟩ (e.withColumn k (columnFor e.sentinel (k + 1) v)) := by
  unfold loadColumn
  rw [Action.bind_ok (loadBounds_run h v)]
  by_cases hinteger : v.integer = true
  · rw [if_pos hinteger, Engine.setInteger_run (withColumn_getElem? h _), withColumn_withColumn]
    simp [columnFor, hinteger, Value.truth]
  · rw [if_neg hinteger]
    simp [columnFor, hinteger]

/-- The column at a place, for the variable that is there. -/
def columnAt (m : Model R) (sentinel : R) (i vid : Nat) : Column R :=
  match m.entries[vid]? with
  | some v => columnFor sentinel (i + 1) v
  | none => Engine.newColumn (i + 1)

/-- The engine after the first variables of a model have been loaded. -/
def withColumns (m : Model R) (e : Engine R) (vids : List Nat) : Engine R :=
  { e with columns := vids.mapIdx (columnAt m e.sentinel) ++ e.columns.drop vids.length }

private theorem numbering_concat (l : List Nat) (vid : Nat) :
    numbering (l ++ [vid]) = numbering l ++ [(vid, l.length + 1)] := by
  rw [numbering, List.mapIdx_concat]
  rfl

private theorem withColumns_concat {m : Model R} {e : Engine R} (hloaded : e.loaded = false) {vids : List Nat}
    (hlen : vids.length < e.columns.length) (vid : Nat) :
    withColumns m e (vids ++ [vid]) =
      (withColumns m e vids).withColumn vids.length (columnAt m e.sentinel vids.length vid) := by
  have hset : (vids.mapIdx (columnAt m e.sentinel) ++ e.columns.drop vids.length).set vids.length
      (columnAt m e.sentinel vids.length vid) =
      (vids ++ [vid]).mapIdx (columnAt m e.sentinel) ++ e.columns.drop (vids ++ [vid]).length := by
    rw [List.set_append_right _ _ (by simp), List.length_mapIdx, Nat.sub_self, List.drop_eq_getElem_cons hlen,
      List.set_cons_zero, List.mapIdx_concat, List.length_append, List.length_singleton, List.append_assoc]
    rfl
  simp only [withColumns, Engine.withColumn, ← hloaded, ← hset]

theorem loadColumns_run {m : Model R} {e : Engine R} (hloaded : e.loaded = false)
    (hcolumns : e.columns = (List.range m.variableVids.length).map fun i => Engine.newColumn (i + 1)) :
    loadColumns m e = .ok ⟨⟩ (withColumns m e m.variableVids) := by
  suffices loop : ∀ vids : List Nat, vids.length ≤ m.variableVids.length → (∀ vid ∈ vids, vid ∈ m.variableVids) →
      ((numbering vids).forM fun place => loadVariable m place.1 place.2) e = .ok ⟨⟩ (withColumns m e vids) from
    loop _ (Nat.le_refl _) fun _ => id
  intro vids
  induction vids using List.reverseRecOn with
  | nil => exact fun _ _ => rfl
  | append_singleton vids vid ih =>
    intro hlen hmem
    rw [List.length_append, List.length_singleton] at hlen
    have hlen' : vids.length < e.columns.length := by
      rw [hcolumns, List.length_map, List.length_range]
      omega
    have hnext : (withColumns m e vids).columns[vids.length]? = some (Engine.newColumn (vids.length + 1)) := by
      simp only [withColumns]
      rw [List.getElem?_append_right (by simp), List.length_mapIdx, Nat.sub_self, List.getElem?_drop, hcolumns,
        List.getElem?_map, List.getElem?_range (by omega)]
      rfl
    obtain ⟨v, hv, -⟩ := Model.mem_variableVids.1 (hmem vid (by simp))
    rw [numbering_concat, Action.forM_concat (ih (by omega) fun v hv => hmem v (by simp [hv])),
      withColumns_concat hloaded hlen']
    simp only [loadVariable, columnAt, hv]
    exact loadColumn_run hnext v

end Optima.Encoding
