import Optima.Engine.Building
import Optima.Proofs.Action
import Optima.Proofs.Lookup

/-!
# What the building operations do

Each operation that builds a program, run on an engine that has the column or the row it names: one equation gives its
answer and the engine it leaves.  An operation that goes through has the search take the program anew, so `loaded` is
false afterwards.

`compact_eq_ok` is the one fact with an argument in it: terms with different columns, none of them zero, are their own
entries, in the same order.
-/

namespace Optima.Engine

variable {R : Type} [Scalar R]

/-! ### Columns -/

/-- The engine has a column of this number. -/
def HasColumn (e : Engine R) (col : Nat) : Prop :=
  1 ≤ col ∧ col ≤ e.columns.length

/-- The engine with another column at a place. -/
def withColumn (e : Engine R) (k : Nat) (c : Column R) : Engine R :=
  { e with columns := e.columns.set k c, loaded := false }

omit [Scalar R] in
theorem column_eq_ok {e : Engine R} {col : Int} {c : Column R} :
    e.column col = .ok c ↔ 1 ≤ col ∧ e.columns[(col - 1).toNat]? = some c := by
  unfold column
  by_cases h : col < 1
  · simp [h, Int.not_le.2 h]
  · simp only [h, ↓reduceIte, Int.not_lt.1 h, true_and]
    cases e.columns[(col - 1).toNat]? <;> simp

omit [Scalar R] in
theorem column_succ {e : Engine R} {k : Nat} {c : Column R} (h : e.columns[k]? = some c) :
    e.column ((k + 1 : Nat) : Int) = .ok c :=
  column_eq_ok.2 ⟨by omega, by rw [show (((k + 1 : Nat) : Int) - 1).toNat = k by omega, h]⟩

omit [Scalar R] in
theorem column_isOk {e : Engine R} {col : Nat} (h : e.HasColumn col) : ∃ c, e.column (col : Int) = .ok c := by
  obtain ⟨hpos, hle⟩ := h
  obtain ⟨k, rfl⟩ : ∃ k, col = k + 1 := ⟨col - 1, by omega⟩
  exact ⟨_, column_succ (List.getElem?_eq_getElem (show k < e.columns.length by omega))⟩

omit [Scalar R] in
theorem column_range {e : Engine R} {col : Int} {c : Column R} (h : e.column col = .ok c) : e.HasColumn col.toNat := by
  obtain ⟨hcol, hget⟩ := column_eq_ok.1 h
  have hlt := (List.getElem?_eq_some_iff.1 hget).1
  exact ⟨by omega, by omega⟩

omit [Scalar R] in
theorem row_eq_ok {e : Engine R} {row : Int} {r : Row R} :
    e.row row = .ok r ↔ 1 ≤ row ∧ e.rows[(row - 1).toNat]? = some r := by
  unfold Engine.row
  by_cases h : row < 1
  · simp [h, Int.not_le.2 h]
  · simp only [h, ↓reduceIte, Int.not_lt.1 h, true_and]
    cases e.rows[(row - 1).toNat]? <;> simp

omit [Scalar R] in
theorem row_succ {e : Engine R} {k : Nat} {r : Row R} (h : e.rows[k]? = some r) :
    e.row ((k + 1 : Nat) : Int) = .ok r := by
  rw [row, if_neg (by omega), show (((k + 1 : Nat) : Int) - 1).toNat = k by omega, h]

private theorem modify_eq_set {α : Type} {l : List α} {k : Nat} {a : α} (h : l[k]? = some a) (f : α → α) :
    l.modify k f = l.set k (f a) := by
  obtain ⟨hk, rfl⟩ := List.getElem?_eq_some_iff.1 h
  apply List.ext_getElem?
  intro i
  rw [List.getElem?_modify, List.getElem?_set]
  by_cases hi : k = i
  · subst hi
    simp [hk]
  · simp [hi]

omit [Scalar R] in
theorem modifyColumn_run {e : Engine R} {k : Nat} {c : Column R} (h : e.columns[k]? = some c)
    (f : Column R → Column R) :
    modifyColumn ((k + 1 : Nat) : Int) f e = .ok ⟨⟩ { e with columns := e.columns.set k (f c) } := by
  unfold modifyColumn
  simp only [Action.get_bind_run, column_succ h, Action.lift_ok_bind_run, Action.modify_run]
  rw [show (((k + 1 : Nat) : Int) - 1).toNat = k by omega, modify_eq_set h]

theorem setInteger_run {e : Engine R} {k : Nat} {c : Column R} (h : e.columns[k]? = some c) (v : Value R) :
    setInteger ((k + 1 : Nat) : Int) v e = .ok ⟨⟩ (e.withColumn k { c with integer := v.truth }) := by
  unfold setInteger
  rw [Action.bind_ok (modifyColumn_run h _)]
  rfl

theorem setUnbounded_run {e : Engine R} {k : Nat} {c : Column R} (h : e.columns[k]? = some c) :
    setUnbounded ((k + 1 : Nat) : Int) e =
      .ok ⟨⟩ (e.withColumn k { c with lower := -Scalar.infinity, upper := Scalar.infinity }) := by
  unfold setUnbounded
  rw [Action.bind_ok (modifyColumn_run h _)]
  rfl

private theorem writeLower_run {e : Engine R} {k : Nat} {c : Column R} (h : e.columns[k]? = some c) (x : R) :
    writeLower ((k + 1 : Nat) : Int) (.real x) e =
      .ok ⟨⟩ { e with columns := e.columns.set k { c with lower := e.inner x } } :=
  modifyColumn_run h _

private theorem writeUpper_run {e : Engine R} {k : Nat} {c : Column R} (h : e.columns[k]? = some c) (x : R) :
    writeUpper ((k + 1 : Nat) : Int) (.real x) e =
      .ok ⟨⟩ { e with columns := e.columns.set k { c with upper := e.inner x } } :=
  modifyColumn_run h _

theorem setLower_run {e : Engine R} {k : Nat} {c : Column R} (h : e.columns[k]? = some c) (x : R) :
    setLower ((k + 1 : Nat) : Int) (.real x) e = .ok ⟨⟩ (e.withColumn k { c with lower := e.inner x }) := by
  unfold setLower
  rw [Action.bind_ok (writeLower_run h x)]
  rfl

theorem setUpper_run {e : Engine R} {k : Nat} {c : Column R} (h : e.columns[k]? = some c) (x : R) :
    setUpper ((k + 1 : Nat) : Int) (.real x) e = .ok ⟨⟩ (e.withColumn k { c with upper := e.inner x }) := by
  unfold setUpper
  rw [Action.bind_ok (writeUpper_run h x)]
  rfl

theorem setBounds_run {e : Engine R} {k : Nat} {c : Column R} (h : e.columns[k]? = some c) (x y : R) :
    setBounds ((k + 1 : Nat) : Int) (.real x) (.real y) e =
      .ok ⟨⟩ (e.withColumn k { c with lower := e.inner x, upper := e.inner y }) := by
  have hk := (List.getElem?_eq_some_iff.1 h).1
  have hwritten : (e.columns.set k { c with lower := e.inner x })[k]? = some { c with lower := e.inner x } :=
    List.getElem?_set_self hk
  unfold setBounds
  rw [Action.get_bind_run, column_succ h, Action.lift_ok_bind_run, Action.bind_ok (writeLower_run h x),
    Action.bind_ok (writeUpper_run hwritten y)]
  simp only [changed, withColumn, List.set_set, Action.modify_run]
  rfl

theorem setInfinite_run {e : Engine R} {v : Value R} {x : R} (h : v.toReal = .ok x) :
    setInfinite v e = .ok ⟨⟩ { e with settings := { e.settings with sentinel := x } } := by
  unfold setInfinite putSetting
  simp only [Action.get_bind_run, Settings.set, h]
  rfl

/-! ### Entries -/

omit [Scalar R] in
private theorem putEntry_of_new {entries : List (Nat × R)} {col : Nat} (h : col ∉ entries.map Prod.fst) (x : R) :
    putEntry entries col x = entries ++ [(col, x)] := by
  rw [← lookup_isSome] at h
  simp only [putEntry, h, Bool.false_eq_true, ↓reduceIte]

/-- Terms with different columns, none of them zero, are their own entries. -/
theorem compact_eq_ok {e : Engine R} {terms : List (Nat × R)} (hnodup : (terms.map Prod.fst).Nodup)
    (hcolumn : ∀ t ∈ terms, e.HasColumn t.1)
    (hnonzero : ∀ t ∈ terms, Scalar.same t.2 Scalar.zero = false) :
    e.compact (terms.map fun t => (.real t.2, (t.1 : Int))) = .ok terms := by
  unfold compact
  -- `done` are the entries of the terms that have been passed
  suffices loop : ∀ done : List (Nat × R), ((done ++ terms).map Prod.fst).Nodup →
      (terms.map fun t => ((.real t.2 : Value R), (t.1 : Int))).foldlM e.putTerm done = .ok (done ++ terms) from
    loop [] hnodup
  clear hnodup
  induction terms with
  | nil =>
    intro done _
    rw [List.append_nil]
    rfl
  | cons t terms ih =>
    intro done hnodup
    obtain ⟨c, hc⟩ := column_isOk (hcolumn t (List.mem_cons_self ..))
    have hzero : (Value.real t.2 : Value R).same (.real Scalar.zero) = false :=
      hnonzero t (List.mem_cons_self ..)
    have hnew : t.1 ∉ done.map Prod.fst := by
      rw [List.map_append, List.nodup_append] at hnodup
      exact fun hmem => hnodup.2.2 _ hmem t.1 (List.mem_map_of_mem (List.mem_cons_self ..)) rfl
    have hrest := ih (fun t ht => hcolumn t (List.mem_cons_of_mem _ ht))
      (fun t ht => hnonzero t (List.mem_cons_of_mem _ ht)) (done ++ [(t.1, t.2)]) (by simpa using hnodup)
    simp only [List.map_cons, List.foldlM_cons, putTerm, hc, hzero, Bool.false_eq_true, ↓reduceIte, Int.toNat_natCast]
    show List.foldlM _ (putEntry done t.1 t.2) _ = _
    rw [putEntry_of_new hnew]
    simpa using hrest

/-! ### Rows, the objective and sets -/

/-- The engine with one more row. -/
def withRow (e : Engine R) (entries : List (Nat × R)) (relation : Relation) (rhs : R) (range : Option R) : Engine R :=
  { e with
    rows := e.rows ++ [⟨"R" ++ toString (e.rows.length + 1), entries, relation, rhs, range⟩]
    loaded := false }

theorem addRow_run {e : Engine R} {values : List (Value R)} {columns : List Int} {entries : List (Nat × R)}
    (hdefect : e.defects.row = none) (hentries : e.compact (values.zip columns) = .ok entries) {relation : Value R}
    {kind : Relation} (hrelation : relation.toMember Relation = .ok kind) (rhs : R) :
    addRow values columns relation (.real rhs) e =
      .ok (e.rows.length + 1) (e.withRow entries kind (e.inner rhs) none) := by
  unfold addRow
  simp only [Action.get_bind_run, hdefect, hentries, hrelation, Action.lift_ok_bind_run]
  rfl

/-- The row added last gets a range. -/
theorem setRange_run (e : Engine R) (entries : List (Nat × R)) (relation : Relation) (rhs : R) (x : R) :
    setRange ((e.rows.length + 1 : Nat) : Int) (.real x) (e.withRow entries relation rhs none) =
      .ok ⟨⟩ (e.withRow entries relation rhs (some (Scalar.abs (e.inner x)))) := by
  have hlast : (e.withRow entries relation rhs none).rows[e.rows.length]? =
      some ⟨"R" ++ toString (e.rows.length + 1), entries, relation, rhs, none⟩ := List.getElem?_concat_length
  unfold setRange
  rw [Action.get_bind_run]
  show (Action.lift (.ok _) >>= _ : Build R Unit) _ = _
  rw [Action.lift_ok_bind_run, Action.get_bind_run, row_succ hlast, Action.lift_ok_bind_run]
  simp only [changed, Action.modify_bind_run, Action.modify_run,
    show (((e.rows.length + 1 : Nat) : Int) - 1).toNat = e.rows.length by omega]
  rw [modify_eq_set hlast]
  simp [withRow]
  rfl

theorem setObjective_run {e : Engine R} {values : List (Value R)} {columns : List Int} {entries : List (Nat × R)}
    (hentries : e.compact (values.zip columns) = .ok entries) :
    setObjective values columns e = .ok ⟨⟩ { e with objective := entries, loaded := false } := by
  unfold setObjective
  simp only [Action.get_bind_run, hentries, Action.lift_ok_bind_run]
  rfl

theorem setSense_run (e : Engine R) (v : Value R) :
    setSense v e = .ok ⟨⟩ { e with maximize := v.truth, loaded := false } := rfl

theorem setRowMode_run (e : Engine R) (v : Value R) :
    setRowMode v e = .ok (e.rowMode != v.truth) { e with rowMode := v.truth } := rfl

/-- The engine with one more set. -/
def withSet (e : Engine R) (s : OrderedSet R) : Engine R :=
  { e with sets := e.sets ++ [s], loaded := false }

omit [Scalar R] in
private theorem checkColumn_eq_ok {e s t : Engine R} {col : Int} :
    e.checkColumn col s = .ok ⟨⟩ t ↔ (∃ c, e.column col = .ok c) ∧ t = s := by
  rw [checkColumn, Action.lift_eq_ok]
  cases e.column col <;> simp [Except.map]

omit [Scalar R] in
/-- Checking columns changes nothing, and goes through when all of them are there. -/
theorem checkColumns_eq_ok {e s t : Engine R} {columns : List Int} :
    columns.forM e.checkColumn s = .ok ⟨⟩ t ↔ (∀ col ∈ columns, ∃ c, e.column col = .ok c) ∧ t = s := by
  induction columns generalizing s with
  | nil =>
    constructor
    · rintro ⟨⟩
      exact ⟨by simp, rfl⟩
    · rintro ⟨-, rfl⟩
      rfl
  | cons col columns ih =>
    rw [List.forall_mem_cons]
    have hloop : (col :: columns).forM e.checkColumn = e.checkColumn col >>= fun _ => columns.forM e.checkColumn := rfl
    rw [hloop, Action.bind_eq_ok]
    constructor
    · rintro ⟨⟨⟩, u, hfirst, hrest⟩
      obtain ⟨hcol, rfl⟩ := checkColumn_eq_ok.1 hfirst
      obtain ⟨hcolumns, rfl⟩ := ih.1 hrest
      exact ⟨⟨hcol, hcolumns⟩, rfl⟩
    · rintro ⟨⟨hcol, hcolumns⟩, rfl⟩
      exact ⟨⟨⟩, _, checkColumn_eq_ok.2 ⟨hcol, rfl⟩, ih.2 ⟨hcolumns, rfl⟩⟩

theorem addSet_run {e : Engine R} {name : String} (hname : name.isEmpty = false) (kind priority : Int)
    {columns : List Nat} (hcolumns : ∀ col ∈ columns, e.HasColumn col) (weights : List R) :
    addSet name (.integer kind) (.integer priority) (columns.map fun (col : Nat) => (col : Int))
      (weights.map .real) e =
      .ok (e.sets.length + 1) (e.withSet ⟨name, kind, priority, columns, weights⟩) := by
  have hweights : (weights.map .real).mapM Value.toReal = (.ok weights : Except Fault (List R)) := by
    rw [List.mapM_map]
    show weights.mapM (fun x => pure x) = _
    rw [List.mapM_pure, List.map_id']
    rfl
  have hcheck : (columns.map fun (col : Nat) => (col : Int)).forM e.checkColumn e = .ok ⟨⟩ e := by
    refine checkColumns_eq_ok.2 ⟨fun col hcol => ?_, rfl⟩
    obtain ⟨k, hk, rfl⟩ := List.mem_map.1 hcol
    exact column_isOk (hcolumns k hk)
  unfold addSet
  rw [Action.get_bind_run, Action.bind_ok hcheck]
  simp only [Value.toInteger, hweights, Action.lift_ok_bind_run, hname, Bool.false_eq_true, ↓reduceIte]
  simp [changed, withSet, Function.comp_def]
  rfl

/-! ### Settings -/

/-- A setting that is put changes the settings and nothing else. -/
theorem putSetting_ok {x : Setting} {v : Value R} {e d : Engine R} (h : putSetting x v e = .ok ⟨⟩ d) :
    d = { e with settings := d.settings } ∧ e.settings.set x v = .ok d.settings := by
  unfold putSetting at h
  rw [Action.get_bind_run] at h
  obtain ⟨settings, hset, hput⟩ := Action.lift_bind_eq_ok.1 h
  cases hput
  exact ⟨rfl, hset⟩

end Optima.Engine
