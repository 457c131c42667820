import Optima.Encoding.Extract
import Optima.Engine.Solving
import Optima.Proofs.Encoding.Loading

/-!
# Writing a solution into a model

Taking a solution back is a list of writes, each of a value for one entry.  No two of them are for the same entry
(`nodup_writes`), because an entry is a variable, an ordinary row or the goal, and never two of these.  So their order
does not matter, and each entry ends with the value that was written for it (`withValues_get`); an entry for which
there is no write keeps what it had.
-/

namespace Optima

variable {R : Type} [Scalar R]

namespace Model

omit [Scalar R] in
/-- The model with a value written for an entry. -/
def withValue (m : Model R) (vid : Nat) (x : R) : Model R :=
  { m with entries := m.entries.modify vid fun e => { e with value := x, state := .defined } }

/-- The model with several values written, one after the other. -/
def withValues (m : Model R) (writes : List (Nat × R)) : Model R :=
  writes.foldl (fun m w => m.withValue w.1 w.2) m

theorem setValue_run {m : Model R} {vid : Nat} (h : vid < m.entries.length) (x : R) :
    setValue vid (.real x) m = .ok ⟨⟩ (m.withValue vid x) := by
  have hentry : m.entry vid = .ok m.entries[vid] := entry_eq_ok.2 ⟨by omega, by simp [h]⟩
  unfold setValue
  rw [Action.get_bind_run, hentry]
  rfl

omit [Scalar R] in
theorem withValue_get (m : Model R) (vid : Nat) (x : R) (v : Nat) : (m.withValue vid x).entries[v]? =
    m.entries[v]?.map fun e => if vid = v then { e with value := x, state := .defined } else e := by
  rw [withValue, List.getElem?_modify]
  rfl

omit [Scalar R] in
@[simp] theorem withValue_length (m : Model R) (vid : Nat) (x : R) :
    (m.withValue vid x).entries.length = m.entries.length :=
  List.length_modify ..

omit [Scalar R] in
/-- With one write at most for each entry, each entry ends with what was written for it. -/
theorem withValues_get {writes : List (Nat × R)} (h : (writes.map Prod.fst).Nodup) (m : Model R) (v : Nat) :
    (m.withValues writes).entries[v]? =
      m.entries[v]?.map fun e => ((writes.lookup v).map fun x => { e with value := x, state := .defined }).getD e := by
  induction writes generalizing m with
  | nil => simp [withValues]
  | cons w writes ih =>
    rw [List.map_cons, List.nodup_cons] at h
    have hrest : (m.withValues (w :: writes)) = (m.withValue w.1 w.2).withValues writes := rfl
    rw [hrest, ih h.2, withValue_get, Option.map_map, List.lookup_cons]
    congr 1
    funext e
    by_cases hv : v = w.1
    · subst hv
      simp [lookup_eq_none h.1]
    · have hne : (v == w.1) = false := by simpa using hv
      simp [hne, Ne.symm hv]

omit [Scalar R] in
@[simp] theorem withValues_length (writes : List (Nat × R)) (m : Model R) :
    (m.withValues writes).entries.length = m.entries.length := by
  induction writes generalizing m with
  | nil => rfl
  | cons w writes ih => exact (ih _).trans (withValue_length m w.1 w.2)

omit [Scalar R] in
theorem withValues_append (m : Model R) (ws vs : List (Nat × R)) :
    m.withValues (ws ++ vs) = (m.withValues ws).withValues vs :=
  List.foldl_append ..

omit [Scalar R] in
/-- Values are all that is written. -/
theorem withValues_eq (writes : List (Nat × R)) (m : Model R) :
    m.withValues writes = { m with entries := (m.withValues writes).entries } := by
  induction writes generalizing m with
  | nil => rfl
  | cons w writes ih => exact ih (m.withValue w.1 w.2)

end Model

namespace Encoding

/-- The value at a place of a solution. -/
def valueAt (solution : List (Total R)) (place : Nat) : R :=
  ((solution[place]?).map Total.value).getD Scalar.zero

theorem writeValue_run {m : Model R} {solution : List (Total R)} {vid place : Nat} (hvid : vid < m.entries.length)
    (hplace : place < solution.length) :
    writeValue solution vid place m = .ok ⟨⟩ (m.withValue vid (valueAt solution place)) := by
  unfold writeValue valueAt
  rw [List.getElem?_eq_getElem hplace]
  exact Model.setValue_run hvid _

/-- A loop of writes whose entries and places are all there. -/
theorem writeValues_run {m : Model R} {solution : List (Total R)} {names : List (Nat × Nat)} (place : Nat → Nat)
    (h : ∀ p ∈ names, p.1 < m.entries.length ∧ place p.2 < solution.length) :
    (names.forM fun p => writeValue solution p.1 (place p.2)) m =
      .ok ⟨⟩ (m.withValues (names.map fun p => (p.1, valueAt solution (place p.2)))) := by
  induction names generalizing m with
  | nil => rfl
  | cons p names ih =>
    obtain ⟨hvid, hplace⟩ := h p (List.mem_cons_self ..)
    refine (Action.bind_ok (writeValue_run hvid hplace) _).trans (ih fun q hq => ?_)
    rw [Model.withValue_length]
    exact h q (List.mem_cons_of_mem _ hq)

private theorem writeGoals_run {m : Model R} (hgoal : ∀ g ∈ m.goals, g.row < m.entries.length) (x : R) :
    (m.goals.forM fun g => Model.setValue g.row (.real x)) m =
      .ok ⟨⟩ (m.withValues (m.goals.map fun g => (g.row, x))) := by
  unfold Model.goals at hgoal ⊢
  cases hg : m.goal with
  | none => rfl
  | some g => exact Action.bind_ok (Model.setValue_run (hgoal g (by simp [hg])) x) _

/-- What taking a solution back writes: the columns' values, the rows' values and the goal's. -/
def writes (m : Model R) (e : Engine R) (naming : Naming R) (solution : List (Total R)) : List (Nat × R) :=
  (naming.columns.map fun p => (p.1, valueAt solution (e.rows.length + p.2))) ++
    (naming.rows.map fun p => (p.1, valueAt solution p.2)) ++
    m.goals.map fun g => (g.row, e.results.objective.value)

theorem writeSolution_run {m : Model R} {e : Engine R} {naming : Naming R} {solution : List (Total R)}
    (hcolumns : ∀ p ∈ naming.columns, p.1 < m.entries.length ∧ e.rows.length + p.2 < solution.length)
    (hrows : ∀ p ∈ naming.rows, p.1 < m.entries.length ∧ p.2 < solution.length)
    (hgoal : ∀ g ∈ m.goals, g.row < m.entries.length) :
    writeSolution e naming solution m = .ok ⟨⟩ (m.withValues (writes m e naming solution)) := by
  unfold writeSolution writes
  refine (Action.bind_ok (writeValues_run (e.rows.length + ·) hcolumns) _).trans ?_
  refine (Action.bind_ok (writeValues_run id fun p hp => ?_) _).trans ?_
  · rw [Model.withValues_length]
    exact hrows p hp
  · rw [Action.get_bind_run, Model.withValues_append, Model.withValues_append]
    have hgoals (ws : List (Nat × R)) : (m.withValues ws).goals = m.goals := by
      rw [Model.withValues_eq]
      rfl
    rw [← Model.withValues_append]
    refine (writeGoals_run (fun g hg => ?_) _).trans ?_
    · rw [hgoals] at hg
      rw [Model.withValues_length]
      exact hgoal g hg
    · rw [hgoals, Model.withValues_append]
      rfl

/-! ### Solutions at a point -/

/-- The value of a row at a point: the sum over its coefficients, in order, each times the value of its variable. -/
def rowValue (m : Model R) (x : List R) (row : Nat) : R :=
  (Total.ofTerms ((m.rowTerms row).map fun t => t.2 * (x[m.variableVids.idxOf t.1]?).getD Scalar.zero)).value

/-- The second model is the first one with a point written into it. -/
structure Holds (m m' : Model R) (x : List R) : Prop where
  length : x.length = m.variableVids.length
  value : ∀ (k var : Nat) (y : R), m.variableVids[k]? = some var → x[k]? = some y →
    ∃ e, m.entries[var]? = some e ∧ m'.entries[var]? = some { e with value := y, state := .defined }
  row : ∀ row ∈ ordinaryRows m, ∃ e, m.entries[row]? = some e ∧
    m'.entries[row]? = some { e with value := rowValue m x row, state := .defined }
  goal : ∀ g, m.goal = some g → ∃ e, m.entries[g.row]? = some e ∧
    m'.entries[g.row]? = some { e with value := rowValue m x g.row, state := .defined }
  /-- Sets keep what they had. -/
  set : ∀ row ∈ setRows m, m'.entries[row]? = m.entries[row]?
  rest : m' = { m with entries := m'.entries }

theorem activity_terms (m : Model R) (x : List R) (row : Nat) :
    (Engine.activity (terms m row) x).value = rowValue m x row := by
  unfold Engine.activity rowValue terms
  rw [List.map_map]
  congr 2
  refine List.map_congr_left fun t ht => ?_
  simp only [Function.comp_apply, columnOf_eq_idxOf (mem_rowTerms.1 ht).1, Nat.add_sub_cancel]

/-- The solution of an engine with these rows at a point. -/
def solutionOf (m : Model R) (objective : Total R) (x : List R) : List (Total R) :=
  objective :: (ordinaryRows m).map (fun row => Engine.activity (terms m row) x) ++ x.map .scalar

theorem valueAt_row {m : Model R} {objective : Total R} {x : List R} {i row : Nat}
    (h : (ordinaryRows m)[i]? = some row) : valueAt (solutionOf m objective x) (i + 1) = rowValue m x row := by
  have hi := (List.getElem?_eq_some_iff.1 h).1
  have hget : (solutionOf m objective x)[i + 1]? = some (Engine.activity (terms m row) x) := by
    unfold solutionOf
    rw [List.getElem?_append_left (by simpa using hi), List.getElem?_cons_succ, List.getElem?_map, h]
    rfl
  rw [valueAt, hget, ← activity_terms]
  rfl

theorem valueAt_column {m : Model R} {objective : Total R} {x : List R} {k : Nat} {y : R} (h : x[k]? = some y) :
    valueAt (solutionOf m objective x) ((ordinaryRows m).length + (k + 1)) = y := by
  have hget : (solutionOf m objective x)[(ordinaryRows m).length + (k + 1)]? = some (.scalar y) := by
    have hlen : (objective :: (ordinaryRows m).map fun row => Engine.activity (terms m row) x).length =
        (ordinaryRows m).length + 1 := by simp
    unfold solutionOf
    rw [List.getElem?_append_right (by omega), hlen, List.getElem?_map,
      show (ordinaryRows m).length + (k + 1) - ((ordinaryRows m).length + 1) = k by omega, h]
    rfl
  rw [valueAt, hget]
  rfl

/-- What is written at a point. -/
def writesOf (m : Model R) (objective : Total R) (x : List R) : List (Nat × R) :=
  (numbering m.variableVids).map (fun p =>
      (p.1, valueAt (solutionOf m objective x) ((ordinaryRows m).length + p.2))) ++
    (numbering (ordinaryRows m)).map (fun p => (p.1, valueAt (solutionOf m objective x) p.2)) ++
    m.goals.map fun g => (g.row, objective.value)

omit [Scalar R] in
theorem ordinaryRows_subset {m : Model R} {row : Nat} (h : row ∈ ordinaryRows m) : row ∈ m.rowVids :=
  (List.mem_filter.1 h).1

omit [Scalar R] in
private theorem isGoal_of_goal {m : Model R} {g : Goal R} (h : m.goal = some g) : m.isGoal g.row = true := by
  rw [Model.isGoal, goalOn?_eq_some.2 ⟨h, rfl⟩]
  rfl

private theorem writesOf_keys (m : Model R) (objective : Total R) (x : List R) :
    (writesOf m objective x).map Prod.fst = m.variableVids ++ ordinaryRows m ++ m.goals.map Goal.row := by
  simp only [writesOf, List.map_append, List.map_map, Function.comp_def]
  show (numbering m.variableVids).map Prod.fst ++ (numbering (ordinaryRows m)).map Prod.fst ++ _ = _
  rw [numbering_map_fst, numbering_map_fst]

/-- No two writes are for the same entry. -/
theorem nodup_writes {m : Model R} (hm : m.Proper) (objective : Total R) (x : List R) :
    ((writesOf m objective x).map Prod.fst).Nodup := by
  have hgoals : (m.goals.map Goal.row).Nodup := by
    unfold Model.goals
    cases m.goal <;> simp
  rw [writesOf_keys, List.nodup_append, List.nodup_append]
  refine ⟨⟨Model.nodup_vidsWhere m _, (Model.nodup_vidsWhere m _).filter _, ?_⟩, hgoals, ?_⟩
  · rintro v hv _ hrow rfl
    exact m.variableVids_disjoint hv (ordinaryRows_subset hrow)
  · rintro v hv _ hgoal rfl
    obtain ⟨g, hg, rfl⟩ := List.mem_map.1 hgoal
    have hgoal : m.goal = some g := Option.mem_toList.1 hg
    rcases List.mem_append.1 hv with hv | hv
    · exact m.variableVids_disjoint hv (hm.goal g hgoal)
    · have hordinary := (List.mem_filter.1 hv).2
      simp [isOrdinary, isGoal_of_goal hgoal] at hordinary

/-- The writes of a solution at a point leave a model that holds the point. -/
theorem holds_withValues {m : Model R} (hm : m.Proper) {objective : Total R} {x : List R}
    (hx : x.length = m.variableVids.length)
    (hobjective : ∀ g, m.goal = some g → objective.value = rowValue m x g.row) :
    Holds m (m.withValues (writesOf m objective x)) x := by
  have hnodup := nodup_writes hm objective x
  have hwritten (v : Nat) (y : R) (hv : (v, y) ∈ writesOf m objective x) (e : Entry R)
      (he : m.entries[v]? = some e) : (m.withValues (writesOf m objective x)).entries[v]? =
        some { e with value := y, state := .defined } := by
    rw [Model.withValues_get hnodup, he, (lookup_eq_some_iff_mem hnodup).2 hv]
    rfl
  refine ⟨hx, ?_, ?_, ?_, ?_, Model.withValues_eq _ m⟩
  · intro k var y hk hy
    obtain ⟨e, he, -⟩ := Model.mem_variableVids.1 (List.mem_of_getElem? hk)
    refine ⟨e, he, hwritten var y ?_ e he⟩
    have hmem : (var, k + 1) ∈ numbering m.variableVids :=
      (lookup_eq_some_iff_mem (by rw [numbering_map_fst]; exact Model.nodup_vidsWhere m _)).1
        (columnMap_lookup hk)
    refine List.mem_append_left _ (List.mem_append_left _ (List.mem_map.2 ⟨_, hmem, ?_⟩))
    rw [valueAt_column hy]
  · intro row hrow
    obtain ⟨e, he, -⟩ := Model.mem_rowVids.1 (ordinaryRows_subset hrow)
    refine ⟨e, he, hwritten row _ ?_ e he⟩
    obtain ⟨i, hi⟩ := List.mem_iff_getElem?.1 hrow
    have hlookup : (numbering (ordinaryRows m)).lookup row = some (i + 1) :=
      (numbering_lookup ((Model.nodup_vidsWhere m _).filter _)).2 ⟨i, hi, rfl⟩
    have hmem : (row, i + 1) ∈ numbering (ordinaryRows m) :=
      (lookup_eq_some_iff_mem (by rw [numbering_map_fst]; exact (Model.nodup_vidsWhere m _).filter _)).1 hlookup
    refine List.mem_append_left _ (List.mem_append_right _ (List.mem_map.2 ⟨_, hmem, ?_⟩))
    rw [valueAt_row hi]
  · intro g hg
    obtain ⟨e, he, -⟩ := Model.mem_rowVids.1 (hm.goal g hg)
    refine ⟨e, he, hwritten g.row _ ?_ e he⟩
    refine List.mem_append_right _ (List.mem_map.2 ⟨g, Option.mem_toList.2 hg, ?_⟩)
    rw [hobjective g hg]
  · intro row hrow
    obtain ⟨hmem, hset⟩ := List.mem_filter.1 hrow
    simp only [isSet, Bool.and_eq_true, Bool.not_eq_eq_eq_not, Bool.not_true] at hset
    have hkey : row ∉ (writesOf m objective x).map Prod.fst := by
      rw [writesOf_keys, List.mem_append, List.mem_append]
      rintro ((hvar | hordinary) | hgoal)
      · exact m.variableVids_disjoint hvar hmem
      · obtain ⟨e, he, -⟩ := Model.mem_rowVids.1 hmem
        have hnone := (List.mem_filter.1 hordinary).2
        simp only [isOrdinary, he, Option.any_some, Bool.and_eq_true, beq_iff_eq] at hnone
        simp only [he, Option.any_some, bne_iff_ne] at hset
        exact hset.2 hnone.2
      · obtain ⟨g, hg, rfl⟩ := List.mem_map.1 hgoal
        rw [isGoal_of_goal (Option.mem_toList.1 hg)] at hset
        cases hset.1
    rw [Model.withValues_get hnodup, lookup_eq_none hkey]
    simp

/-- An engine that holds a model and has found a point writes it into the model. -/
theorem extract_run {m : Model R} (hm : m.Proper) {sentinel : R} {e : Engine R} {x : List R}
    (hx : x.length = m.variableVids.length) (hrows : e.rows = (ordinaryRows m).mapIdx (rowAt m sentinel))
    (hobjective : e.results.objective = Engine.activity ((m.goal.map fun g => terms m g.row).getD []) x)
    (hsolution : e.results.solution = some (solutionOf m e.results.objective x)) :
    ∃ m', extract e (namingOf m sentinel) m = .ok true m' ∧ Holds m m' x := by
  have hlength : (solutionOf m e.results.objective x).length =
      (ordinaryRows m).length + m.variableVids.length + 1 := by
    simp [solutionOf, hx]
  have hcount : e.rows.length = (ordinaryRows m).length := by
    rw [hrows, List.length_mapIdx]
  have hrange {l : List Nat} : ∀ p ∈ numbering l, p.1 ∈ l ∧ p.2 ≤ l.length := by
    intro p hp
    obtain ⟨i, hi, rfl⟩ := List.mem_mapIdx.1 hp
    exact ⟨List.getElem_mem hi, hi⟩
  have hentry {vid : Nat} {p : Entry R → Bool} (h : vid ∈ m.vidsWhere p) : vid < m.entries.length := by
    obtain ⟨d, hd, -⟩ := Model.mem_vidsWhere.1 h
    exact (List.getElem?_eq_some_iff.1 hd).1
  have hwrite : writeSolution e (namingOf m sentinel) (solutionOf m e.results.objective x) m =
      .ok ⟨⟩ (m.withValues (writesOf m e.results.objective x)) := by
    rw [writesOf, ← hcount]
    refine writeSolution_run (fun p hp => ?_) (fun p hp => ?_) fun g hg => ?_
    · obtain ⟨hmem, hle⟩ := hrange p hp
      exact ⟨hentry hmem, by omega⟩
    · obtain ⟨hmem, hle⟩ := hrange p hp
      exact ⟨hentry (ordinaryRows_subset hmem), by omega⟩
    · exact hentry (hm.goal g (Option.mem_toList.1 hg))
  refine ⟨m.withValues (writesOf m e.results.objective x), ?_, holds_withValues hm hx fun g hg => ?_⟩
  · unfold extract
    simp only [hsolution]
    rw [Action.bind_ok hwrite]
    rfl
  · rw [hobjective, hg]
    exact activity_terms m x g.row

end Encoding

end Optima
