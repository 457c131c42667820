import Optima.Proofs.Encoding.Columns

/-!
# What loading a model leaves in an engine

`described` is the engine that holds a model, written down without running anything: a column for each variable, a
row for each ordinary row, a set for each row with a set type, and the goal as the objective.  Loading a model into a
new engine leaves the described one (`loadModel_run`), and encoding a model that has a variable goes through
(`ofModel_run`).

The loop over the rows is followed from the front like the one over the variables: after the first rows of a model
the engine is what the description says of these rows alone, so the induction adds one row at the end.
-/

namespace Optima.Encoding

variable {R : Type}

/-! ### Kinds of rows -/

/-- Whether a row is neither the goal nor a set. -/
def isOrdinary (m : Model R) (row : Nat) : Bool :=
  !m.isGoal row && (m.entries[row]?).any fun e => e.sos == .none

/-- Whether a row is a set and not the goal. -/
def isSet (m : Model R) (row : Nat) : Bool :=
  !m.isGoal row && (m.entries[row]?).any fun e => e.sos != .none

/-- The rows that become rows, in the order of creation. -/
def ordinaryRows (m : Model R) : List Nat :=
  m.rowVids.filter (isOrdinary m)

/-- The rows that become sets, in the order of creation. -/
def setRows (m : Model R) : List Nat :=
  m.rowVids.filter (isSet m)

theorem goalOn?_eq_some {m : Model R} {row : Nat} {g : Goal R} :
    m.goalOn? row = some g ↔ m.goal = some g ∧ g.row = row := by
  rw [Model.goalOn?, Option.filter_eq_some_iff, beq_iff_eq, Int.natCast_inj]

variable [Scalar R]

/-! ### Single rows -/

/-- The relation, the right-hand side and the range of a row with the bounds of an entry. -/
def limitsFor (sentinel : R) (e : Entry R) : Relation × R × Option R :=
  match Scalar.isInfinite e.lower, Scalar.isInfinite e.upper with
  | false, false =>
    if Scalar.same e.lower e.upper then (.equal, e.upper, none) else (.atMost, e.upper, some (e.upper - e.lower))
  | false, true => (.atLeast, e.lower, none)
  | true, false => (.atMost, e.upper, none)
  | true, true => (.atMost, sentinel, none)

/-- The row with these terms and limits; `number` is the number of the row. -/
def rowFor (m : Model R) (sentinel : R) (number row : Nat) (e : Entry R) : Engine.Row R where
  name := "R" ++ toString number
  entries := terms m row
  relation := (limitsFor sentinel e).1
  rhs := clip sentinel (limitsFor sentinel e).2.1
  range := (limitsFor sentinel e).2.2.map fun x => Scalar.abs (clip sentinel x)

/-- The set with these terms; `number` is the number of the set. -/
def setFor (m : Model R) (number row : Nat) (sos : SosType) : Engine.OrderedSet R where
  name := "SOS" ++ toString number
  kind := if sos = .sos1 then 1 else 2
  priority := number
  columns := (terms m row).map Prod.fst
  weights := (terms m row).map Prod.snd

private theorem toMember_ofMember (r : Relation) : (Value.ofMember r : Value R).toMember Relation = .ok r := by
  cases r <;> rfl

private theorem addTerms_run {m : Model R} (hm : m.Proper) {e : Engine R} (row : Nat)
    (hcolumns : e.columns.length = m.variableVids.length) (hdefect : e.defects.row = none) (relation : Relation)
    (rhs : R) : Engine.addRow (compact m row).1 (compact m row).2 (.ofMember relation) (.real rhs) e =
      .ok (e.rows.length + 1) (e.withRow (terms m row) relation (e.inner rhs) none) :=
  Engine.addRow_run hdefect (compact_terms hm row hcolumns) (toMember_ofMember relation) rhs

theorem loadRow_run {m : Model R} (hm : m.Proper) {e : Engine R} (row : Nat)
    (hcolumns : e.columns.length = m.variableVids.length) (hdefect : e.defects.row = none) (d : Entry R) :
    loadRow m row d e.sentinel e = .ok (e.rows.length + 1)
      { e with rows := e.rows ++ [rowFor m e.sentinel (e.rows.length + 1) row d], loaded := false } := by
  have hadd := addTerms_run hm row hcolumns hdefect
  unfold loadRow
  simp only [rowFor, limitsFor]
  cases hlower : Scalar.isInfinite d.lower <;> cases hupper : Scalar.isInfinite d.upper
  · by_cases hsame : Scalar.same d.lower d.upper = true
    · simp only [hsame, ↓reduceIte]
      exact hadd .equal d.upper
    · simp only [hsame, Bool.false_eq_true, ↓reduceIte]
      rw [Action.bind_ok (hadd .atMost d.upper), Action.bind_ok (Engine.setRange_run ..)]
      rfl
  · exact hadd .atLeast d.lower
  · exact hadd .atMost d.upper
  · exact hadd .atMost e.sentinel

theorem loadSet_run {m : Model R} {e : Engine R} (row number : Nat)
    (hcolumns : e.columns.length = m.variableVids.length) (sos : SosType) :
    loadSet m row number sos e = .ok ⟨⟩ (e.withSet (setFor m number row sos)) := by
  have hname : ("SOS" ++ toString number).isEmpty = false := by simp
  have hrange : ∀ col ∈ (terms m row).map Prod.fst, e.HasColumn col := by
    intro col hcol
    obtain ⟨t, ht, rfl⟩ := List.mem_map.1 hcol
    exact terms_hasColumn hcolumns ht
  have hadd := Engine.addSet_run hname (if sos = .sos1 then 1 else 2) number hrange ((terms m row).map Prod.snd)
  unfold loadSet
  rw [compact_eq]
  simp only [List.map_map] at hadd
  exact Action.bind_ok hadd _

theorem loadObjective_run {m : Model R} (hm : m.Proper) {e : Engine R}
    (hcolumns : e.columns.length = m.variableVids.length) (g : Goal R) :
    loadObjective m g e =
      .ok ⟨⟩ { e with maximize := !g.minimize, objective := terms m g.row, loaded := false } := by
  unfold loadObjective
  rw [Action.bind_ok (Engine.setSense_run e _)]
  exact Engine.setObjective_run (compact_terms hm g.row hcolumns)

/-! ### All rows -/

/-- The row at a place among the ordinary rows. -/
def rowAt (m : Model R) (sentinel : R) (i row : Nat) : Engine.Row R :=
  rowFor m sentinel (i + 1) row ((m.entries[row]?).getD (.new .nothing (.row .none)))

/-- The set at a place among the sets. -/
def setAt (m : Model R) (i row : Nat) : Engine.OrderedSet R :=
  setFor m (i + 1) row (((m.entries[row]?).map Entry.sos).getD .none)

/-- The goal, if it is on one of these rows. -/
def goalAmong (m : Model R) (rows : List Nat) : Option (Goal R) :=
  m.goal.filter fun g => rows.contains g.row

/-- What has been numbered after these rows. -/
def progress (m : Model R) (rows : List Nat) : Progress :=
  ⟨numbering (rows.filter (isOrdinary m)), (rows.filter (isSet m)).length⟩

/-- The engine after these rows have been loaded. -/
def withRows (m : Model R) (e : Engine R) (rows : List Nat) : Engine R :=
  { e with
    rows := (rows.filter (isOrdinary m)).mapIdx (rowAt m e.sentinel)
    sets := (rows.filter (isSet m)).mapIdx (setAt m)
    objective := ((goalAmong m rows).map fun g => terms m g.row).getD []
    maximize := (goalAmong m rows).any fun g => !g.minimize }

omit [Scalar R] in
private theorem goalAmong_nil (m : Model R) : goalAmong m [] = none := by
  unfold goalAmong
  cases m.goal <;> rfl

omit [Scalar R] in
private theorem goalAmong_concat_self {m : Model R} {g : Goal R} (hg : m.goal = some g) (rows : List Nat) :
    goalAmong m (rows ++ [g.row]) = some g := by
  simp [goalAmong, hg]

omit [Scalar R] in
private theorem goalAmong_concat {m : Model R} {row : Nat} (h : m.goalOn? row = none) (rows : List Nat) :
    goalAmong m (rows ++ [row]) = goalAmong m rows := by
  unfold goalAmong
  cases hg : m.goal with
  | none => rfl
  | some g =>
    have hne : g.row ≠ row := by
      intro heq
      rw [goalOn?_eq_some.2 ⟨hg, heq⟩] at h
      cases h
    simp [Option.filter, hne]

/-- One more row, loaded as what it is. -/
theorem loadEntry_run {m : Model R} (hm : m.Proper) {e : Engine R}
    (hcolumns : e.columns.length = m.variableVids.length) (hdefect : e.defects.row = none)
    (hloaded : e.loaded = false) (rows : List Nat) {row : Nat} (hrow : row ∈ m.rowVids) :
    loadEntry m e.sentinel (progress m rows) row (withRows m e rows) =
      .ok (progress m (rows ++ [row])) (withRows m e (rows ++ [row])) := by
  obtain ⟨d, hd, -⟩ := Model.mem_rowVids.1 hrow
  have hcolumns' : (withRows m e rows).columns.length = m.variableVids.length := hcolumns
  unfold loadEntry
  simp only [hd]
  cases hgoal : m.goalOn? row with
  | some g =>
    obtain ⟨hg, rfl⟩ := goalOn?_eq_some.1 hgoal
    have hordinary : isOrdinary m g.row = false := by simp [isOrdinary, Model.isGoal, hgoal]
    have hset : isSet m g.row = false := by simp [isSet, Model.isGoal, hgoal]
    refine (Action.bind_ok (loadObjective_run hm hcolumns' g) _).trans ?_
    simp [progress, withRows, hordinary, hset, goalAmong_concat_self hg, hloaded]
  | none =>
    by_cases hsos : d.sos = .none
    · have hordinary : isOrdinary m row = true := by simp [isOrdinary, Model.isGoal, hgoal, hd, hsos]
      have hset : isSet m row = false := by simp [isSet, hd, hsos]
      simp only [hsos, ↓reduceIte]
      refine (Action.bind_ok (loadRow_run hm row hcolumns' hdefect d) _).trans ?_
      simp [progress, withRows, hordinary, hset, goalAmong_concat hgoal, hloaded, numbering, rowAt, hd]
      rfl
    · have hordinary : isOrdinary m row = false := by simp [isOrdinary, hd, hsos]
      have hset : isSet m row = true := by simp [isSet, Model.isGoal, hgoal, hd, hsos]
      simp only [hsos, ↓reduceIte]
      refine (Action.bind_ok (loadSet_run row _ hcolumns' d.sos) _).trans ?_
      simp [progress, withRows, Engine.withSet, hordinary, hset, goalAmong_concat hgoal, hloaded, numbering, setAt, hd]

private theorem loadEntries_run {m : Model R} (hm : m.Proper) {e : Engine R}
    (hcolumns : e.columns.length = m.variableVids.length) (hdefect : e.defects.row = none)
    (hloaded : e.loaded = false) (hstart : withRows m e [] = e) :
    m.rowVids.foldlM (loadEntry m e.sentinel) ⟨[], 0⟩ e =
      .ok (progress m m.rowVids) (withRows m e m.rowVids) := by
  suffices loop : ∀ rows : List Nat, (∀ row ∈ rows, row ∈ m.rowVids) →
      rows.foldlM (loadEntry m e.sentinel) ⟨[], 0⟩ e = .ok (progress m rows) (withRows m e rows) from
    loop _ fun _ => id
  intro rows
  induction rows using List.reverseRecOn with
  | nil =>
    intro _
    rw [hstart]
    rfl
  | append_singleton rows row ih =>
    intro hmem
    rw [Action.foldlM_concat (ih fun row h => hmem row (List.mem_append_left _ h))]
    exact loadEntry_run hm hcolumns hdefect hloaded rows (hmem row (by simp))

/-- The size from which on a number counts as infinite in an engine loaded with this one, or with none. -/
def sentinelOf (infinite : Value R) : Except Fault R :=
  match infinite with
  | .nothing => .ok Setting.defaultInfinite
  | v => v.toReal

/-- The names of a model's variables and rows. -/
def namingOf (m : Model R) (sentinel : R) : Naming R :=
  ⟨columnMap m, numbering (ordinaryRows m), sentinel⟩

/-- The engine that holds a model. -/
def described (m : Model R) (sentinel : R) (search : Search.Model R) : Engine R :=
  { Engine.new m.variableVids.length .none search with
    columns := m.variableVids.mapIdx (columnAt m sentinel)
    rows := (ordinaryRows m).mapIdx (rowAt m sentinel)
    objective := (m.goal.map fun g => terms m g.row).getD []
    maximize := m.goal.any fun g => !g.minimize
    sets := (setRows m).mapIdx (setAt m)
    settings := { Settings.start with sentinel := sentinel } }

private theorem goalAmong_rowVids {m : Model R} (hm : m.Proper) : goalAmong m m.rowVids = m.goal := by
  unfold goalAmong
  cases hg : m.goal with
  | none => rfl
  | some g => simp [Option.filter, hm.goal g hg]

/-- The engine just before a model is loaded. -/
private def readied (columns : Nat) (sentinel : R) (search : Search.Model R) : Engine R :=
  { Engine.new columns .none search with settings := { Settings.start with sentinel := sentinel }, rowMode := true }

private theorem setSentinel_run {infinite : Value R} {sentinel : R} (h : sentinelOf infinite = .ok sentinel)
    (columns : Nat) (search : Search.Model R) :
    setSentinel infinite (Engine.new columns .none search) =
      .ok ⟨⟩ { readied columns sentinel search with rowMode := false } := by
  cases infinite with
  | nothing =>
    cases h
    rfl
  | _ => exact Engine.setInfinite_run h

theorem loadModel_run {m : Model R} (hm : m.Proper) {infinite : Value R} {sentinel : R}
    (hsentinel : sentinelOf infinite = .ok sentinel) (search : Search.Model R) :
    loadModel m infinite (Engine.new m.variableVids.length .none search) =
      .ok (namingOf m sentinel, (setRows m).length) (described m sentinel search) := by
  let ready := readied m.variableVids.length sentinel search
  have hdrop : ready.columns.drop m.variableVids.length = [] := by
    simp [ready, readied, Engine.new]
  have hcolumns := loadColumns_run (m := m) (e := ready) rfl rfl
  have hstart : withRows m (withColumns m ready m.variableVids) [] = withColumns m ready m.variableVids := by
    simp only [withRows, goalAmong_nil]
    rfl
  have hrows := loadEntries_run hm (by simp [withColumns, hdrop]) rfl rfl hstart
  unfold loadModel
  rw [Action.bind_ok (setSentinel_run hsentinel _ search), Action.get_bind_run,
    Action.bind_ok (Engine.setRowMode_run _ _)]
  refine (Action.bind_ok hcolumns _).trans ((Action.bind_ok hrows _).trans ?_)
  rw [Action.bind_ok (Engine.setRowMode_run _ _)]
  simp only [Action.pure_run, progress, withRows, withColumns, goalAmong_rowVids hm, hdrop, List.append_nil]
  rfl

private theorem loadModel_error (m : Model R) {infinite : Value R} {fault : Fault}
    (hsentinel : sentinelOf infinite = .error fault) (e : Engine R) :
    loadModel m infinite e = .error fault e := by
  have hset : setSentinel infinite e = .error fault e := by
    cases infinite with
    | nothing => cases hsentinel
    | _ =>
      unfold setSentinel Engine.setInfinite Engine.putSetting
      simp only [sentinelOf] at hsentinel
      simp only [Action.get_bind_run, Settings.set, hsentinel]
      rfl
  exact Action.bind_error hset _

/-! ### Encoding -/

/-- The search that is made for an engine. -/
def searchFor (h : Host R) : Search.Model R :=
  ⟨h.searches + 1, .empty, { Search.Knobs.start with verbose := false }, none⟩

theorem ofModel_run {m : Model R} (hm : m.Proper) (hvar : m.variableVids ≠ []) {infinite : Value R} {sentinel : R}
    (hsentinel : sentinelOf infinite = .ok sentinel) (h : Host R) :
    ∃ journal, ofModel m .standard infinite h =
      .ok ⟨described m sentinel (searchFor h), namingOf m sentinel⟩
        { h with searches := h.searches + 1, latest := some (searchFor h), journal := journal } := by
  have hempty : m.variableVids.isEmpty = false := by simpa using hvar
  have hmake : makeEngine .standard m.variableVids.length h =
      .ok (Engine.new m.variableVids.length .none (searchFor h))
        { h with searches := h.searches + 1, latest := some (searchFor h) } := rfl
  unfold ofModel
  simp only [hempty, Bool.false_eq_true, ↓reduceIte]
  rw [Action.bind_ok hmake, loadModel_run hm hsentinel]
  exact ⟨_, rfl⟩

/-- Only models with a variable are encoded, and only with a sentinel that is a number. -/
theorem ofModel_eq_ok {m : Model R} {infinite : Value R} {h h' : Host R} {t : Encoding R}
    (hrun : ofModel m .standard infinite h = .ok t h') :
    m.variableVids ≠ [] ∧ ∃ sentinel, sentinelOf infinite = .ok sentinel := by
  unfold ofModel at hrun
  by_cases hempty : m.variableVids.isEmpty = true
  · simp [hempty] at hrun
  · simp only [hempty, Bool.false_eq_true, ↓reduceIte] at hrun
    refine ⟨by simpa using hempty, ?_⟩
    cases hsentinel : sentinelOf infinite with
    | ok sentinel => exact ⟨sentinel, rfl⟩
    | error fault =>
      obtain ⟨e, h₁, -, hload⟩ := Action.bind_eq_ok.1 hrun
      rw [loadModel_error m hsentinel] at hload
      cases hload

end Optima.Encoding
