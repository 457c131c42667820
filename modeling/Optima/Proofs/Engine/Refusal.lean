import Optima.Proofs.Engine.Built
import Optima.Proofs.Value

/-!
# Calls that an engine refuses

The calls that build a program are whole (`Call.whole`), with one exception: a call that sets both bounds of a column
writes the lower one before it looks at the upper one.  So a call that stops with a fault has changed nothing, unless it
was of this kind, the column was there, the lower bound was a number and the upper one was not; then the lower bound
stays written, and the search is not told (`HalfDone`).

Which calls go through can be said without running them: `Call.Accepted` lists what each call needs.
-/

namespace Optima.Engine

variable {R : Type}

open Optima.Action (Keeps Passes Succeeds Whole)

theorem succeeds_changed : Succeeds (changed : Build R Unit) :=
  .modify _

theorem whole_modifyColumn (col : Int) (f : Column R → Column R) : Whole (modifyColumn col f) :=
  .after_get fun _ => .after_lift fun _ => (Succeeds.modify _).whole

variable [Scalar R]

theorem whole_writeLower (col : Int) (v : Value R) : Whole (writeLower col v) :=
  .after_get fun _ => .after_lift fun _ => whole_modifyColumn _ _

theorem whole_writeUpper (col : Int) (v : Value R) : Whole (writeUpper col v) :=
  .after_get fun _ => .after_lift fun _ => whole_modifyColumn _ _

theorem whole_putSetting (s : Setting) (v : Value R) : Whole (putSetting s v) :=
  .after_get fun _ => .after_lift fun _ => (Succeeds.modify _).whole

theorem whole_addRow (values : List (Value R)) (columns : List Int) (relation rhs : Value R) :
    Whole (addRow values columns relation rhs) := by
  refine .after_get fun e => ?_
  split
  · exact .throw _
  · exact .after_lift fun _ => .after_lift fun _ => .after_lift fun _ =>
      ((Succeeds.modify _).bind fun _ => succeeds_changed.bind fun _ => .pure _).whole

theorem whole_addSet (name : String) (kind priority : Value R) (columns : List Int) (weights : List (Value R)) :
    Whole (addSet name kind priority columns weights) := by
  have hcheck (e : Engine R) : Keeps id (columns.forM e.checkColumn) := .forM fun _ _ => .lift _
  refine .after_get fun e => .after_look (hcheck e) fun _ => .after_lift fun _ => .after_lift fun _ =>
    .after_lift fun _ => ?_
  exact ((Succeeds.modify _).bind fun _ => succeeds_changed.bind fun _ => .pure _).whole

/-- A building call that stops with a fault has changed nothing, unless it was to set both bounds of a column. -/
theorem Call.whole (c : Call R) (hc : ∀ col lower upper, c ≠ .setBounds col lower upper) : Whole c.perform := by
  cases c with
  | setParameter name v =>
    show Whole (Engine.setParameter name v)
    unfold Engine.setParameter
    split
    · exact .throw _
    · exact whole_putSetting _ _
  | setInfinite infinite => exact whole_putSetting _ _
  | setColumnName col name => exact (whole_modifyColumn _ _).bind fun _ => succeeds_changed
  | setInteger col integer => exact (whole_modifyColumn _ _).bind fun _ => succeeds_changed
  | setBounds col lower upper => exact absurd rfl (hc col lower upper)
  | setLower col lower => exact (whole_writeLower _ _).bind fun _ => succeeds_changed
  | setUpper col upper => exact (whole_writeUpper _ _).bind fun _ => succeeds_changed
  | setUnbounded col => exact (whole_modifyColumn _ _).bind fun _ => succeeds_changed
  | setRowMode on =>
    have hrun : Succeeds (Engine.setRowMode on : Build R Bool) := fun _ => ⟨_, _, rfl⟩
    exact (hrun.bind fun _ => .pure _).whole
  | addRow values columns relation rhs => exact (whole_addRow _ _ _ _).bind fun _ => .pure _
  | setRange row range =>
    exact .after_get fun _ => .after_lift fun _ => .after_get fun _ => .after_lift fun _ =>
      ((Succeeds.modify _).bind fun _ => succeeds_changed).whole
  | setObjective values columns =>
    exact .after_get fun _ => .after_lift fun _ => ((Succeeds.modify _).bind fun _ => succeeds_changed).whole
  | setSense maximize => exact ((Succeeds.modify _).bind fun _ => succeeds_changed).whole
  | addSet name kind priority columns weights => exact (whole_addSet _ _ _ _ _).bind fun _ => .pure _

/-! ### What calls need -/

/-- The engine has a row of this number. -/
def HasRow (e : Engine R) (row : Nat) : Prop :=
  1 ≤ row ∧ row ≤ e.rows.length

/-- Coefficients and columns that can be put among entries: the columns are there, and the coefficients are numbers.
A coefficient that is zero is not looked at any further. -/
def AreTerms (e : Engine R) (terms : List (Value R × Int)) : Prop :=
  ∀ t ∈ terms, e.HasColumn t.2.toNat ∧ (t.1.same (.real Scalar.zero) = true ∨ t.1.IsReal)

/-- What a call needs to go through. -/
def Call.Accepted (e : Engine R) : Call R → Prop
  | setParameter name v => ∃ s, Setting.ofName? name = some s ∧ (s = .infinite → v.IsReal)
  | setInfinite infinite => infinite.IsReal
  | setColumnName col _ | setInteger col _ | setUnbounded col => e.HasColumn col.toNat
  | setBounds col lower upper => e.HasColumn col.toNat ∧ lower.IsReal ∧ upper.IsReal
  | setLower col bound | setUpper col bound => e.HasColumn col.toNat ∧ bound.IsReal
  | setRowMode _ | setSense _ => True
  | addRow values columns relation rhs => e.defects.row = none ∧ e.AreTerms (values.zip columns) ∧
    (∃ r, relation.toMember Relation = .ok r) ∧ rhs.IsReal
  | setRange row range => e.HasRow row.toNat ∧ range.IsReal
  | setObjective values columns => e.AreTerms (values.zip columns)
  | addSet _ kind priority columns weights => (∀ col ∈ columns, e.HasColumn col.toNat) ∧ kind.IsInteger ∧
    priority.IsInteger ∧ ∀ w ∈ weights, w.IsReal

section Lookups

omit [Scalar R]

theorem column_isOk_iff {e : Engine R} {col : Int} : (∃ c, e.column col = .ok c) ↔ e.HasColumn col.toNat := by
  constructor
  · rintro ⟨c, hc⟩
    exact column_range hc
  · intro hcol
    have hpos : 1 ≤ col.toNat := hcol.1
    have hcast : (col.toNat : Int) = col := by omega
    exact hcast ▸ column_isOk hcol

theorem row_isOk_iff {e : Engine R} {row : Int} : (∃ r, e.row row = .ok r) ↔ e.HasRow row.toNat := by
  have hget : (∃ r, e.rows[(row - 1).toNat]? = some r) ↔ (row - 1).toNat < e.rows.length := by
    simp [List.getElem?_eq_some_iff]
  simp only [row_eq_ok, exists_and_left, hget, HasRow]
  omega

end Lookups

theorem innerOf_isOk {e : Engine R} {v : Value R} : (∃ x, e.innerOf v = .ok x) ↔ v.IsReal := by
  unfold innerOf Value.IsReal
  cases v.toReal with
  | ok x => simp [Except.map]
  | error fault => simp [Except.map]

private theorem putTerm_isOk {e : Engine R} (before : List (Nat × R)) (t : Value R × Int) :
    (∃ entries, e.putTerm before t = .ok entries) ↔
      e.HasColumn t.2.toNat ∧ (t.1.same (.real Scalar.zero) = true ∨ t.1.IsReal) := by
  rw [← column_isOk_iff]
  unfold putTerm
  simp only [except_bind_eq_ok]
  constructor
  · rintro ⟨entries, c, hc, hput⟩
    refine ⟨⟨c, hc⟩, ?_⟩
    split at hput
    · next hzero => exact .inl hzero
    · obtain ⟨x, hx, -⟩ := except_bind_eq_ok.1 hput
      exact .inr ⟨x, hx⟩
  · rintro ⟨⟨c, hc⟩, hvalue⟩
    by_cases hzero : t.1.same (.real Scalar.zero) = true
    · exact ⟨before, c, hc, by rw [if_pos hzero]; rfl⟩
    · obtain ⟨x, hx⟩ := hvalue.resolve_left hzero
      exact ⟨_, c, hc, by rw [if_neg hzero, hx]; rfl⟩

/-- Terms make up entries when each of them can be put. -/
theorem compact_isOk {e : Engine R} {terms : List (Value R × Int)} :
    (∃ entries, e.compact terms = .ok entries) ↔ e.AreTerms terms := by
  suffices loop : ∀ before : List (Nat × R),
      (∃ entries, terms.foldlM e.putTerm before = .ok entries) ↔ e.AreTerms terms from loop []
  unfold AreTerms
  induction terms with
  | nil => exact fun before => iff_of_true ⟨before, rfl⟩ (by simp)
  | cons t terms ih =>
    intro before
    rw [List.forall_mem_cons, ← putTerm_isOk before t]
    simp only [List.foldlM_cons, except_bind_eq_ok]
    constructor
    · rintro ⟨entries, next, hput, hrest⟩
      exact ⟨⟨next, hput⟩, (ih next).1 ⟨entries, hrest⟩⟩
    · rintro ⟨⟨next, hput⟩, hterms⟩
      obtain ⟨entries, hrest⟩ := (ih next).2 hterms
      exact ⟨entries, next, hput, hrest⟩

theorem toReals_isOk {values : List (Value R)} :
    (∃ xs, values.mapM Value.toReal = .ok xs) ↔ ∀ v ∈ values, v.IsReal := by
  induction values with
  | nil => exact iff_of_true ⟨[], rfl⟩ (by simp)
  | cons v values ih =>
    rw [List.forall_mem_cons, ← ih]
    simp only [List.mapM_cons, except_bind_eq_ok]
    constructor
    · rintro ⟨xs, x, hx, rest, hrest, -⟩
      exact ⟨⟨x, hx⟩, rest, hrest⟩
    · rintro ⟨⟨x, hx⟩, rest, hrest⟩
      exact ⟨x :: rest, x, hx, rest, hrest, rfl⟩

/-! ### Which calls go through -/

omit [Scalar R] in
theorem passes_modifyColumn (col : Int) (f : Column R → Column R) (e : Engine R) :
    Passes (modifyColumn col f) e ↔ e.HasColumn col.toNat := by
  have hwrite (g : Engine R → Engine R) : Passes (modify g : Build R PUnit) e := Action.passes_modify g e
  unfold modifyColumn
  simp only [Action.passes_get_bind, Action.passes_lift_bind, hwrite, and_true]
  exact column_isOk_iff

theorem passes_writeLower (col : Int) (v : Value R) (e : Engine R) :
    Passes (writeLower col v) e ↔ e.HasColumn col.toNat ∧ v.IsReal := by
  unfold writeLower
  simp only [Action.passes_get_bind, Action.passes_lift_bind, passes_modifyColumn, exists_and_right, innerOf_isOk]
  exact and_comm

theorem passes_writeUpper (col : Int) (v : Value R) (e : Engine R) :
    Passes (writeUpper col v) e ↔ e.HasColumn col.toNat ∧ v.IsReal := by
  unfold writeUpper
  simp only [Action.passes_get_bind, Action.passes_lift_bind, passes_modifyColumn, exists_and_right, innerOf_isOk]
  exact and_comm

theorem passes_putSetting (s : Setting) (v : Value R) (e : Engine R) :
    Passes (putSetting s v) e ↔ (s = .infinite → v.IsReal) := by
  have hwrite (d : Engine R) : Passes (set d : Build R PUnit) e := ⟨⟨⟩, d, rfl⟩
  unfold putSetting
  simp only [Action.passes_get_bind, Action.passes_lift_bind, hwrite, and_true]
  unfold Settings.set Value.IsReal
  split
  · cases v.toReal with
    | ok x => simp [Except.map]
    | error fault => simp [Except.map]
  · next hother => exact iff_of_true ⟨_, rfl⟩ fun h => (hother h).elim

theorem passes_addRow (values : List (Value R)) (columns : List Int) (relation rhs : Value R) (e : Engine R) :
    Passes (addRow values columns relation rhs) e ↔ e.defects.row = none ∧ e.AreTerms (values.zip columns) ∧
      (∃ r, relation.toMember Relation = .ok r) ∧ rhs.IsReal := by
  have hwrite (f : Engine R → Engine R) (n : Nat) :
      Passes (modify f >>= fun _ => changed >>= fun _ => (pure n : Build R Nat)) e :=
    ⟨_, _, rfl⟩
  unfold addRow
  rw [Action.passes_get_bind]
  cases e.defects.row with
  | some text => simp
  | none =>
    simp only [Action.passes_lift_bind, hwrite, and_true, exists_and_right, compact_isOk, innerOf_isOk, true_and]

theorem passes_addSet (name : String) (kind priority : Value R) (columns : List Int) (weights : List (Value R))
    (e : Engine R) : Passes (addSet name kind priority columns weights) e ↔
      (∀ col ∈ columns, e.HasColumn col.toNat) ∧ kind.IsInteger ∧ priority.IsInteger ∧ ∀ w ∈ weights, w.IsReal := by
  have hwrite (f : Engine R → Engine R) (n : Nat) :
      Passes (modify f >>= fun _ => changed >>= fun _ => (pure n : Build R Nat)) e :=
    ⟨_, _, rfl⟩
  have hcheck : columns.forM e.checkColumn e = .ok ⟨⟩ e ↔ ∀ col ∈ columns, e.HasColumn col.toNat := by
    rw [checkColumns_eq_ok, and_iff_left rfl]
    exact forall₂_congr fun _ _ => column_isOk_iff
  have hlook : Keeps id (columns.forM e.checkColumn) := .forM fun _ _ => .lift _
  unfold addSet
  rw [Action.passes_get_bind, Action.passes_look_bind hlook, ← hcheck]
  simp only [Action.passes_lift_bind, hwrite, and_true, exists_and_right, toReals_isOk]
  constructor
  · rintro ⟨⟨⟨⟩, hcolumns⟩, hvalues⟩
    exact ⟨hcolumns, hvalues⟩
  · rintro ⟨hcolumns, hvalues⟩
    exact ⟨⟨⟨⟩, hcolumns⟩, hvalues⟩

theorem passes_setRange (row : Int) (range : Value R) (e : Engine R) :
    Passes (setRange row range) e ↔ e.HasRow row.toNat ∧ range.IsReal := by
  have hwrite (f : Engine R → Engine R) : Passes (modify f >>= fun _ => (changed : Build R Unit)) e := ⟨_, _, rfl⟩
  unfold setRange
  simp only [Action.passes_get_bind, Action.passes_lift_bind, hwrite, and_true, exists_and_right, innerOf_isOk,
    row_isOk_iff]
  exact and_comm

/-! ### Setting both bounds -/

/-- The engine with another lower bound of a column; the search is not told. -/
def withLower (e : Engine R) (col : Int) (x : R) : Engine R :=
  { e with columns := e.columns.modify (col - 1).toNat fun c => { c with lower := x } }

omit [Scalar R] in
theorem withLower_hasColumn (e : Engine R) (col : Int) (x : R) (k : Nat) :
    (e.withLower col x).HasColumn k ↔ e.HasColumn k := by
  simp [HasColumn, withLower]

theorem writeLower_ok {e : Engine R} {col : Int} {lower : Value R} {x : R} (hcol : e.HasColumn col.toNat)
    (hx : e.innerOf lower = .ok x) : writeLower col lower e = .ok ⟨⟩ (e.withLower col x) := by
  obtain ⟨c, hc⟩ := column_isOk_iff.2 hcol
  unfold writeLower modifyColumn
  rw [Action.get_bind_run, hx, Action.lift_ok_bind_run, Action.get_bind_run, hc, Action.lift_ok_bind_run]
  rfl

/-- A call that sets both bounds goes through; or it stops before the first writing, or between the two. -/
theorem setBounds_cases (col : Int) (lower upper : Value R) (e : Engine R) :
    (e.HasColumn col.toNat ∧ lower.IsReal ∧ upper.IsReal ∧ Passes (setBounds col lower upper) e) ∨
    (¬(e.HasColumn col.toNat ∧ lower.IsReal) ∧ ∃ fault, setBounds col lower upper e = .error fault e) ∨
    (e.HasColumn col.toNat ∧ ¬upper.IsReal ∧ ∃ x, e.innerOf lower = .ok x ∧
      ∃ fault, setBounds col lower upper e = .error fault (e.withLower col x)) := by
  have hstart : setBounds col lower upper e =
      (Action.lift (e.column col) >>= fun _ => writeLower col lower >>= fun _ => writeUpper col upper >>= fun _ =>
        changed) e := rfl
  cases hc : e.column col with
  | error fault =>
    have hcol : ¬e.HasColumn col.toNat := by
      rw [← column_isOk_iff, hc]
      rintro ⟨c, ⟨⟩⟩
    rw [hc, Action.lift_error_bind_run] at hstart
    exact .inr (.inl ⟨fun h => hcol h.1, fault, hstart⟩)
  | ok c =>
    have hcol : e.HasColumn col.toNat := column_isOk_iff.1 ⟨c, hc⟩
    rw [hc, Action.lift_ok_bind_run] at hstart
    cases hx : e.innerOf lower with
    | error fault =>
      have hlower : ¬lower.IsReal := by
        rw [← innerOf_isOk (e := e), hx]
        rintro ⟨x, ⟨⟩⟩
      have hno : ¬Passes (writeLower col lower) e := fun h => hlower ((passes_writeLower col lower e).1 h).2
      obtain ⟨-, fault, hrun⟩ := ((whole_writeLower col lower).cases e).resolve_left hno
      exact .inr (.inl ⟨fun h => hlower h.2, fault, hstart.trans (Action.bind_error hrun _)⟩)
    | ok x =>
      have hlower : lower.IsReal := innerOf_isOk.1 ⟨x, hx⟩
      have hwhole : Whole (writeUpper col upper >>= fun _ => (changed : Build R Unit)) :=
        (whole_writeUpper col upper).bind fun _ => succeeds_changed
      have hupper : Passes (writeUpper col upper >>= fun _ => (changed : Build R Unit)) (e.withLower col x) ↔
          upper.IsReal := by
        rw [Action.passes_bind_of_succeeds (fun _ => succeeds_changed), passes_writeUpper, withLower_hasColumn]
        exact and_iff_right hcol
      rw [Action.bind_ok (writeLower_ok hcol hx)] at hstart
      rcases hwhole.cases (e.withLower col x) with hpasses | ⟨hstops, fault, hrun⟩
      · obtain ⟨a, d, hrun⟩ := hpasses
        exact .inl ⟨hcol, hlower, hupper.1 ⟨a, d, hrun⟩, a, d, hstart.trans hrun⟩
      · exact .inr (.inr ⟨hcol, fun h => hstops (hupper.2 h), x, rfl, fault, hstart.trans hrun⟩)

theorem passes_setBounds (col : Int) (lower upper : Value R) (e : Engine R) :
    Passes (setBounds col lower upper) e ↔ e.HasColumn col.toNat ∧ lower.IsReal ∧ upper.IsReal := by
  constructor
  · rintro ⟨a, d, hrun⟩
    rcases setBounds_cases col lower upper e with
      ⟨hcol, hlower, hupper, -⟩ | ⟨-, fault, hstop⟩ | ⟨-, -, x, -, fault, hstop⟩
    · exact ⟨hcol, hlower, hupper⟩
    · rw [hstop] at hrun
      cases hrun
    · rw [hstop] at hrun
      cases hrun
  · rintro ⟨hcol, hlower, hupper⟩
    rcases setBounds_cases col lower upper e with ⟨-, -, -, hpasses⟩ | ⟨hno, -⟩ | ⟨-, hno, -⟩
    · exact hpasses
    · exact absurd ⟨hcol, hlower⟩ hno
    · exact absurd hupper hno

/-! ### All calls -/

/-- A call goes through exactly when it has what it needs. -/
theorem Call.passes_iff (c : Call R) (e : Engine R) : Passes c.perform e ↔ c.Accepted e := by
  have hgoes {α : Type} {act : Build R α} : Passes (act >>= fun _ => (pure () : Build R Unit)) e ↔ Passes act e :=
    Action.passes_bind_of_succeeds (fun _ => Succeeds.pure _) e
  have hchanged {act : Build R Unit} : Passes (act >>= fun _ => changed) e ↔ Passes act e :=
    Action.passes_bind_of_succeeds (fun _ => succeeds_changed) e
  cases c with
  | setParameter name v =>
    show Passes (Engine.setParameter name v) e ↔ ∃ s, Setting.ofName? name = some s ∧ (s = .infinite → v.IsReal)
    unfold Engine.setParameter
    cases hname : Setting.ofName? name with
    | none => simp
    | some s => simp [passes_putSetting]
  | setInfinite infinite =>
    refine (passes_putSetting _ _ e).trans ?_
    simp [Accepted]
  | setColumnName col name => exact hchanged.trans (passes_modifyColumn _ _ e)
  | setInteger col integer => exact hchanged.trans (passes_modifyColumn _ _ e)
  | setBounds col lower upper => exact passes_setBounds col lower upper e
  | setLower col lower => exact hchanged.trans (passes_writeLower col lower e)
  | setUpper col upper => exact hchanged.trans (passes_writeUpper col upper e)
  | setUnbounded col => exact hchanged.trans (passes_modifyColumn _ _ e)
  | setRowMode on => exact iff_true_intro ⟨_, _, rfl⟩
  | addRow values columns relation rhs => exact hgoes.trans (passes_addRow values columns relation rhs e)
  | setRange row range => exact passes_setRange row range e
  | setObjective values columns =>
    have hwrite (f : Engine R → Engine R) : Passes (modify f >>= fun _ => (changed : Build R Unit)) e := ⟨_, _, rfl⟩
    show Passes (Engine.setObjective values columns) e ↔ _
    unfold Engine.setObjective
    simp only [Action.passes_get_bind, Action.passes_lift_bind, hwrite, and_true, compact_isOk]
    rfl
  | setSense maximize => exact iff_true_intro ⟨_, _, rfl⟩
  | addSet name kind priority columns weights => exact hgoes.trans (passes_addSet name kind priority columns weights e)

/-- What is left of a call that stops half way: the lower bound of a column has been written, the upper one is no
number. -/
inductive HalfDone (e : Engine R) : Call R → Engine R → Prop where
  | bounds {col : Int} {lower upper : Value R} {x : R} (hcol : e.HasColumn col.toNat)
      (hlower : e.innerOf lower = .ok x) (hupper : ¬upper.IsReal) :
      HalfDone e (.setBounds col lower upper) (e.withLower col x)

/-- A building call that has what it needs goes through.  Any other call stops with a fault, and the engine is as it
was, unless the call has stopped half way. -/
theorem built_or_refused (c : Call R) (e : Engine R) :
    (c.Accepted e ∧ ∃ d, c.perform e = .ok ⟨⟩ d) ∨
      (¬c.Accepted e ∧ (∀ d, ¬HalfDone e c d) ∧ ∃ fault, c.perform e = .error fault e) ∨
      (¬c.Accepted e ∧ ∃ d, HalfDone e c d ∧ ∃ fault, c.perform e = .error fault d) := by
  by_cases hbounds : ∃ col lower upper, c = .setBounds col lower upper
  · obtain ⟨col, lower, upper, rfl⟩ := hbounds
    rcases setBounds_cases col lower upper e with
      ⟨hcol, hlower, hupper, hpasses⟩ | ⟨hno, hstop⟩ | ⟨hcol, hno, x, hx, hstop⟩
    · obtain ⟨⟨⟩, d, hrun⟩ := hpasses
      exact .inl ⟨⟨hcol, hlower, hupper⟩, d, hrun⟩
    · refine .inr (.inl ⟨fun h => hno ⟨h.1, h.2.1⟩, ?_, hstop⟩)
      rintro d ⟨hcol, hlower, -⟩
      exact hno ⟨hcol, innerOf_isOk.1 ⟨_, hlower⟩⟩
    · exact .inr (.inr ⟨fun h => hno h.2.2, _, .bounds hcol hx hno, hstop⟩)
  · have hwhole : Whole c.perform := c.whole fun col lower upper hc => hbounds ⟨col, lower, upper, hc⟩
    rw [← c.passes_iff e]
    rcases hwhole.cases e with ⟨⟨⟩, d, hrun⟩ | ⟨hstops, hrun⟩
    · exact .inl ⟨⟨⟨⟩, d, hrun⟩, d, hrun⟩
    · refine .inr (.inl ⟨hstops, ?_, hrun⟩)
      rintro d ⟨⟩
      exact hbounds ⟨_, _, _, rfl⟩

/-- It is not so that a call that stops with a fault has changed nothing: when the bounds of a column are set to `5` and
nothing, the lower bound `5` stays. -/
theorem lowerBound_stays :
    ¬∀ e : Engine Extended, Built e → ∀ (c : Call Extended) (fault : Fault) (d : Engine Extended),
      c.perform e = .error fault d → d.columns = e.columns ∧ d.rows = e.rows ∧ d.objective = e.objective ∧
        d.maximize = e.maximize ∧ d.sets = e.sets ∧ d.settings = e.settings := by
  intro hclaim
  have hbuilt : Built (new 1 .none ⟨1, .empty, .start, none⟩ : Engine Extended) := .new _ _
  have hrun : (Call.setBounds 1 (.integer 5) .nothing).perform (new 1 .none ⟨1, .empty, .start, none⟩) =
      .error .wrongKind ((new 1 .none ⟨1, .empty, .start, none⟩ : Engine Extended).withLower 1 (.rat 5)) := rfl
  have hcolumns := (hclaim _ hbuilt _ _ _ hrun).1
  have hlower := congrArg (fun columns => columns.map Column.lower) hcolumns
  revert hlower
  decide

end Optima.Engine
