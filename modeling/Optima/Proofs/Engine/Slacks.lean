import Mathlib.Data.List.Induction
import Optima.Engine.Solving

/-!
# Rows with slack columns

Over the exact numbers a row of an engine asks for a value between two limits, and a row of the search for a value that
is at most, at least or equal to a right-hand side.  A point of the columns of an engine can be extended by values of
the slack columns, such that all rows of the search hold, exactly when it satisfies every row of the engine that has
entries (`searchRows_feasible`).

The induction is on the rows of the engine, with the point growing by the value of a slack column at each row that has
one.  Values do not depend on what a point is extended by, as long as the terms are in columns that it had before
(`valueAt_append`).
-/

namespace Optima

namespace Extended

/-- A number lies between two limits. -/
def Between (limits : Extended × Extended) (x : Extended) : Prop :=
  limits.1.le x = true ∧ x.le limits.2 = true

@[simp] theorem rat_add (a b : Rat) : rat a + rat b = rat (a + b) := rfl

@[simp] theorem rat_sub (a b : Rat) : rat a - rat b = rat (a - b) :=
  congrArg rat (Rat.sub_eq_add_neg a b).symm

@[simp] theorem rat_mul (a b : Rat) : rat a * rat b = rat (a * b) := rfl

@[simp] theorem same_rat {a b : Rat} : (rat a).same (rat b) = true ↔ a = b := beq_iff_eq

@[simp] theorem le_rat {a b : Rat} : (rat a).le (rat b) = true ↔ a ≤ b := by
  simp [le, lt, same, Rat.le_iff_lt_or_eq]

theorem isFinite_iff {x : Extended} : Scalar.isFinite x = true ↔ ∃ q, x = rat q := by
  cases x with
  | rat q => exact ⟨fun _ => ⟨q, rfl⟩, fun _ => rfl⟩
  | _ => simp [Scalar.isFinite, Scalar.exact]

theorem add_zero (x : Extended) : x + rat 0 = x := by
  cases x with
  | rat q => exact congrArg rat (Rat.add_zero q)
  | _ => rfl

/-- Between two limits that are the same lies that number only. -/
theorem between_same {lower upper : Extended} (h : lower.same upper = true) (q : Rat) :
    Between (lower, upper) (rat q) ↔ (rat q).same upper = true := by
  cases lower with
  | nan => cases h
  | negInf =>
    cases upper with
    | negInf => simp [Between, le, lt, same]
    | _ => cases h
  | posInf =>
    cases upper with
    | posInf => simp [Between, le, lt, same]
    | _ => cases h
  | rat a =>
    cases upper with
    | rat b =>
      obtain rfl := same_rat.1 h
      simp only [Between, le_rat, same_rat]
      exact ⟨fun h => Rat.le_antisymm h.2 h.1, fun h => h ▸ ⟨Rat.le_refl, Rat.le_refl⟩⟩
    | _ => cases h

end Extended

namespace Engine

open Extended (Between)

/-! ### Limits -/

/-- The limits of a row are numbers. -/
def Row.Limited (r : Row Extended) : Prop :=
  r.limits.1 ≠ .nan ∧ r.limits.2 ≠ .nan

instance (r : Row Extended) : Decidable r.Limited :=
  inferInstanceAs (Decidable (_ ∧ _))

/-- Two limits are the same, or there may be a number between them. -/
def Proper (limits : Extended × Extended) : Prop :=
  limits.1.same limits.2 = true ∨ (limits.1 ≠ .posInf ∧ limits.2 ≠ .negInf)

private theorem width_cases {r : Row Extended} {w : Extended} (h : r.width? = some w) : w = .nan ∨ ∃ x, w = .rat x := by
  -- an infinite range counts as none
  obtain ⟨-, hfinite⟩ := Option.filter_eq_some_iff.1 h
  cases w with
  | nan => exact .inl rfl
  | rat x => exact .inr ⟨x, rfl⟩
  | negInf => cases hfinite
  | posInf => cases hfinite

private theorem proper_atMost {x : Extended} (hx : x ≠ .nan) : Proper (.negInf, x) := by
  cases x with
  | nan => exact absurd rfl hx
  | negInf => exact .inl rfl
  | _ => exact .inr ⟨by simp, by simp⟩

private theorem proper_atLeast {x : Extended} (hx : x ≠ .nan) : Proper (x, .posInf) := by
  cases x with
  | nan => exact absurd rfl hx
  | posInf => exact .inl rfl
  | _ => exact .inr ⟨by simp, by simp⟩

private theorem proper_sub {x w : Extended} (hw : w = .nan ∨ ∃ q, w = .rat q) (h : x - w ≠ .nan) :
    Proper (x - w, x) := by
  rcases hw with rfl | ⟨q, rfl⟩
  · cases x <;> exact absurd rfl h
  · cases x with
    | nan => exact absurd rfl h
    | rat a => exact .inr ⟨by simp, by simp⟩
    | _ => exact .inl rfl

private theorem proper_add {x w : Extended} (hw : w = .nan ∨ ∃ q, w = .rat q) (h : x + w ≠ .nan) :
    Proper (x, x + w) := by
  rcases hw with rfl | ⟨q, rfl⟩
  · cases x <;> exact absurd rfl h
  · cases x with
    | nan => exact absurd rfl h
    | rat a => exact .inr ⟨by simp, by simp⟩
    | _ => exact .inl rfl

/-- Only limits that are the same are a lower one above all numbers or an upper one below all numbers. -/
theorem Row.limits_proper {r : Row Extended} (h : r.Limited) : Proper r.limits := by
  obtain ⟨hlower, hupper⟩ := h
  unfold Row.limits at hlower hupper ⊢
  cases hrelation : r.relation with
  | free =>
    have hinfinity : (Scalar.infinity : Extended) ≠ .nan := by decide
    exact proper_atMost hinfinity
  | equal =>
    simp only [hrelation] at hlower ⊢
    cases hrhs : r.rhs with
    | nan => exact absurd hrhs hlower
    | rat q => exact .inl (Extended.same_rat.2 rfl)
    | _ => exact .inl rfl
  | atMost =>
    simp only [hrelation] at hlower hupper ⊢
    cases hw : r.width? with
    | none => exact proper_atMost hupper
    | some w =>
      rw [hw] at hlower
      exact proper_sub (width_cases hw) hlower
  | atLeast =>
    simp only [hrelation] at hlower hupper ⊢
    cases hw : r.width? with
    | none => exact proper_atLeast hlower
    | some w =>
      rw [hw] at hupper
      exact proper_add (width_cases hw) hupper

/-! ### Values -/

/-- What terms come to at a point. -/
def valueAt (terms : List (Nat × Extended)) (point : List Rat) : Extended :=
  (activity terms (point.map .rat)).value

/-- The coordinate of a point for a column; zero where it has none. -/
def coordinate (point : List Rat) (col : Nat) : Rat :=
  (point[col - 1]?).getD 0

theorem valueAt_eq (terms : List (Nat × Extended)) (point : List Rat) :
    valueAt terms point = terms.foldl (fun sum t => sum + t.2 * .rat (coordinate point t.1)) (.rat 0) := by
  have hterm (t : Nat × Extended) :
      t.2 * ((point.map Extended.rat)[t.1 - 1]?).getD Scalar.zero = t.2 * .rat (coordinate point t.1) := by
    rw [coordinate, List.getElem?_map]
    cases point[t.1 - 1]? <;> rfl
  cases terms with
  | nil => rfl
  | cons t terms =>
    show ((t :: terms).map fun t => t.2 * ((point.map Extended.rat)[t.1 - 1]?).getD Scalar.zero).foldl
      (fun sum x : Extended => sum + x) (.rat 0) = _
    rw [List.foldl_map]
    simp only [hterm]

theorem valueAt_concat (terms : List (Nat × Extended)) (t : Nat × Extended) (point : List Rat) :
    valueAt (terms ++ [t]) point = valueAt terms point + t.2 * .rat (coordinate point t.1) := by
  rw [valueAt_eq, valueAt_eq, List.foldl_append]
  rfl

/-- Terms with finite coefficients have a finite value. -/
theorem valueAt_finite {terms : List (Nat × Extended)} (h : ∀ t ∈ terms, Scalar.isFinite t.2 = true)
    (point : List Rat) : ∃ q, valueAt terms point = .rat q := by
  induction terms using List.reverseRecOn with
  | nil => exact ⟨0, rfl⟩
  | append_singleton terms t ih =>
    obtain ⟨sum, hsum⟩ := ih fun u hu => h u (List.mem_append_left _ hu)
    obtain ⟨x, hx⟩ := Extended.isFinite_iff.1 (h t (by simp))
    exact ⟨sum + x * coordinate point t.1, by rw [valueAt_concat, hsum, hx, Extended.rat_mul, Extended.rat_add]⟩

/-- The value of terms does not depend on what a point is extended by. -/
theorem valueAt_append {terms : List (Nat × Extended)} {point : List Rat}
    (h : ∀ t ∈ terms, 1 ≤ t.1 ∧ t.1 ≤ point.length) (more : List Rat) :
    valueAt terms (point ++ more) = valueAt terms point := by
  induction terms using List.reverseRecOn with
  | nil => rfl
  | append_singleton terms t ih =>
    have hcol := h t (by simp)
    have hcoordinate : coordinate (point ++ more) t.1 = coordinate point t.1 := by
      rw [coordinate, coordinate, List.getElem?_append_left (by omega)]
    rw [valueAt_concat, valueAt_concat, hcoordinate, ih fun u hu => h u (List.mem_append_left _ hu)]

end Engine

/-- How a value stands to a right-hand side. -/
def Search.Sense.Allows (sense : Search.Sense) (value rhs : Extended) : Prop :=
  match sense with
  | .atMost => value.le rhs = true
  | .atLeast => rhs.le value = true
  | .equal => value.same rhs = true

/-- A row of the search holds at a point. -/
def Search.Row.Holds (r : Search.Row Extended) (point : List Rat) : Prop :=
  r.sense.Allows (Engine.valueAt r.terms point) r.rhs

namespace Engine

open Extended (Between)

/-- Values lie within the bounds of columns, one for each. -/
def Inside (columns : List (Column Extended)) (values : List Rat) : Prop :=
  List.Forall₂ (fun c x => Between (c.lower, c.upper) (.rat x)) columns values

/-- A point can be extended by values of more columns, such that rows of the search hold. -/
def Extends (point : List Rat) (columns : List (Column Extended)) (rows : List (Search.Row Extended)) : Prop :=
  ∃ values, Inside columns values ∧ ∀ r ∈ rows, r.Holds (point ++ values)

/-- Terms are in the columns up to a number. -/
def UpTo (columns : Nat) (terms : List (Nat × Extended)) : Prop :=
  ∀ t ∈ terms, 1 ≤ t.1 ∧ t.1 ≤ columns

theorem holds_append {r : Search.Row Extended} {point : List Rat} (h : UpTo point.length r.terms) (more : List Rat) :
    r.Holds (point ++ more) ↔ r.Holds point := by
  unfold Search.Row.Holds
  rw [valueAt_append h]

theorem extends_nil (point : List Rat) : Extends point [] [] :=
  ⟨[], .nil, by simp⟩

/-- A row whose terms are in columns that the point has. -/
theorem extends_row {point : List Rat} {columns : List (Column Extended)} {r : Search.Row Extended}
    {rows : List (Search.Row Extended)} (h : UpTo point.length r.terms) :
    Extends point columns (r :: rows) ↔ r.Holds point ∧ Extends point columns rows := by
  simp only [Extends, List.forall_mem_cons, holds_append h]
  constructor
  · rintro ⟨values, hvalues, hr, hrows⟩
    exact ⟨hr, values, hvalues, hrows⟩
  · rintro ⟨hr, values, hvalues, hrows⟩
    exact ⟨values, hvalues, hr, hrows⟩

/-- A row with a term in the next column. -/
theorem extends_slack {point : List Rat} {c : Column Extended} {columns : List (Column Extended)}
    {r : Search.Row Extended} {rows : List (Search.Row Extended)} (h : UpTo (point.length + 1) r.terms) :
    Extends point (c :: columns) (r :: rows) ↔ ∃ x : Rat, Between (c.lower, c.upper) (.rat x) ∧
      r.Holds (point ++ [x]) ∧ Extends (point ++ [x]) columns rows := by
  have hlonger (x : Rat) : UpTo (point ++ [x]).length r.terms := by simpa using h
  constructor
  · rintro ⟨_, _ | ⟨hx, hvalues⟩, hrows⟩
    rename_i x values
    rw [List.append_cons] at hrows
    exact ⟨x, hx, (extends_row (hlonger x)).1 ⟨values, hvalues, hrows⟩⟩
  · rintro ⟨x, hx, hrest⟩
    obtain ⟨values, hvalues, hrows⟩ := (extends_row (hlonger x)).2 hrest
    exact ⟨x :: values, .cons hx hvalues, by rwa [List.append_cons]⟩

/-! ### Rows for the search -/

/-- A row whose limits are numbers and whose terms are finite and in the columns up to a number. -/
structure Row.Plain (columns : Nat) (r : Row Extended) : Prop where
  limited : r.Limited
  upTo : UpTo columns r.entries
  finite : ∀ t ∈ r.entries, Scalar.isFinite t.2 = true

theorem Row.Plain.succ {columns : Nat} {r : Row Extended} (h : r.Plain columns) : r.Plain (columns + 1) :=
  { h with upTo := fun t ht => ⟨(h.upTo t ht).1, Nat.le_succ_of_le (h.upTo t ht).2⟩ }

/-- A row of the search without a slack column. -/
theorem extends_searchRow {r : Row Extended} {point : List Rat} (h : UpTo point.length r.entries) (sense : Search.Sense)
    (rhs : Extended) (columns : List (Column Extended)) (rows : List (Search.Row Extended)) :
    Extends point columns (searchRow r sense rhs [] :: rows) ↔
      sense.Allows (valueAt r.entries point) rhs ∧ Extends point columns rows := by
  have hterms : (searchRow r sense rhs []).terms = r.entries := List.append_nil _
  have hrhs : (searchRow r sense rhs []).rhs = rhs := rhs.add_zero
  rw [extends_row (hterms ▸ h), Search.Row.Holds, hterms, hrhs]
  rfl

/-- A row of the search with a slack column: the slack fills the value up to the upper limit. -/
theorem searchRow_slack {r : Row Extended} {point : List Rat} (h : UpTo point.length r.entries) {value : Rat}
    (hvalue : valueAt r.entries point = .rat value) (upper x : Rat) :
    (searchRow r .equal (.rat upper) [(point.length + 1, Scalar.one)]).Holds (point ++ [x]) ↔ value + x = upper := by
  have hcoordinate : coordinate (point ++ [x]) (point.length + 1) = x := by
    rw [coordinate, Nat.add_sub_cancel, List.getElem?_concat_length]
    rfl
  have hterms : valueAt (r.entries ++ [(point.length + 1, Scalar.one)]) (point ++ [x]) = .rat (value + x) := by
    rw [valueAt_concat, valueAt_append h, hvalue, hcoordinate]
    show Extended.rat value + Extended.rat 1 * Extended.rat x = _
    rw [Extended.rat_mul, Extended.rat_add, Rat.one_mul]
  have hrhs : (Extended.rat upper + Scalar.zero : Extended) = .rat upper := (Extended.rat upper).add_zero
  show (valueAt (r.entries ++ [(point.length + 1, Scalar.one)]) (point ++ [x])).same
    (.rat upper + Scalar.zero) = true ↔ _
  rw [hterms, hrhs, Extended.same_rat]

/-- A row with two limits, as an equation with a slack column as wide as the row. -/
theorem extends_slackRow {r : Row Extended} {point : List Rat} (h : UpTo point.length r.entries) {value : Rat}
    (hvalue : valueAt r.entries point = .rat value) (lower upper : Rat) (columns : List (Column Extended))
    (rows : List (Search.Row Extended)) :
    Extends point (slackColumn r (.rat lower) (.rat upper) :: columns)
        (searchRow r .equal (.rat upper) [(point.length + 1, Scalar.one)] :: rows) ↔
      ∃ x : Rat, (0 ≤ x ∧ x ≤ upper - lower) ∧ value + x = upper ∧ Extends (point ++ [x]) columns rows := by
  have hterms : UpTo (point.length + 1) (r.entries ++ [(point.length + 1, (Scalar.one : Extended))]) := by
    intro t ht
    rcases List.mem_append.1 ht with ht | ht
    · exact ⟨(h t ht).1, Nat.le_succ_of_le (h t ht).2⟩
    · obtain rfl := List.mem_singleton.1 ht
      exact ⟨by omega, Nat.le_refl _⟩
  refine (extends_slack hterms).trans (exists_congr fun x => and_congr ?_ ?_)
  · simp only [slackColumn, Between, Extended.rat_sub]
    exact and_congr Extended.le_rat Extended.le_rat
  · rw [searchRow_slack h hvalue]

/-- A point can be extended by values of the slack columns exactly when it satisfies every row that has entries. -/
theorem searchRows_feasible {rows : List (Row Extended)} {point : List Rat} (h : ∀ r ∈ rows, r.Plain point.length) :
    Extends point (searchRows (point.length + 1) rows).1 (searchRows (point.length + 1) rows).2 ↔
      ∀ r ∈ rows, r.entries ≠ [] → Between r.limits (valueAt r.entries point) := by
  induction rows generalizing point with
  | nil => simp [searchRows, extends_nil]
  | cons r rows ih =>
    obtain ⟨hr, hrows⟩ := List.forall_mem_cons.1 h
    obtain ⟨value, hvalue⟩ := valueAt_finite hr.finite point
    have hproper := Row.limits_proper hr.limited
    have hlimited := hr.limited
    unfold Row.Limited at hlimited
    rw [List.forall_mem_cons, hvalue, searchRows]
    generalize r.limits = limits at hproper hlimited
    obtain ⟨lower, upper⟩ := limits
    by_cases hempty : r.entries = []
    · simpa [hempty] using ih hrows
    simp only [ne_eq, hempty, not_false_eq_true, forall_const, List.isEmpty_iff, ↓reduceIte]
    -- an equation, also with infinite limits that are the same: no value is infinite
    by_cases hsame : lower.same upper = true
    · rw [show Scalar.same lower upper = true from hsame, if_pos rfl, extends_searchRow hr.upTo, hvalue,
        Extended.between_same hsame]
      exact and_congr_right fun _ => ih hrows
    obtain ⟨hlower, hupper⟩ := hproper.resolve_left hsame
    rw [show Scalar.same lower upper = false from Bool.eq_false_iff.2 hsame, if_neg Bool.false_ne_true]
    cases lower with
    | nan => exact absurd rfl hlimited.1
    | posInf => exact absurd rfl hlower
    | negInf =>
      cases upper with
      | nan => exact absurd rfl hlimited.2
      | negInf => exact absurd rfl hupper
      | posInf =>
        -- a free row is left out
        have hfree : Between (.negInf, .posInf) (.rat value) := ⟨rfl, rfl⟩
        exact (ih hrows).trans (and_iff_right hfree).symm
      | rat b =>
        refine (extends_searchRow hr.upTo .atMost (.rat b) _ _).trans (and_congr ?_ (ih hrows))
        rw [hvalue]
        exact (and_iff_right rfl).symm
    | rat a =>
      cases upper with
      | nan => exact absurd rfl hlimited.2
      | negInf => exact absurd rfl hupper
      | posInf =>
        refine (extends_searchRow hr.upTo .atLeast (.rat a) _ _).trans (and_congr ?_ (ih hrows))
        rw [hvalue]
        exact (and_iff_left rfl).symm
      | rat b =>
        -- the rows behind see a longer point, but their values are those at the point
        have hrest (x : Rat) : Extends (point ++ [x]) (searchRows (point.length + 1 + 1) rows).1
            (searchRows (point.length + 1 + 1) rows).2 ↔
            ∀ q ∈ rows, q.entries ≠ [] → Between q.limits (valueAt q.entries point) := by
          have hplain : ∀ q ∈ rows, q.Plain (point ++ [x]).length := fun q hq => by simpa using (hrows q hq).succ
          have hlonger := ih hplain
          rw [List.length_append, List.length_singleton] at hlonger
          rw [hlonger]
          exact forall₂_congr fun q hq => by rw [valueAt_append (hrows q hq).upTo]
        have hbetween : Between (.rat a, .rat b) (.rat value) ↔ a ≤ value ∧ value ≤ b :=
          and_congr Extended.le_rat Extended.le_rat
        refine (extends_slackRow hr.upTo hvalue a b _ _).trans ?_
        simp only [hrest, hbetween]
        constructor
        · rintro ⟨x, ⟨hx, hwidth⟩, hsum, hothers⟩
          exact ⟨⟨by grind, by grind⟩, hothers⟩
        · rintro ⟨⟨ha, hb⟩, hothers⟩
          -- the slack is what the value leaves of the upper limit
          exact ⟨b - value, ⟨by grind, by grind⟩, by grind, hothers⟩

end Engine

end Optima
