import Optima.Proofs.Encoding.Limits

/-!
# The bounds of encoded columns

In exact arithmetic, the column of a variable shows the variable's own bounds, with the sentinel in place of what is at
least as large.  A bound that is an infinity, of whichever sign, leaves its side open, and so does a variable that
ignores its bounds on both sides (`shownBounds`).  Unlike the limits of a row, the two bounds never meet in a
calculation, so neither of them can be lost.

Every column begins with the bounds zero and infinity, and not every way of loading a variable writes both of them.
What is seen in the end is the variable's all the same: a lower bound of zero is seen exactly for a variable that has
it, and an upper bound is seen open exactly for a variable whose upper bound is (`columnBounds_loaded`).
-/

namespace Optima.Encoding

/-- The bounds that a caller should see of the column of a variable. -/
def shownBounds (sentinel : Extended) (v : Entry Extended) : Extended × Extended :=
  if v.ignoresBounds then (-sentinel, sentinel) else (lowerLimit sentinel v.lower, upperLimit sentinel v.upper)

/-- Nothing holds the variable back from above, as far as numbers below the sentinel go. -/
def OpenAbove (sentinel : Extended) (v : Entry Extended) : Prop :=
  v.ignoresBounds = true ∨ Scalar.isInfinite v.upper = true ∨ Scalar.le sentinel v.upper = true

/-! ### Single bounds -/

section Bounds

variable {s x : Extended} (hs : Scalar.lt Scalar.zero s = true)
include hs

theorem neg_sentinel_ne_zero : -s ≠ .rat 0 := by
  rcases positive_cases hs with rfl | ⟨q, hq, rfl⟩
  · exact Extended.noConfusion
  · intro h
    have hzero : -q = 0 := Extended.rat.inj h
    grind

/-- A lower bound of zero is seen only where there is one. -/
theorem lowerLimit_eq_zero : lowerLimit s x = .rat 0 ↔ x = .rat 0 := by
  have hne : -s ≠ .rat 0 := neg_sentinel_ne_zero hs
  cases x with
  | rat q =>
    show cut s (.rat q) = .rat 0 ↔ _
    rcases positive_cases hs with rfl | ⟨s, hpos, rfl⟩
    · rw [cut_infinite]
    rw [cut_rat hpos, Extended.rat.injEq]
    by_cases hupper : s ≤ q
    · rw [if_pos hupper, Extended.rat.injEq]
      grind
    by_cases hlower : q ≤ -s
    · rw [if_neg hupper, if_pos hlower, Extended.rat.injEq]
      grind
    · rw [if_neg hupper, if_neg hlower, Extended.rat.injEq]
  | nan => rcases positive_cases hs with rfl | ⟨s, -, rfl⟩ <;> exact Iff.rfl
  | _ => exact iff_of_false hne Extended.noConfusion

/-- The sentinel is seen above only where the upper bound is infinite or reaches it. -/
theorem upperLimit_eq_sentinel (hx : Scalar.isNaN x = false) :
    upperLimit s x = s ↔ Scalar.isInfinite x = true ∨ Scalar.le s x = true := by
  cases x with
  | rat q =>
    show cut s (.rat q) = s ↔ false = true ∨ _
    rw [or_iff_right Bool.false_ne_true]
    rcases positive_cases hs with rfl | ⟨s, hpos, rfl⟩
    · rw [cut_infinite]
      exact iff_of_false Extended.noConfusion Bool.false_ne_true
    · refine Iff.trans ?_ Extended.le_rat.symm
      constructor
      · intro hcut
        exact Rat.not_lt.1 fun hlt => cut_ne_pos hpos hlt hcut
      · intro hle
        rw [cut_rat hpos, if_pos hle]
  | nan => cases hx
  | _ => exact iff_of_true rfl (.inl rfl)

/-- What a caller sees of a bound from below that a column keeps. -/
theorem cut_lower (hx : Scalar.isNaN x = false) :
    cut s (if Scalar.isInfinite x then -Scalar.infinity else clip s x) = lowerLimit s x := by
  rw [lowerLimit]
  cases hinfinite : Scalar.isInfinite x with
  | true => exact cut_negInf hs
  | false => exact cut_clip_finite hs hx hinfinite

/-- The same for a bound from above. -/
theorem cut_upper (hx : Scalar.isNaN x = false) :
    cut s (if Scalar.isInfinite x then Scalar.infinity else clip s x) = upperLimit s x := by
  rw [upperLimit]
  cases hinfinite : Scalar.isInfinite x with
  | true => exact cut_posInf hs
  | false => exact cut_clip_finite hs hx hinfinite

/-! ### The bounds of a column -/

variable {v : Entry Extended} (hv : v.InOrder)
include hv

/-- The bounds of a variable as a caller sees them. -/
theorem shownBounds_columnFor (number : Nat) :
    (cut s (columnFor s number v).lower, cut s (columnFor s number v).upper) = shownBounds s v := by
  rw [shownBounds, columnFor]
  cases v.ignoresBounds with
  | true => exact Prod.ext (cut_negInf hs) (cut_posInf hs)
  | false => exact Prod.ext (cut_lower hs hv.lower) (cut_upper hs hv.upper)

omit hv in
theorem shownBounds_lower_eq_zero :
    (shownBounds s v).1 = .rat 0 ↔ v.ignoresBounds = false ∧ v.lower = .rat 0 := by
  rw [shownBounds]
  cases v.ignoresBounds with
  | true => exact iff_of_false (neg_sentinel_ne_zero hs) fun h => Bool.noConfusion h.1
  | false => exact (lowerLimit_eq_zero hs).trans (and_iff_right rfl).symm

theorem shownBounds_upper_eq_sentinel : (shownBounds s v).2 = s ↔ OpenAbove s v := by
  rw [shownBounds, OpenAbove]
  cases v.ignoresBounds with
  | true => exact iff_of_true rfl (.inl rfl)
  | false => exact (upperLimit_eq_sentinel hs hv.upper).trans (or_iff_right Bool.false_ne_true).symm

end Bounds

/-! ### Encoded columns -/

/-- The column of a variable in the engine that holds its model. -/
theorem bounds_described {m : Model Extended} {s : Extended} (hs : Scalar.lt Scalar.zero s = true)
    (search : Search.Model Extended) {k var : Nat} (hk : m.variableVids[k]? = some var) {v : Entry Extended}
    (hv : m.entries[var]? = some v) (horder : v.InOrder) :
    (described m s search).lowerBound ((k + 1 : Nat) : Int) = .ok (shownBounds s v).1 ∧
      (described m s search).upperBound ((k + 1 : Nat) : Int) = .ok (shownBounds s v).2 := by
  have hcolumn : (described m s search).column ((k + 1 : Nat) : Int) = .ok (columnFor s (k + 1) v) := by
    rw [described_column m s search hk, columnAt, hv]
  rw [Engine.lowerBound, Engine.upperBound, hcolumn, ← shownBounds_columnFor hs horder (k + 1)]
  exact ⟨rfl, rfl⟩

/-- A model that calls lead to and that has a variable is encoded, for every positive sentinel, and each variable has a
column that shows its bounds.  The bounds that a column begins with are not among them by accident: zero is seen below
exactly when it is the lower bound of the variable, and the sentinel is seen above exactly when the variable is open
above. -/
theorem columnBounds_loaded {m : Model Extended} (hm : m.Reachable) (hvar : m.variableVids ≠ [])
    {infinite : Value Extended} {s : Extended} (hsentinel : sentinelOf infinite = .ok s)
    (hs : Scalar.lt Scalar.zero s = true) (h : Host Extended) :
    ∃ t h', ofModel m .standard infinite h = .ok t h' ∧
      ∀ (var : Nat) v, m.entries[var]? = some v → v.isRow = false →
        ∃ n lower upper, t.naming.column? var = some n ∧
          t.engine.lowerBound n = .ok lower ∧ t.engine.upperBound n = .ok upper ∧
          (lower, upper) = shownBounds s v ∧
          (lower = .rat 0 ↔ v.ignoresBounds = false ∧ v.lower = .rat 0) ∧ (upper = s ↔ OpenAbove s v) := by
  obtain ⟨journal, hrun⟩ := ofModel_run hm.proper hvar hsentinel h
  refine ⟨_, _, hrun, fun var v hv hvariable => ?_⟩
  obtain ⟨k, hk⟩ := List.mem_iff_getElem?.1 (Model.mem_variableVids.2 ⟨v, hv, hvariable⟩)
  have horder := hm.inOrder v (List.mem_of_getElem? hv)
  obtain ⟨hlower, hupper⟩ := bounds_described hs (searchFor h) hk hv horder
  exact ⟨k + 1, _, _, number_natCast (Model.nodup_vidsWhere m _) hk, hlower, hupper, rfl,
    shownBounds_lower_eq_zero hs, shownBounds_upper_eq_sentinel hs horder⟩

/-- Variables between `1` and `4`, from `2` on, up to `3`, and between `-150` and `150`, one whose bounds are both
infinity, and one between `0` and `9` that ignores its bounds. -/
def sixVariables : List (Model.Call Extended) := [
  .addVariable (.text "both"), .setBounds 0 (.integer 1) (.integer 4),
  .addVariable (.text "lower"), .setBounds 1 (.integer 2) (.real .posInf),
  .addVariable (.text "upper"), .setBounds 2 (.real .negInf) (.integer 3),
  .addVariable (.text "wide"), .setBounds 3 (.integer (-150)) (.integer 150),
  .addVariable (.text "far"), .setBounds 4 (.real .posInf) (.real .posInf),
  .addVariable (.text "ignored"), .setBounds 5 (.integer 0) (.integer 9), .setIgnoresBounds 5 (.flag true)]

theorem columnBounds_loaded_sixVariables :
    (Model.performed sixVariables).Reachable ∧ (Model.performed sixVariables).variableVids ≠ [] ∧
      sentinelOf (.integer 100 : Value Extended) = .ok (.rat 100) ∧
      Scalar.lt Scalar.zero (Extended.rat 100) = true ∧
      ∃ t h', ofModel (Model.performed sixVariables) .standard (.integer 100) (.start (.script []) Exact.ranging) =
          .ok t h' ∧
        ∀ (var : Nat) v, (Model.performed sixVariables).entries[var]? = some v → v.isRow = false →
          ∃ n lower upper, t.naming.column? var = some n ∧
            t.engine.lowerBound n = .ok lower ∧ t.engine.upperBound n = .ok upper ∧
            (lower, upper) = shownBounds (.rat 100) v ∧
            (lower = .rat 0 ↔ v.ignoresBounds = false ∧ v.lower = .rat 0) ∧
            (upper = .rat 100 ↔ OpenAbove (.rat 100) v) :=
  ⟨Model.reachable_performed sixVariables, by decide, rfl, rfl,
    columnBounds_loaded (Model.reachable_performed sixVariables) (by decide) rfl rfl _⟩

example : (Model.performed sixVariables).entries.map (shownBounds (.rat 100)) =
    [(.rat 1, .rat 4), (.rat 2, .rat 100), (.rat (-100), .rat 3), (.rat (-100), .rat 100), (.rat (-100), .rat 100),
      (.rat (-100), .rat 100)] := by
  decide +kernel

end Optima.Encoding
