import Optima.Proofs.Encoding.Limits
import Optima.Proofs.Engine.Outcomes
import Optima.Proofs.Report.Sensitivity

/-!
# The binding side of a row

A row of an engine has a relation, a right-hand side and perhaps a range, and the report has to find the bounds of the
row of the model in these again.  The sign of the dual says on which side to look.  In exact arithmetic the number that
is found there is the model's own, for each row whose finite bounds and whose width are below the sentinel
(`bindingSide_rowFor`, `variableRange_binding`).

This is a case split on which of the two bounds are finite, since it decides about the relation.  A row that is open on
one side has the same right-hand side whatever the dual is, and of a row with two different bounds the width is taken
off the upper one.
-/

namespace Optima

namespace Extended

theorem mul_comm (x y : Extended) : x * y = y * x := by
  cases x with
  | rat a =>
    cases y with
    | rat b => exact congrArg rat (Rat.mul_comm a b)
    | _ => rfl
  | _ => cases y <;> rfl

theorem le_eq_false_of_lt {x y : Extended} (h : y.lt x = true) : x.le y = false := by
  cases x <;> cases y <;> first | rfl | cases h | skip
  exact Bool.eq_false_iff.2 fun hle => Rat.not_lt.2 (le_rat.1 hle) (of_decide_eq_true h)

/-- What is a number and no infinity is finite. -/
theorem isFinite_of_closed {x : Extended} (hnan : Scalar.isNaN x = false) (hx : Scalar.isInfinite x = false) :
    Scalar.isFinite x = true := by
  cases x with
  | nan => cases hnan
  | rat q => rfl
  | _ => cases hx

end Extended

/-! ### Rows of moderate size -/

namespace Entry

/-- An entry has a finite bound, and its finite bounds and its width are smaller than a number. -/
structure Moderate (sentinel : Extended) (d : Entry Extended) : Prop where
  finite : Scalar.isFinite d.lower = true ∨ Scalar.isFinite d.upper = true
  lower : Scalar.isFinite d.lower = true → Scalar.lt (Scalar.abs d.lower) sentinel = true
  upper : Scalar.isFinite d.upper = true → Scalar.lt (Scalar.abs d.upper) sentinel = true
  width : Scalar.isFinite d.lower = true → Scalar.isFinite d.upper = true →
    Scalar.lt (Scalar.abs (d.upper - d.lower)) sentinel = true

instance (sentinel : Extended) (d : Entry Extended) : Decidable (d.Moderate sentinel) :=
  decidable_of_iff ((Scalar.isFinite d.lower = true ∨ Scalar.isFinite d.upper = true) ∧
      (Scalar.isFinite d.lower = true → Scalar.lt (Scalar.abs d.lower) sentinel = true) ∧
      (Scalar.isFinite d.upper = true → Scalar.lt (Scalar.abs d.upper) sentinel = true) ∧
      (Scalar.isFinite d.lower = true → Scalar.isFinite d.upper = true →
        Scalar.lt (Scalar.abs (d.upper - d.lower)) sentinel = true))
    ⟨fun ⟨h, k, l, m⟩ => ⟨h, k, l, m⟩, fun ⟨h, k, l, m⟩ => ⟨h, k, l, m⟩⟩

/-- Whether a dual, with its sign turned for maximisation, is not negative. -/
def pointsBelow (maximize : Bool) (dual : Extended) : Bool :=
  let sign : Extended := .rat (if maximize then -1 else 1)
  Scalar.le (.rat 0) (sign * dual)

/-- The bound that binds: the lower one if the dual points below, and otherwise the upper one; but an infinite one does
not bind. -/
def binding (d : Entry Extended) (maximize : Bool) (dual : Extended) : Extended :=
  if (pointsBelow maximize dual && Scalar.isFinite d.lower) || Scalar.isInfinite d.upper then d.lower else d.upper

/-- The bound that binds is one of the finite ones. -/
theorem Moderate.binding_lt {sentinel : Extended} {d : Entry Extended} (hd : d.Moderate sentinel) (horder : d.InOrder)
    (maximize : Bool) (dual : Extended) : Scalar.lt (Scalar.abs (d.binding maximize dual)) sentinel = true := by
  unfold binding
  split
  · next hbelow =>
    refine hd.lower ?_
    rcases Bool.or_eq_true_iff.1 hbelow with hfinite | hopen
    · exact (Bool.and_eq_true_iff.1 hfinite).2
    · refine hd.finite.resolve_right fun hfinite => ?_
      obtain ⟨u, hu⟩ := Extended.isFinite_iff.1 hfinite
      rw [hu] at hopen
      cases hopen
  · next habove =>
    refine hd.upper ?_
    have hclosed : Scalar.isInfinite d.upper = false :=
      Bool.eq_false_iff.2 fun hopen => habove (Bool.or_eq_true_iff.2 (.inr hopen))
    exact Extended.isFinite_of_closed horder.upper hclosed

end Entry

/-! ### Arrays of an engine -/

section Arrays

variable {R : Type} [Scalar R]

/-- Arrays with an entry for each row and each column of an engine. -/
structure Engine.Sensitivity.Fits (a : Engine.Sensitivity R) (e : Engine R) : Prop where
  duals : a.duals.length = e.rows.length + e.columns.length
  lowers : a.lowers.length = e.rows.length + e.columns.length
  uppers : a.uppers.length = e.rows.length + e.columns.length
  costLowers : a.costLowers.length = e.columns.length
  costUppers : a.costUppers.length = e.columns.length

namespace SensitivityReport

variable (s : SensitivityReport R)

/-- An entry of an array as a report gives it as a lower limit. -/
def openBelow (x : R) : R :=
  if Scalar.le x (-s.naming.sentinel) then -Scalar.infinity else x

/-- An entry of an array as a report gives it as an upper limit. -/
def openAbove (x : R) : R :=
  if Scalar.le s.naming.sentinel x then Scalar.infinity else x

variable {s}

omit [Scalar R] in
theorem exists_entry {xs : List R} {count place : Nat} (hcount : xs.length = count) (hplace : place < count) :
    ∃ x, xs[place]? = some x :=
  ⟨_, List.getElem?_eq_getElem (hcount ▸ hplace)⟩

theorem limits_of_entries {lowers uppers : List R} {place : Nat} {lower upper : R}
    (hlower : lowers[place]? = some lower) (hupper : uppers[place]? = some upper) :
    s.limits (some (lowers, uppers)) (place + 1) = .ok (s.openBelow lower, s.openAbove upper) := by
  simp only [limits, entryAt, Nat.add_sub_cancel, hlower, hupper]
  rfl

/-- The range of what binds, read off arrays with an entry at the place. -/
theorem rangeAt_of_entries {a : Engine.Sensitivity R} (hkept : s.engine.results.sensitivity = some a) {place : Nat}
    {dual lower upper : R} (hdual : a.duals[place]? = some dual) (hlower : a.lowers[place]? = some lower)
    (hupper : a.uppers[place]? = some upper) {current : Except Fault R → Except Fault R} {x : R}
    (hcurrent : current (.ok dual) = .ok x) :
    s.rangeAt (place + 1) current = .ok ⟨s.normalize x, s.openBelow lower, s.openAbove upper⟩ := by
  have hentry : entryAt a.duals (place + 1) = .ok dual := by
    simp only [entryAt, Nat.add_sub_cancel, hdual]
  rw [rangeAt, hkept]
  simp only [hentry, hcurrent, limits_of_entries hlower hupper]
  rfl

/-- The side of a row that binds, by its relation, its right-hand side and its width. -/
theorem bindingSide_eq {row : Nat} {r : Engine.Row R} (h : s.engine.row ((row + 1 : Nat) : Int) = .ok r)
    {width : R} (hwidth : s.engine.rhsRange ((row + 1 : Nat) : Int) = .ok width) (dual : R) :
    s.bindingSide (row + 1) (.ok dual) = .ok
      (let rhs := s.engine.outer r.rhs
      let ranged := Scalar.lt width s.naming.sentinel
      if s.bindsBelow dual then if r.relation = .atMost && ranged then rhs - width else rhs
      else if r.relation = .atLeast && ranged then rhs + width else rhs) := by
  have hrhs : s.engine.rhs ((row + 1 : Nat) : Int) = .ok (s.engine.outer r.rhs) := by
    rw [Engine.rhs, if_neg (by omega), h]
    rfl
  rw [bindingSide, h, hwidth, hrhs]
  rfl

end SensitivityReport

end Arrays

namespace SensitivityReport

open Encoding

/-! ### From the row of an engine to the bounds of a row -/

section Row

variable {s : SensitivityReport Extended} {m : Model Extended} {d : Entry Extended} {i row : Nat}

theorem clip_of_lt {sentinel x : Extended} (h : Scalar.lt (Scalar.abs x) sentinel = true) : clip sentinel x = x := by
  have hle : Scalar.le sentinel (Scalar.abs x) = false := Extended.le_eq_false_of_lt h
  rw [clip, hle, if_neg Bool.false_ne_true]

theorem cut_of_lt {sentinel x : Extended} (h : Scalar.lt (Scalar.abs x) sentinel = true) : cut sentinel x = x := by
  have hle : Scalar.le sentinel (Scalar.abs x) = false := Extended.le_eq_false_of_lt h
  rw [cut, hle, if_neg Bool.false_ne_true]

theorem bindsBelow_eq (dual : Extended) : s.bindsBelow dual = Entry.pointsBelow s.engine.maximize dual := by
  have hsign : (if s.engine.maximize then -Scalar.one else Scalar.one : Extended) =
      .rat (if s.engine.maximize then -1 else 1) := by
    cases s.engine.maximize <;> rfl
  rw [bindsBelow, hsign, Extended.mul_comm]
  rfl

variable (hsentinel : s.engine.sentinel = s.naming.sentinel)
  (hrow : s.engine.row ((i + 1 : Nat) : Int) = .ok (rowFor m s.engine.sentinel (i + 1) row d))
include hsentinel hrow

omit hsentinel hrow in
private theorem outer_rhs {r : Engine.Row Extended} {x : Extended} (hr : r.rhs = clip s.engine.sentinel x)
    (hx : Scalar.lt (Scalar.abs x) s.engine.sentinel = true) : s.engine.outer r.rhs = x := by
  rw [hr, clip_of_lt hx]
  exact cut_of_lt hx

/-- A row without a range: the right-hand side binds on either side. -/
private theorem bindingSide_unranged {relation : Relation} {x : Extended}
    (hlimits : limitsFor s.engine.sentinel d = (relation, x, none))
    (hx : Scalar.lt (Scalar.abs x) s.engine.sentinel = true) (dual : Extended) :
    s.bindingSide (i + 1) (.ok dual) = .ok x := by
  have hrhs : s.engine.outer (rowFor m s.engine.sentinel (i + 1) row d).rhs = x :=
    outer_rhs (by rw [rowFor, hlimits]) hx
  have hrelation : (rowFor m s.engine.sentinel (i + 1) row d).relation = relation := by rw [rowFor, hlimits]
  by_cases hequal : relation = .equal
  · have hwidth : s.engine.rhsRange ((i + 1 : Nat) : Int) = .ok Scalar.zero := by
      rw [Engine.rhsRange, hrow]
      simp only [Except.map, hrelation, hequal]
    rw [bindingSide_eq hrow hwidth]
    simp [hrelation, hequal, hrhs]
  · -- The width is the sentinel, which is not below itself.
    have hrange : (rowFor m s.engine.sentinel (i + 1) row d).range = none := by
      rw [rowFor, hlimits]
      rfl
    have hwidth : s.engine.rhsRange ((i + 1 : Nat) : Int) = .ok s.engine.sentinel := by
      rw [Engine.rhsRange, hrow]
      simp only [Except.map, hrelation, hrange]
    have hunranged : Scalar.lt s.engine.sentinel s.naming.sentinel = false := by
      rw [hsentinel]
      exact Extended.lt_irrefl _
    rw [bindingSide_eq hrow hwidth]
    simp [hunranged, hrhs]

/-- A row with two different bounds: the width is taken off when the lower one binds. -/
private theorem bindingSide_ranged {l u : Rat} (hlu : l < u)
    (hlimits : limitsFor s.engine.sentinel d = (.atMost, .rat u, some (.rat (u - l))))
    (hu : Scalar.lt (Scalar.abs (.rat u)) s.engine.sentinel = true)
    (hwidth : Scalar.lt (Scalar.abs (.rat (u - l))) s.engine.sentinel = true) (dual : Extended) :
    s.bindingSide (i + 1) (.ok dual) = .ok (if s.bindsBelow dual then .rat l else .rat u) := by
  have habs : Scalar.abs (Extended.rat (u - l)) = .rat (u - l) := abs_sentinel (decide_eq_true (by grind))
  have hrhs : s.engine.outer (rowFor m s.engine.sentinel (i + 1) row d).rhs = .rat u :=
    outer_rhs (by rw [rowFor, hlimits]) hu
  have hrelation : (rowFor m s.engine.sentinel (i + 1) row d).relation = .atMost := by rw [rowFor, hlimits]
  have hrange : (rowFor m s.engine.sentinel (i + 1) row d).range = some (.rat (u - l)) := by
    rw [rowFor, hlimits]
    simp only [Option.map_some, clip_of_lt hwidth, habs]
  have hread : s.engine.rhsRange ((i + 1 : Nat) : Int) = .ok (.rat (u - l)) := by
    rw [Engine.rhsRange, hrow]
    simp only [Except.map, hrelation, hrange]
    exact congrArg Except.ok (cut_of_lt hwidth)
  have hranged : Scalar.lt (Extended.rat (u - l)) s.naming.sentinel = true := by rwa [← hsentinel, ← habs]
  have hlower : Extended.rat u - .rat (u - l) = .rat l := by
    rw [Extended.rat_sub, show u - (u - l) = l by grind]
  rw [bindingSide_eq hrow hread]
  simp [hrelation, hranged, hrhs, hlower]

/-- The number found for the binding side of a row is the bound of the model that binds. -/
theorem bindingSide_rowFor (horder : d.InOrder) (hd : d.Moderate s.engine.sentinel) (dual : Extended) :
    s.bindingSide (i + 1) (.ok dual) = .ok (d.binding s.engine.maximize dual) := by
  have hopen {x : Extended} (hnan : Scalar.isNaN x = false) (hx : ¬Scalar.isFinite x = true) :
      Scalar.isInfinite x = true :=
    Bool.not_eq_false _ ▸ fun hclosed => hx (Extended.isFinite_of_closed hnan hclosed)
  by_cases hlower : Scalar.isFinite d.lower = true
  · obtain ⟨l, hl⟩ := Extended.isFinite_iff.1 hlower
    have hlsmall := hl ▸ hd.lower hlower
    by_cases hupper : Scalar.isFinite d.upper = true
    · obtain ⟨u, hu⟩ := Extended.isFinite_iff.1 hupper
      have hbinding : d.binding s.engine.maximize dual = if s.bindsBelow dual then .rat l else .rat u := by
        rw [Entry.binding, hl, hu, bindsBelow_eq]
        simp [Scalar.isFinite, Scalar.isInfinite, Scalar.exact]
      by_cases hsame : l = u
      · have hlimits : limitsFor s.engine.sentinel d = (.equal, .rat l, none) := by
          rw [limitsFor_finite hl hu, if_pos hsame, hsame]
        rw [bindingSide_unranged hsentinel hrow hlimits hlsmall, hbinding, ← hsame, ite_self]
      · have hlu : l < u := by
          have hle : l ≤ u := Extended.le_rat.1 (hl ▸ hu ▸ horder.order)
          exact Rat.lt_of_le_of_ne hle hsame
        have hlimits := limitsFor_finite (s := s.engine.sentinel) hl hu
        rw [if_neg hsame] at hlimits
        have hwidth := hd.width hlower hupper
        rw [hl, hu, Extended.rat_sub] at hwidth
        rw [bindingSide_ranged hsentinel hrow hlu hlimits (hu ▸ hd.upper hupper) hwidth, hbinding]
    · have hinfinite := hopen horder.upper hupper
      have hbinding : d.binding s.engine.maximize dual = .rat l := by
        rw [Entry.binding, hinfinite, Bool.or_true, if_pos rfl, hl]
      have hlimits : limitsFor s.engine.sentinel d = (.atLeast, .rat l, none) := by
        rw [limitsFor, hinfinite, hl]
        rfl
      rw [bindingSide_unranged hsentinel hrow hlimits hlsmall, hbinding]
  · have hinfinite := hopen horder.lower hlower
    have hupper := hd.finite.resolve_left hlower
    obtain ⟨u, hu⟩ := Extended.isFinite_iff.1 hupper
    have hbinding : d.binding s.engine.maximize dual = .rat u := by
      rw [Entry.binding, Bool.eq_false_iff.2 hlower, hu]
      simp [Scalar.isInfinite, Scalar.exact]
    have hlimits : limitsFor s.engine.sentinel d = (.atMost, .rat u, none) := by
      rw [limitsFor, hinfinite, hu]
      rfl
    rw [bindingSide_unranged hsentinel hrow hlimits (hu ▸ hd.upper hupper), hbinding]

end Row

/-! ### Encoded models -/

/-- An engine with the program and the settings of one that holds a model holds the model. -/
theorem held_of_given {R : Type} [Scalar R] {m : Model R} {sentinel : R} {search : Search.Model R} {e : Engine R}
    (he : e.given = (described m sentinel search).given) :
    Held m e ∧ e.sentinel = sentinel ∧ e.maximize = m.goal.any fun g => !g.minimize := by
  simp only [Engine.given, Prod.mk.injEq] at he
  obtain ⟨hcolumns, hrows, hobjective, hmaximize, -, hsettings⟩ := he
  have hsentinel : e.sentinel = sentinel := congrArg Settings.sentinel hsettings
  refine ⟨⟨?_, ?_, hobjective⟩, hsentinel, hmaximize⟩
  · rw [hsentinel]
    exact hcolumns
  · rw [hsentinel]
    exact hrows

/-- A model that calls lead to and that has a variable is encoded.  Whatever arrays of the right sizes the engine then
holds, the current value of each ordinary row of moderate size is the bound of the model that binds under the dual of
the row. -/
theorem variableRange_binding {m : Model Extended} (hm : m.Reachable) (hvar : m.variableVids ≠ [])
    {infinite : Value Extended} {sentinel : Extended} (hsentinel : sentinelOf infinite = .ok sentinel)
    (h : Host Extended) :
    ∃ t h', ofModel m .standard infinite h = .ok t h' ∧
      ∀ (e : Engine Extended) (a : Engine.Sensitivity Extended), e.given = t.engine.given →
        e.results.sensitivity = some a → a.Fits e →
          ∀ row d, row ∈ ordinaryRows m → m.entries[row]? = some d → d.Moderate sentinel →
            ∃ i dual range, t.naming.row? row = some (i + 1) ∧ a.duals[i]? = some dual ∧
              SensitivityReport.variableRange ⟨e, t.naming⟩ row = .ok range ∧
              range.current = d.binding (m.goal.any fun g => !g.minimize) dual := by
  obtain ⟨journal, hrun⟩ := ofModel_run hm.proper hvar hsentinel h
  refine ⟨_, _, hrun, fun e a he hkept hfits row d hrow hd hmoderate => ?_⟩
  obtain ⟨hheld, hsame, hmaximize⟩ := held_of_given he
  obtain ⟨i, hi⟩ := List.mem_iff_getElem?.1 hrow
  have hplace : i < e.rows.length + e.columns.length := by
    have hlt : i < e.rows.length := hheld.rowCount ▸ (List.getElem?_eq_some_iff.1 hi).1
    omega
  have hname := row?_ordinary sentinel hi
  obtain ⟨dual, hdual⟩ := exists_entry hfits.duals hplace
  obtain ⟨lower, hlower⟩ := exists_entry hfits.lowers hplace
  obtain ⟨upper, hupper⟩ := exists_entry hfits.uppers hplace
  let s : SensitivityReport Extended := ⟨e, namingOf m sentinel⟩
  have hnative : s.engine.row ((i + 1 : Nat) : Int) = .ok (rowFor m s.engine.sentinel (i + 1) row d) := by
    have hat := hheld.row hi
    rwa [rowAt, hd] at hat
  have horder := hm.inOrder d (List.mem_of_getElem? hd)
  have hcurrent := bindingSide_rowFor (s := s) hsame hnative horder (hsame ▸ hmoderate) dual
  have hrange : s.variableRange row = .ok ⟨s.normalize (d.binding s.engine.maximize dual),
      s.openBelow lower, s.openAbove upper⟩ := by
    rw [variableRange, show s.naming.row? row = some (i + 1) from hname]
    exact rangeAt_of_entries hkept hdual hlower hupper hcurrent
  refine ⟨i, _, _, hname, hdual, hrange, ?_⟩
  rw [← hmaximize]
  exact clip_of_lt (hmoderate.binding_lt horder _ _)

/-- An engine that holds arrays with one dual everywhere and no limits. -/
def evenly (e : Engine Extended) (dual : Extended) : Engine Extended :=
  let places := e.rows.length + e.columns.length
  { e with
    results.sensitivity := some ⟨.replicate places dual, .replicate places .negInf, .replicate places .posInf,
      .replicate e.columns.length .negInf, .replicate e.columns.length .posInf⟩ }

/-- The row between `0` and `12` of a model that is maximised, under the dual `3`. -/
theorem variableRange_binding_mixture :
    (Model.performed Model.mixture).Reachable ∧ (Model.performed Model.mixture).variableVids ≠ [] ∧
      sentinelOf (.integer 100 : Value Extended) = .ok (.rat 100) ∧
      ∃ t h' d, ofModel (Model.performed Model.mixture) .standard (.integer 100)
          (.start (.script []) Exact.ranging) = .ok t h' ∧
        1 ∈ ordinaryRows (Model.performed Model.mixture) ∧ (Model.performed Model.mixture).entries[1]? = some d ∧
        d.Moderate (.rat 100) ∧ ∃ range, variableRange ⟨evenly t.engine (.rat 3), t.naming⟩ 1 = .ok range ∧
          range.current = .rat 12 := by
  have hreachable := Model.reachable_performed Model.mixture
  have hordinary : 1 ∈ ordinaryRows (Model.performed Model.mixture) := by decide +kernel
  obtain ⟨d, hd, hmoderate, hbinding⟩ : ∃ d, (Model.performed Model.mixture).entries[1]? = some d ∧
      d.Moderate (.rat 100) ∧ d.binding true (.rat 3) = .rat 12 :=
    ⟨_, rfl, by decide +kernel, by decide +kernel⟩
  obtain ⟨t, h', hrun, hall⟩ := variableRange_binding hreachable (by decide)
    (show sentinelOf (.integer 100 : Value Extended) = .ok (.rat 100) from rfl) (.start (.script []) Exact.ranging)
  obtain ⟨i, dual, range, -, hdual, hrange, hcurrent⟩ := hall (evenly t.engine (.rat 3)) _ rfl rfl
    ⟨List.length_replicate, List.length_replicate, List.length_replicate, List.length_replicate,
      List.length_replicate⟩ 1 d hordinary hd hmoderate
  obtain rfl : dual = .rat 3 := List.eq_of_mem_replicate (List.mem_of_getElem? hdual)
  refine ⟨hreachable, by decide, rfl, t, h', d, hrun, hordinary, hd, hmoderate, range, hrange, ?_⟩
  rw [hcurrent]
  exact hbinding

end SensitivityReport

end Optima
