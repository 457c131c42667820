import Mathlib.Data.List.Sort
import Optima.Proofs.Engine.Loaded
import Optima.Proofs.Engine.Ranging
import Optima.Proofs.Engine.Slacks

/-!
# The linear program of a solution is a restriction

Over the exact numbers, the linear program that the ranging pass is handed for a point of an engine's program has this
point, and all its points are points of the program, with integer columns and sets (`rangingProblem_restricts`).  The
costs are read by columns and the objective is kept by terms, but they come to the same since no column comes twice in
the objective (`costs_eq`).

An integer column is fixed at its value, so it stays an integer.  In a set, the columns that are zero at the point are
fixed at zero.  So what is not zero at a point of the linear program was not zero before, and neither kind of set cares
about having fewer columns that are not zero (`OrderedSet.Holds.shrink`).  Sets may overlap, and with the integer
columns too: a column that is fixed twice is fixed at the same value.
-/

namespace Optima

namespace Extended

theorem add_right_comm (x y z : Extended) : x + y + z = x + z + y := by
  have hrat (a b c : Rat) : rat a + rat b + rat c = rat a + rat c + rat b := by
    rw [rat_add, rat_add, rat_add, rat_add, show a + b + c = a + c + b by grind]
  cases x <;> cases y <;> cases z <;> first | rfl | exact hrat _ _ _

end Extended

/-! ### Linear programs -/

namespace Ranging

/-- What the terms of a row come to at a point. -/
def Row.value (r : Row Extended) (x : List Rat) : Extended :=
  r.terms.foldl (fun sum t => sum + t.2 * .rat ((x[t.1]?).getD 0)) (.rat 0)

namespace Problem

/-- A point with a value for each column, within the bounds of the columns and the limits of the rows. -/
structure Feasible (p : Problem Extended) (x : List Rat) : Prop where
  columns : List.Forall₂ (fun (c : Column Extended) q => Extended.Between (c.lower, c.upper) (.rat q)) p.columns x
  rows : ∀ r ∈ p.rows, Extended.Between (r.lower, r.upper) (r.value x)

/-- The costs of a point. -/
def value (p : Problem Extended) (x : List Rat) : Extended :=
  (p.columns.zip x).foldl (fun sum t => sum + t.1.cost * .rat t.2) (.rat 0)

end Problem

end Ranging

namespace Engine

open Extended (Between)

/-! ### Points of a program -/

namespace OrderedSet

/-- The values of the columns of a set, by their weights. -/
def values (s : OrderedSet Extended) (x : List Rat) : List Rat :=
  ((s.columns.zip s.weights).insertionSort fun t u => Scalar.le t.2 u.2 = true).map fun t => coordinate x t.1

/-- In a set of the first kind at most one value is not zero; in a set of the second kind at most two are not, and they
are neighbours.  The values come with their places. -/
structure Holds (s : OrderedSet Extended) (x : List Rat) : Prop where
  one : s.kind = 1 → ∀ t ∈ (s.values x).zipIdx, ∀ u ∈ (s.values x).zipIdx, t.1 ≠ 0 → u.1 ≠ 0 → t.2 = u.2
  two : s.kind = 2 → ∀ t ∈ (s.values x).zipIdx, ∀ u ∈ (s.values x).zipIdx, t.1 ≠ 0 → u.1 ≠ 0 → t.2 < u.2 →
    u.2 = t.2 + 1

instance (s : OrderedSet Extended) (x : List Rat) : Decidable (s.Holds x) :=
  decidable_of_iff ((s.kind = 1 → ∀ t ∈ (s.values x).zipIdx, ∀ u ∈ (s.values x).zipIdx, t.1 ≠ 0 → u.1 ≠ 0 →
      t.2 = u.2) ∧ (s.kind = 2 → ∀ t ∈ (s.values x).zipIdx, ∀ u ∈ (s.values x).zipIdx, t.1 ≠ 0 → u.1 ≠ 0 →
      t.2 < u.2 → u.2 = t.2 + 1))
    ⟨fun ⟨h, k⟩ => ⟨h, k⟩, fun ⟨h, k⟩ => ⟨h, k⟩⟩

/-- A set holds at a point that has no more values that are not zero. -/
theorem Holds.shrink {s : OrderedSet Extended} {x y : List Rat} (h : s.Holds x)
    (hzero : ∀ col ∈ s.columns, coordinate x col = 0 → coordinate y col = 0) : s.Holds y := by
  have hbefore {t : Rat × Nat} (ht : t ∈ (s.values y).zipIdx) (hne : t.1 ≠ 0) :
      ∃ q, (q, t.2) ∈ (s.values x).zipIdx ∧ q ≠ 0 := by
    rw [List.mem_zipIdx_iff_getElem?, values, List.getElem?_map] at ht
    obtain ⟨member, hmember, hvalue⟩ := Option.map_eq_some_iff.1 ht
    refine ⟨coordinate x member.1, ?_, fun hq => hne (hvalue.symm.trans (hzero _ ?_ hq))⟩
    · rw [List.mem_zipIdx_iff_getElem?, values, List.getElem?_map, hmember]
      rfl
    · exact (List.of_mem_zip ((List.mem_insertionSort _).1 (List.mem_of_getElem? hmember))).1
  constructor
  · intro hkind t ht u hu htne hune
    obtain ⟨p, hp, hpne⟩ := hbefore ht htne
    obtain ⟨q, hq, hqne⟩ := hbefore hu hune
    exact h.one hkind _ hp (q, u.2) hq hpne hqne
  · intro hkind t ht u hu htne hune hlt
    obtain ⟨p, hp, hpne⟩ := hbefore ht htne
    obtain ⟨q, hq, hqne⟩ := hbefore hu hune
    exact h.two hkind _ hp (q, u.2) hq hpne hqne hlt

end OrderedSet

/-- A point satisfies a program: the bounds, the limits of all rows, and what integer columns and sets ask for. -/
structure Admits (e : Engine Extended) (x : List Rat) : Prop where
  bounds : Inside e.columns x
  rows : ∀ r ∈ e.rows, Between r.limits (valueAt r.entries x)
  integer : List.Forall₂ (fun (c : Column Extended) (q : Rat) => c.integer = true → q.isInt = true) e.columns x
  sets : ∀ s ∈ e.sets, s.Holds x

instance (limits : Extended × Extended) (x : Extended) : Decidable (Between limits x) :=
  inferInstanceAs (Decidable (_ ∧ _))

instance (columns : List (Column Extended)) (x : List Rat) : Decidable (Inside columns x) :=
  inferInstanceAs (Decidable (List.Forall₂ _ _ _))

instance (e : Engine Extended) (x : List Rat) : Decidable (e.Admits x) :=
  decidable_of_iff (Inside e.columns x ∧ (∀ r ∈ e.rows, Between r.limits (valueAt r.entries x)) ∧
      List.Forall₂ (fun (c : Column Extended) (q : Rat) => c.integer = true → q.isInt = true) e.columns x ∧
      ∀ s ∈ e.sets, s.Holds x)
    ⟨fun ⟨h, k, l, m⟩ => ⟨h, k, l, m⟩, fun ⟨h, k, l, m⟩ => ⟨h, k, l, m⟩⟩

/-! ### Engines that have been handled -/

section Handled

variable {R : Type} [Scalar R]

/-- An engine that was made with some columns or for a model, and has gone through operations since, also operations
that stopped with a fault.  The surroundings may change between them. -/
inductive Handled : Engine R → Prop where
  | created {columns : Nat} {defects : Defects} {h h' : Host R} {e : Engine R}
      (hrun : create columns defects h = .ok e h') : Handled e
  | encoded {m : Model R} (hm : m.Reachable) {infinite : Value R} {h h' : Host R} {t : Encoding R}
      (hrun : Encoding.ofModel m .standard infinite h = .ok t h') : Handled t.engine
  | operated {e : Engine R} (op : Operation R) (h : Host R) : Handled e → Handled (op.perform.after ⟨e, h⟩).engine

/-- The program names only columns that are there, and none of them twice in the objective. -/
structure Tidy (e : Engine R) : Prop where
  inRange : e.InRange
  distinct : (e.objective.map Prod.fst).Nodup

theorem steady_tidy : Steady (R := R) Tidy where
  congr {e e'} hcargo _ he := by
    simp only [cargo, Prod.mk.injEq] at hcargo
    obtain ⟨hcolumns, hrows, hobjective, -, hsets, -, -⟩ := hcargo
    have hcolumn (k : Nat) (hk : e.HasColumn k) : e'.HasColumn k := by
      rw [HasColumn, hcolumns]
      exact hk
    refine ⟨⟨?_, ?_, ?_⟩, hobjective ▸ he.distinct⟩
    · exact hrows ▸ fun r hr t ht => hcolumn _ (he.inRange.rows r hr t ht)
    · exact hobjective ▸ fun t ht => hcolumn _ (he.inRange.objective t ht)
    · exact hsets ▸ fun s hs col hcol => hcolumn _ (he.inRange.sets s hs col hcol)
  loads _ he := ⟨{ he.inRange with }, he.distinct⟩

theorem tidy_described (m : Model R) (sentinel : R) (search : Search.Model R) :
    (Encoding.described m sentinel search).Tidy := by
  refine ⟨(sound_described m sentinel search).inRange, ?_⟩
  show (((m.goal.map fun g => Encoding.terms m g.row).getD []).map Prod.fst).Nodup
  cases m.goal with
  | none => exact List.nodup_nil
  | some g => exact Encoding.nodup_terms m g.row

/-- Whatever an engine has gone through, its program is tidy. -/
theorem Handled.tidy {e : Engine R} (h : Handled e) : e.Tidy := by
  induction h with
  | created hrun =>
    cases hrun
    exact ⟨⟨by simp [new], by simp [new], by simp [new]⟩, List.nodup_nil⟩
  | @encoded m hm infinite h h' t hrun =>
    obtain ⟨hvar, sentinel, hsentinel⟩ := Encoding.ofModel_eq_ok hrun
    obtain ⟨journal, hdescribed⟩ := Encoding.ofModel_run hm.proper hvar hsentinel h
    rw [hdescribed] at hrun
    cases hrun
    exact tidy_described m sentinel _
  | @operated e op h _ ih =>
    have hkept {act : Build R Unit} (hact : Action.Preserves Tidy act) :
        Action.Preserves (Session.Has Tidy) (inside act) :=
      Session.has_inside hact
    cases op with
    | build c =>
      refine hkept (fun e he => ?_) ⟨e, h⟩ ih
      rcases c.after_cases e with hedited | ⟨s, hcolumns, -, hafter⟩
      · exact ⟨hedited.inRange he.inRange, hedited.distinct he.distinct⟩
      · rw [hafter]
        exact ⟨he.inRange.addSet hcolumns, he.distinct⟩
    | release =>
      have hrelease : Action.Preserves Tidy (modify Engine.release : Build R Unit) :=
        .modify fun e he => ⟨⟨by simp [Engine.release], by simp [Engine.release], by simp [Engine.release]⟩,
          List.nodup_nil⟩
      exact hkept hrelease ⟨e, h⟩ ih
    | _ => exact steady_tidy.operated (fun _ => by simp) (by simp) ⟨e, h⟩ ih

end Handled

/-! ### Costs -/

/-- The sum of the first values of a function. -/
def sumTo (f : Nat → Extended) : Nat → Extended
  | 0 => .rat 0
  | n + 1 => sumTo f n + f n

theorem sumTo_congr {f g : Nat → Extended} {n : Nat} (h : ∀ i < n, f i = g i) : sumTo f n = sumTo g n := by
  induction n with
  | zero => rfl
  | succ n ih => rw [sumTo, sumTo, ih fun i hi => h i (by omega), h n (by omega)]

/-- A sum in which one value takes the place of a zero. -/
theorem sumTo_insert {f g : Nat → Extended} {n k : Nat} (hk : k < n) (hzero : f k = .rat 0)
    (hsame : ∀ i, i ≠ k → g i = f i) : sumTo g n = sumTo f n + g k := by
  induction n with
  | zero => omega
  | succ n ih =>
    rw [sumTo, sumTo]
    by_cases hlast : k = n
    · subst hlast
      rw [sumTo_congr fun i hi => hsame i (by omega), hzero, Extended.add_zero]
    · rw [ih (by omega), hsame n (by omega), Extended.add_right_comm]

theorem foldl_eq_sumTo {α : Type} (l : List α) (f : α → Extended) :
    l.foldl (fun sum a => sum + f a) (.rat 0) = sumTo (fun i => ((l[i]?).map f).getD (.rat 0)) l.length := by
  induction l using List.reverseRecOn with
  | nil => rfl
  | append_singleton l a ih =>
    have hbefore : ∀ i < l.length, ((l[i]?).map f).getD (.rat 0) = (((l ++ [a])[i]?).map f).getD (.rat 0) := by
      intro i hi
      rw [List.getElem?_append_left hi]
    rw [List.foldl_append, ih, sumTo_congr hbefore, List.length_append, List.length_singleton, sumTo,
      List.getElem?_concat_length]
    rfl

/-- What the column with an index adds to the value of terms. -/
def share (terms : List (Nat × Extended)) (x : List Rat) (i : Nat) : Extended :=
  coefficientIn terms ((i + 1 : Nat) : Int) * .rat (coordinate x (i + 1))

theorem share_eq_zero {terms : List (Nat × Extended)} {i : Nat} (h : i + 1 ∉ terms.map Prod.fst) (x : List Rat) :
    share terms x i = .rat 0 := by
  rw [share, coefficientIn, Int.toNat_natCast, lookup_eq_none h]
  show Extended.rat 0 * Extended.rat _ = _
  rw [Extended.rat_mul, Rat.zero_mul]

theorem share_concat_of_ne {terms : List (Nat × Extended)} {t : Nat × Extended} {i : Nat} (h : i + 1 ≠ t.1)
    (x : List Rat) : share (terms ++ [t]) x i = share terms x i := by
  have hne : (i + 1 == t.1) = false := beq_false_of_ne h
  rw [share, share, coefficientIn, coefficientIn, Int.toNat_natCast, List.lookup_append, List.lookup_cons, hne,
    List.lookup_nil, Option.or_none]

theorem share_concat_self {terms : List (Nat × Extended)} {t : Nat × Extended} {i : Nat} (h : i + 1 = t.1)
    (hnew : t.1 ∉ terms.map Prod.fst) (x : List Rat) :
    share (terms ++ [t]) x i = t.2 * .rat (coordinate x t.1) := by
  rw [share, coefficientIn, Int.toNat_natCast, List.lookup_append, h, lookup_eq_none hnew, List.lookup_cons, BEq.rfl]
  rfl

/-- Terms in different columns, added up by columns. -/
theorem valueAt_eq_sumTo {terms : List (Nat × Extended)} (hdistinct : (terms.map Prod.fst).Nodup) {n : Nat}
    (hrange : UpTo n terms) (x : List Rat) : valueAt terms x = sumTo (share terms x) n := by
  induction terms using List.reverseRecOn with
  | nil =>
    have hzero (m : Nat) : sumTo (share [] x) m = .rat 0 := by
      induction m with
      | zero => rfl
      | succ m ih => rw [sumTo, ih, share_eq_zero List.not_mem_nil, Extended.add_zero]
    exact (hzero n).symm
  | append_singleton terms t ih =>
    rw [List.map_append, List.map_singleton] at hdistinct
    obtain ⟨hnew, hbefore⟩ : t.1 ∉ terms.map Prod.fst ∧ (terms.map Prod.fst).Nodup := by
      rwa [← List.concat_eq_append, List.nodup_concat] at hdistinct
    obtain ⟨hpos, hle⟩ := hrange t (by simp)
    obtain ⟨k, hk⟩ : ∃ k, k + 1 = t.1 := ⟨t.1 - 1, by omega⟩
    rw [valueAt_concat, ih hbefore fun u hu => hrange u (List.mem_append_left _ hu), ← share_concat_self hk hnew]
    refine (sumTo_insert (by omega) (share_eq_zero (hk ▸ hnew) x) fun i hi => ?_).symm
    exact share_concat_of_ne (by omega) x

theorem rangingColumn_cost (e : Engine Extended) (fixed : List Nat) (point : List Extended) (col : Nat)
    (c : Column Extended) : (rangingColumn e fixed point col c).cost = coefficientIn e.objective col := by
  unfold rangingColumn
  simp only
  split <;> rfl

/-- The costs of a point are the value of the objective. -/
theorem costs_eq {e : Engine Extended} (he : e.Tidy) (point : List Extended) {y : List Rat}
    (hy : y.length = e.columns.length) : (e.rangingProblem point).value y = valueAt e.objective y := by
  have hlength : ((e.rangingProblem point).columns.zip y).length = e.columns.length := by
    simp [rangingProblem, hy]
  rw [Ranging.Problem.value, foldl_eq_sumTo _ fun t : Ranging.Column Extended × Rat => t.1.cost * .rat t.2,
    hlength, valueAt_eq_sumTo he.distinct he.inRange.objective]
  refine sumTo_congr fun i hi => ?_
  have hcolumn : (e.rangingProblem point).columns[i]? =
      some (rangingColumn e (fixedColumns e point) point (i + 1) e.columns[i]) := by
    simp [rangingProblem, hi]
  have hvalue : y[i]? = some y[i] := List.getElem?_eq_getElem (hy ▸ hi)
  have hzip : ((e.rangingProblem point).columns.zip y)[i]? =
      some (rangingColumn e (fixedColumns e point) point (i + 1) e.columns[i], y[i]) :=
    List.getElem?_zip_eq_some.2 ⟨hcolumn, hvalue⟩
  rw [hzip]
  show (rangingColumn e (fixedColumns e point) point (i + 1) e.columns[i]).cost * .rat y[i] = _
  rw [rangingColumn_cost, share, coordinate, Nat.add_sub_cancel, hvalue]
  rfl

/-! ### Points of the linear program -/

theorem forall₂_iff_getElem? {α β : Type} {r : α → β → Prop} {l : List α} {m : List β} :
    List.Forall₂ r l m ↔
      l.length = m.length ∧ ∀ (i : Nat) (a : α) (b : β), l[i]? = some a → m[i]? = some b → r a b := by
  rw [List.forall₂_iff_get]
  refine and_congr_right fun _ => ⟨fun h i a b ha hb => ?_, fun h i hi hj => ?_⟩
  · obtain ⟨hi, rfl⟩ := List.getElem?_eq_some_iff.1 ha
    obtain ⟨hj, rfl⟩ := List.getElem?_eq_some_iff.1 hb
    exact h i hi hj
  · exact h i _ _ (List.getElem?_eq_getElem hi) (List.getElem?_eq_getElem hj)

/-- A column that is fixed for ranging: an integer one, or one of a set that is zero. -/
def Fixed (e : Engine Extended) (x : List Rat) (i : Nat) : Prop :=
  (∃ c, e.columns[i]? = some c ∧ c.integer = true) ∨ x[i]? = some 0 ∧ ∃ s ∈ e.sets, i + 1 ∈ s.columns

theorem mem_fixedColumns {e : Engine Extended} {x : List Rat} {i : Nat} (hi : i < e.columns.length) :
    (fixedColumns e (x.map .rat)).contains (i + 1) = true ↔ Fixed e x i := by
  have hzero : ((x.map Extended.rat)[i]?).any (fun q => Scalar.same q Scalar.zero) = true ↔ x[i]? = some 0 := by
    rw [List.getElem?_map]
    cases x[i]? with
    | none => simp
    | some q =>
      simp only [Option.map_some, Option.any_some, Option.some.injEq]
      exact Extended.same_rat
  have hset : i + 1 ∈ zeroSetColumns e (x.map .rat) ↔ x[i]? = some 0 ∧ ∃ s ∈ e.sets, i + 1 ∈ s.columns := by
    rw [zeroSetColumns, List.mem_filter, List.mem_flatMap, Nat.add_sub_cancel, hzero]
    exact and_comm
  have hinteger : (e.columns[i]?).any Column.integer = true ↔ ∃ c, e.columns[i]? = some c ∧ c.integer = true :=
    Option.any_eq_true _ _
  rw [List.contains_iff_mem, fixedColumns, List.mem_filter, Bool.or_eq_true, Nat.add_sub_cancel, List.contains_iff_mem,
    hset, hinteger]
  refine and_iff_right ?_
  exact List.mem_map.2 ⟨i, List.mem_range.2 hi, rfl⟩

section Points

variable {e : Engine Extended} {x y : List Rat}

private theorem rangingColumn_between {i : Nat} {c : Column Extended} {q : Rat} (hc : e.columns[i]? = some c)
    (hq : x[i]? = some q) (r : Rat) :
    let column := rangingColumn e (fixedColumns e (x.map .rat)) (x.map .rat) (i + 1) c
    Between (column.lower, column.upper) (.rat r) ↔
      (Fixed e x i → r = q) ∧ (¬Fixed e x i → Between (c.lower, c.upper) (.rat r)) := by
  have hpoint : (x.map Extended.rat)[i + 1 - 1]? = some (.rat q) := by
    rw [Nat.add_sub_cancel, List.getElem?_map, hq]
    rfl
  have hmem := mem_fixedColumns (x := x) (List.getElem?_eq_some_iff.1 hc).1
  unfold rangingColumn
  by_cases hfixed : Fixed e x i
  · rw [hmem.2 hfixed, if_pos rfl, hpoint]
    have hsame : Between (.rat q, .rat q) (.rat r) ↔ r = q :=
      (Extended.between_same (Extended.same_rat.2 rfl) r).trans Extended.same_rat
    exact hsame.trans ⟨fun h => ⟨fun _ => h, fun hfree => absurd hfixed hfree⟩, fun h => h.1 hfixed⟩
  · rw [if_neg (mt hmem.1 hfixed)]
    exact ⟨fun h => ⟨fun hfix => absurd hfix hfixed, fun _ => h⟩, fun h => h.2 hfixed⟩

/-- A point of the linear program: where the columns are fixed it is the given one, and elsewhere it is within the
bounds of the columns. -/
theorem feasible_iff (hx : x.length = e.columns.length) : (e.rangingProblem (x.map .rat)).Feasible y ↔
    y.length = e.columns.length ∧
      (∀ i c q r, e.columns[i]? = some c → x[i]? = some q → y[i]? = some r →
        (Fixed e x i → r = q) ∧ (¬Fixed e x i → Between (c.lower, c.upper) (.rat r))) ∧
      ∀ r ∈ e.rows, Between r.limits (valueAt r.entries y) := by
  have hrows : (∀ r ∈ (e.rangingProblem (x.map .rat)).rows, Between (r.lower, r.upper) (r.value y)) ↔
      ∀ r ∈ e.rows, Between r.limits (valueAt r.entries y) := by
    have hvalue (r : Row Extended) : (rangingRow r).value y = valueAt r.entries y := by
      rw [valueAt_eq, Ranging.Row.value, rangingRow, List.foldl_map]
      rfl
    show (∀ r ∈ e.rows.map rangingRow, _) ↔ _
    rw [List.forall_mem_map]
    exact forall₂_congr fun r _ => by rw [hvalue]; rfl
  have hcolumn {i : Nat} {c : Column Extended} (hc : e.columns[i]? = some c) :
      (e.rangingProblem (x.map .rat)).columns[i]? =
        some (rangingColumn e (fixedColumns e (x.map .rat)) (x.map .rat) (i + 1) c) := by
    rw [rangingProblem, List.getElem?_mapIdx, hc]
    rfl
  have hcount : (e.rangingProblem (x.map .rat)).columns.length = e.columns.length := List.length_mapIdx
  constructor
  · rintro ⟨hcolumns, hlimits⟩
    obtain ⟨hlength, hinside⟩ := forall₂_iff_getElem?.1 hcolumns
    refine ⟨hlength.symm.trans hcount, fun i c q r hc hq hr => ?_, hrows.1 hlimits⟩
    exact (rangingColumn_between hc hq r).1 (hinside i _ r (hcolumn hc) hr)
  · rintro ⟨hlength, hinside, hlimits⟩
    refine ⟨forall₂_iff_getElem?.2 ⟨hcount.trans hlength.symm, fun i a r ha hr => ?_⟩, hrows.2 hlimits⟩
    have hi : i < e.columns.length := hcount ▸ (List.getElem?_eq_some_iff.1 ha).1
    have hc := List.getElem?_eq_getElem hi
    obtain ⟨q, hq⟩ : ∃ q, x[i]? = some q := ⟨_, List.getElem?_eq_getElem (hx ▸ hi)⟩
    obtain rfl := Option.some.inj ((hcolumn hc).symm.trans ha)
    exact (rangingColumn_between hc hq r).2 (hinside i _ _ r hc hq hr)

theorem Admits.length (hx : e.Admits x) : x.length = e.columns.length :=
  hx.bounds.length_eq.symm

theorem Admits.between (hx : e.Admits x) {i : Nat} {c : Column Extended} {q : Rat} (hc : e.columns[i]? = some c)
    (hq : x[i]? = some q) : Between (c.lower, c.upper) (.rat q) :=
  (forall₂_iff_getElem?.1 hx.bounds).2 i c q hc hq

theorem Admits.isInteger (hx : e.Admits x) {i : Nat} {c : Column Extended} {q : Rat} (hc : e.columns[i]? = some c)
    (hq : x[i]? = some q) (hinteger : c.integer = true) : q.isInt = true :=
  (forall₂_iff_getElem?.1 hx.integer).2 i c q hc hq hinteger

/-- The point itself is a point of the linear program. -/
theorem Admits.feasible (hx : e.Admits x) : (e.rangingProblem (x.map .rat)).Feasible x := by
  refine (feasible_iff hx.length).2 ⟨hx.length, fun i c q r hc hq hr => ?_, hx.rows⟩
  obtain rfl := Option.some.inj (hq.symm.trans hr)
  exact ⟨fun _ => rfl, fun _ => hx.between hc hq⟩

/-- What a point of the linear program has in common with the given point. -/
theorem eq_of_fixed (hx : e.Admits x) (hy : (e.rangingProblem (x.map .rat)).Feasible y) {i : Nat} {c : Column Extended}
    {r : Rat} (hc : e.columns[i]? = some c) (hr : y[i]? = some r) :
    ∃ q, x[i]? = some q ∧ (Fixed e x i → r = q) ∧ (¬Fixed e x i → Between (c.lower, c.upper) (.rat r)) := by
  have hi : i < x.length := hx.length ▸ (List.getElem?_eq_some_iff.1 hc).1
  have hq : x[i]? = some x[i] := List.getElem?_eq_getElem hi
  exact ⟨_, hq, ((feasible_iff hx.length).1 hy).2.1 i c _ r hc hq hr⟩

/-- A column of a set that is zero at the given point is zero at each point of the linear program. -/
theorem zero_of_feasible (he : e.InRange) (hx : e.Admits x) (hy : (e.rangingProblem (x.map .rat)).Feasible y)
    {s : OrderedSet Extended} (hs : s ∈ e.sets) {col : Nat} (hcol : col ∈ s.columns) (hzero : coordinate x col = 0) :
    coordinate y col = 0 := by
  obtain ⟨hpos, hle⟩ := he.sets s hs col hcol
  obtain ⟨i, rfl⟩ : ∃ i, col = i + 1 := ⟨col - 1, by omega⟩
  have hlength : y.length = e.columns.length := ((feasible_iff hx.length).1 hy).1
  have hc : e.columns[i]? = some e.columns[i] := List.getElem?_eq_getElem hle
  obtain ⟨r, hr⟩ : ∃ r, y[i]? = some r := ⟨_, List.getElem?_eq_getElem (hlength ▸ hle)⟩
  obtain ⟨q, hq, hfixed, -⟩ := eq_of_fixed hx hy hc hr
  rw [coordinate, Nat.add_sub_cancel, hq] at hzero
  rw [coordinate, Nat.add_sub_cancel, hr]
  obtain rfl : q = 0 := hzero
  exact hfixed (.inr ⟨hq, s, hs, hcol⟩)

/-- Each point of the linear program satisfies the whole program. -/
theorem admits_of_feasible (he : e.InRange) (hx : e.Admits x) (hy : (e.rangingProblem (x.map .rat)).Feasible y) :
    e.Admits y := by
  obtain ⟨hlength, -, hrows⟩ := (feasible_iff hx.length).1 hy
  refine ⟨forall₂_iff_getElem?.2 ⟨hlength.symm, fun i c r hc hr => ?_⟩, hrows,
    forall₂_iff_getElem?.2 ⟨hlength.symm, fun i c r hc hr hinteger => ?_⟩, fun s hs => ?_⟩
  · obtain ⟨q, hq, hfixed, hfree⟩ := eq_of_fixed hx hy hc hr
    by_cases h : Fixed e x i
    · rw [hfixed h]
      exact hx.between hc hq
    · exact hfree h
  · obtain ⟨q, hq, hfixed, -⟩ := eq_of_fixed hx hy hc hr
    rw [hfixed (.inl ⟨c, hc, hinteger⟩)]
    exact hx.isInteger hc hq hinteger
  · exact (hx.sets s hs).shrink fun col hcol => zero_of_feasible he hx hy hs hcol

/-- Without integer columns and sets nothing is fixed. -/
theorem feasible_of_admits (hmixed : e.isMixed = false) (hx : x.length = e.columns.length) (hy : e.Admits y) :
    (e.rangingProblem (x.map .rat)).Feasible y := by
  obtain ⟨hsets, hcolumns⟩ := Bool.or_eq_false_iff.1 hmixed
  have hnone : e.sets = [] := by simpa using hsets
  have hfree (i : Nat) : ¬Fixed e x i := by
    rintro (⟨c, hc, hinteger⟩ | ⟨-, s, hs, -⟩)
    · exact List.any_eq_false.1 hcolumns c (List.mem_of_getElem? hc) hinteger
    · rw [hnone] at hs
      cases hs
  refine (feasible_iff hx).2 ⟨hy.length, fun i c q r hc _ hr => ?_, hy.rows⟩
  exact ⟨fun h => absurd h (hfree i), fun _ => hy.between hc hr⟩

end Points

/-- The linear program that the ranging pass is handed for a point of an engine's program: it has the sense of the
program and its objective, the point is one of its points, and all its points satisfy the program.  If no column is
integer and there are no sets, its points are those of the program. -/
theorem rangingProblem_restricts {e : Engine Extended} (he : Handled e) {x : List Rat} (hx : e.Admits x) :
    let p := e.rangingProblem (x.map .rat)
    (∀ h t, e.results.incumbent = some (x.map .rat) → rangeSolution ⟨e, h⟩ = .ok ⟨⟩ t →
        t.host.rangingCalls = h.rangingCalls ++ .silence :: p.calls) ∧
      p.maximize = e.maximize ∧ p.Feasible x ∧
      (∀ y, p.Feasible y → e.Admits y ∧ p.value y = valueAt e.objective y) ∧
      (e.isMixed = false → ∀ y, p.Feasible y ↔ e.Admits y) := by
  have htidy := he.tidy
  refine ⟨fun h t hbest hrun => (rangeSolution_ok hrun hbest).1.calls, rfl, hx.feasible, fun y hy => ?_,
    fun hmixed y => ⟨admits_of_feasible htidy.inRange hx, feasible_of_admits hmixed hx.length⟩⟩
  have hadmits := admits_of_feasible htidy.inRange hx hy
  exact ⟨hadmits, costs_eq htidy _ hadmits.length⟩

/-- Calls that make an integer column and two sets, one of each kind, that have two columns in common. -/
def overlappingCalls : List (Call Extended) := [
  .setInteger 1 (.flag true), .setBounds 1 (.integer 0) (.integer 4),
  .addRow [.integer 1, .integer 1] [1, 4] (.ofMember Relation.atMost) (.integer 7), .setRange 1 (.integer 3),
  .setObjective [.integer 1, .integer 2] [1, 4], .setSense (.flag true),
  .addSet "" (.integer 1) (.integer 1) [1, 2, 3] [.integer 1, .integer 2, .integer 3],
  .addSet "" (.integer 2) (.integer 2) [4, 2, 3] [.integer 3, .integer 1, .integer 2]]

/-- The engine that the calls leave. -/
def overlapping : Engine Extended :=
  (new 4 .none ⟨1, .empty, { Search.Knobs.start with verbose := false }, none⟩).performed overlappingCalls

theorem Handled.performed {R : Type} [Scalar R] {e : Engine R} (he : Handled e) (h : Host R) (calls : List (Call R)) :
    Handled (e.performed calls) := by
  induction calls generalizing e with
  | nil => exact he
  | cons c calls ih =>
    have hafter : ((Operation.build c).perform.after ⟨e, h⟩).engine = c.perform.after e := by
      show ((inside c.perform).after ⟨e, h⟩).engine = _
      simp only [Action.after, inside, Action.on]
      cases c.perform e <;> rfl
    have hnext : Handled (c.perform.after e) := hafter ▸ he.operated (.build c) h
    exact ih hnext

theorem rangingProblem_restricts_overlapping :
    Handled overlapping ∧ overlapping.Admits [2, 0, 0, 3] ∧
      (overlapping.rangingProblem ([2, 0, 0, 3].map .rat)).Feasible [2, 0, 0, 3] ∧
      ∀ y, (overlapping.rangingProblem ([2, 0, 0, 3].map .rat)).Feasible y → overlapping.Admits y := by
  have hhandled : Handled overlapping := by
    have hcreated : create 4 .none (Host.start (.script []) Exact.ranging : Host Extended) = .ok _ _ := rfl
    exact (Handled.created hcreated).performed (.start (.script []) Exact.ranging) overlappingCalls
  have hadmits : overlapping.Admits [2, 0, 0, 3] := by decide +kernel
  obtain ⟨-, -, hfeasible, hpoints, -⟩ := rangingProblem_restricts hhandled hadmits
  exact ⟨hhandled, hadmits, hfeasible, fun y hy => (hpoints y hy).1⟩

end Engine

end Optima
