import Optima.Proofs.Encoding.Faithful
import Optima.Proofs.Engine.Slacks
import Optima.Proofs.Model.Identity

/-!
# The limits of encoded rows

In exact arithmetic, the upper limit of an encoded row is that of the row of the model, with the sentinel in place of
what is at least as large.  The lower limit of a row with two limits is kept as the right-hand side less the width of
the row, and each of these goes through the sentinel by itself; so it is lost when the width reaches the sentinel, and
also when the upper limit reaches it and the width does not.  In all other cases it comes out as it should
(`rowBounds_loaded`, `loadedLower_eq`).
-/

namespace Optima.Encoding

/-- A number, with the sentinel in place of one that is at least as large; the sign stays. -/
def cut (sentinel x : Extended) : Extended :=
  if Scalar.le sentinel (Scalar.abs x) then Scalar.copySign sentinel x else x

/-- The lower limit that a caller should see. -/
def lowerLimit (sentinel lower : Extended) : Extended :=
  if Scalar.isInfinite lower then -sentinel else cut sentinel lower

/-- The upper limit that a caller should see. -/
def upperLimit (sentinel upper : Extended) : Extended :=
  if Scalar.isInfinite upper then sentinel else cut sentinel upper

/-- The row is as wide as the sentinel or wider, and its lower limit is above the negative sentinel. -/
def dropsLower (sentinel : Extended) (e : Entry Extended) : Bool :=
  match e.lower, e.upper with
  | .rat l, .rat u => sentinel.le (.rat (u - l)) && (-sentinel).lt (.rat l)
  | _, _ => false

/-- The upper limit reaches the sentinel, and neither the lower limit nor the width does. -/
def raisesLower (sentinel : Extended) (e : Entry Extended) : Bool :=
  match e.lower, e.upper with
  | .rat l, .rat u =>
    (Extended.rat (u - l)).lt sentinel && sentinel.le (.rat u) && (Extended.rat l).lt sentinel
  | _, _ => false

/-- The lower limit that a caller sees. -/
def loadedLower (sentinel : Extended) (e : Entry Extended) : Extended :=
  if dropsLower sentinel e then -sentinel
  else if raisesLower sentinel e then sentinel
  else lowerLimit sentinel e.lower

/-! ### Numbers and the sentinel -/

section Sentinel

open Extended

theorem positive_cases {s : Extended} (hs : Scalar.lt Scalar.zero s = true) :
    s = .posInf ∨ ∃ q : Rat, 0 < q ∧ s = .rat q := by
  cases s with
  | posInf => exact .inl rfl
  | rat q => exact .inr ⟨q, of_decide_eq_true hs, rfl⟩
  | _ => cases hs

theorem abs_rat (q : Rat) : Scalar.abs (Extended.rat q) = .rat (if q < 0 then -q else q) := by
  by_cases hq : q < 0
  · simp [Scalar.abs, Scalar.signed, isNegative, hq]
    rfl
  · simp [Scalar.abs, Scalar.signed, isNegative, hq]

/-- What replaces a number that is at least as large as a sentinel. -/
private theorem replace_rat {s : Rat} (hs : 0 < s) {t : Extended} (ht : Scalar.signed t = false) (q : Rat) :
    (if Scalar.le (rat s) (Scalar.abs (rat q)) then Scalar.copySign t (rat q) else rat q) =
      if s ≤ q then t else if q ≤ -s then -t else rat q := by
  have habs : Scalar.abs t = t := by rw [Scalar.abs, if_neg (by rw [ht]; exact Bool.false_ne_true)]
  have hle : Scalar.le (rat s) (Scalar.abs (rat q)) = true ↔ s ≤ q ∨ q ≤ -s := by
    rw [abs_rat]
    refine Extended.le_rat.trans ?_
    split <;> grind
  have hsign : Scalar.copySign t (rat q) = if q < 0 then -t else t := by
    rw [Scalar.copySign, habs]
    exact if_congr decide_eq_true_iff rfl rfl
  rw [hsign]
  by_cases hupper : s ≤ q
  · rw [if_pos (hle.2 (.inl hupper)), if_pos hupper, if_neg (by grind)]
  by_cases hlower : q ≤ -s
  · rw [if_pos (hle.2 (.inr hlower)), if_neg hupper, if_pos hlower, if_pos (by grind)]
  · rw [if_neg (fun h => (hle.1 h).elim hupper hlower), if_neg hupper, if_neg hlower]

theorem cut_rat {s : Rat} (hs : 0 < s) (q : Rat) :
    cut (.rat s) (.rat q) = if s ≤ q then .rat s else if q ≤ -s then .rat (-s) else .rat q :=
  replace_rat hs (decide_eq_false (by grind)) q

theorem clip_rat {s : Rat} (hs : 0 < s) (q : Rat) :
    clip (.rat s) (.rat q) = if s ≤ q then .posInf else if q ≤ -s then .negInf else Extended.rat q :=
  replace_rat hs rfl q

theorem cut_ne_neg {s q : Rat} (hs : 0 < s) (hq : -s < q) : cut (.rat s) (.rat q) ≠ .rat (-s) := by
  intro h
  rw [cut_rat hs] at h
  by_cases hupper : s ≤ q
  · rw [if_pos hupper] at h
    have := Extended.rat.inj h
    grind
  · rw [if_neg hupper, if_neg (by grind)] at h
    have := Extended.rat.inj h
    grind

theorem cut_ne_pos {s q : Rat} (hs : 0 < s) (hq : q < s) : cut (.rat s) (.rat q) ≠ .rat s := by
  intro h
  rw [cut_rat hs, if_neg (by grind)] at h
  by_cases hlower : q ≤ -s
  · rw [if_pos hlower] at h
    have := Extended.rat.inj h
    grind
  · rw [if_neg hlower] at h
    have := Extended.rat.inj h
    grind

/-- Nothing but an infinity reaches an infinite sentinel. -/
theorem cut_infinite (x : Extended) : cut .posInf x = x := by
  cases x with
  | rat q =>
    rw [cut, abs_rat]
    rfl
  | _ => rfl

theorem clip_infinite (x : Extended) : clip .posInf x = x :=
  cut_infinite x

variable {s : Extended}

theorem abs_sentinel (hs : Scalar.lt Scalar.zero s = true) : Scalar.abs s = s := by
  rcases positive_cases hs with rfl | ⟨q, hq, rfl⟩
  · rfl
  · rw [abs_rat, if_neg (by grind)]

theorem cut_posInf (hs : Scalar.lt Scalar.zero s = true) : cut s .posInf = s := by
  have hcut : cut s .posInf = Scalar.abs s := by
    rcases positive_cases hs with rfl | ⟨q, -, rfl⟩ <;> rfl
  rw [hcut, abs_sentinel hs]

theorem cut_negInf (hs : Scalar.lt Scalar.zero s = true) : cut s .negInf = -s := by
  have hcut : cut s .negInf = -Scalar.abs s := by
    rcases positive_cases hs with rfl | ⟨q, -, rfl⟩ <;> rfl
  rw [hcut, abs_sentinel hs]

theorem clip_sentinel (hs : Scalar.lt Scalar.zero s = true) : clip s s = .posInf := by
  rcases positive_cases hs with rfl | ⟨q, hq, rfl⟩
  · rfl
  · rw [clip_rat hq, if_pos (by grind)]

/-- What an engine keeps of a number shows the same as the number. -/
theorem cut_clip (hs : Scalar.lt Scalar.zero s = true) (q : Rat) : cut s (clip s (.rat q)) = cut s (.rat q) := by
  rcases positive_cases hs with rfl | ⟨s, hpos, rfl⟩
  · rw [clip_infinite]
  · rw [clip_rat hpos, cut_rat hpos]
    by_cases hupper : s ≤ q
    · rw [if_pos hupper, if_pos hupper, cut_posInf hs]
    by_cases hlower : q ≤ -s
    · rw [if_neg hupper, if_pos hlower, if_neg hupper, if_pos hlower, cut_negInf hs]
      rfl
    · rw [if_neg hupper, if_neg hlower, cut_rat hpos]

/-- The same for whatever is no infinity and not no number. -/
theorem cut_clip_finite (hs : Scalar.lt Scalar.zero s = true) {x : Extended} (hnan : Scalar.isNaN x = false)
    (hx : Scalar.isInfinite x = false) : cut s (clip s x) = cut s x := by
  cases x with
  | rat q => exact cut_clip hs q
  | nan => cases hnan
  | _ => cases hx

end Sentinel

/-! ### The limits of a row -/

/-- The limits of a row as a caller sees them. -/
def shownLimits (sentinel : Extended) (r : Engine.Row Extended) : Extended × Extended :=
  (cut sentinel r.limits.1, cut sentinel r.limits.2)

section Rows

variable {m : Model Extended} {s : Extended} {number row : Nat} {d : Entry Extended}

theorem limitsFor_finite {l u : Rat} (hl : d.lower = .rat l) (hu : d.upper = .rat u) :
    limitsFor s d = if l = u then (.equal, .rat u, none) else (.atMost, .rat u, some (.rat (u - l))) := by
  have hsame : Scalar.same (Extended.rat l) (.rat u) = true ↔ l = u := Extended.same_rat
  rw [limitsFor, hl, hu, if_congr hsame rfl rfl, Extended.rat_sub]
  rfl

/-- A row that asks for one number. -/
private theorem shown_equal (hs : Scalar.lt Scalar.zero s = true) {q : Rat} (hl : d.lower = .rat q)
    (hu : d.upper = .rat q) :
    shownLimits s (rowFor m s number row d) = (cut s (.rat q), cut s (.rat q)) := by
  rw [shownLimits, rowFor, limitsFor_finite hl hu, if_pos rfl]
  exact Prod.ext (cut_clip hs q) (cut_clip hs q)

/-- A row with two different limits, and how it comes out: the lower limit is the difference of two numbers that went
through the sentinel. -/
private theorem shown_ranged {s l u : Rat} (hs : 0 < s) (hl : d.lower = .rat l) (hu : d.upper = .rat u) (hlu : l < u) :
    shownLimits (.rat s) (rowFor m (.rat s) number row d) =
      (if s ≤ u - l then .rat (-s) else cut (.rat s) (clip (.rat s) (.rat u) - .rat (u - l)),
        cut (.rat s) (.rat u)) := by
  have hpos : Scalar.lt Scalar.zero (Extended.rat s) = true := decide_eq_true hs
  have hclip : clip (.rat s) (.rat (u - l)) = if s ≤ u - l then .posInf else Extended.rat (u - l) := by
    rw [clip_rat hs, if_neg (show ¬u - l ≤ -s by grind)]
  have habs : Scalar.abs (Extended.rat (u - l)) = .rat (u - l) := abs_sentinel (decide_eq_true (by grind))
  rw [shownLimits, rowFor, limitsFor_finite hl hu, if_neg (Rat.ne_of_lt hlu)]
  refine Prod.ext ?_ (cut_clip hpos u)
  simp only [Engine.Row.limits, Engine.Row.width?, Option.map_some, hclip]
  by_cases hw : s ≤ u - l
  · rw [if_pos hw, if_pos hw]
    exact cut_negInf hpos
  · rw [if_neg hw, if_neg hw, habs]
    rfl

theorem dropsLower_iff {s l u : Rat} (hl : d.lower = .rat l) (hu : d.upper = .rat u) :
    dropsLower (.rat s) d = true ↔ s ≤ u - l ∧ -s < l := by
  simp only [dropsLower, hl, hu, Bool.and_eq_true]
  exact and_congr Extended.le_rat decide_eq_true_iff

theorem raisesLower_iff {s l u : Rat} (hl : d.lower = .rat l) (hu : d.upper = .rat u) :
    raisesLower (.rat s) d = true ↔ (u - l < s ∧ s ≤ u) ∧ l < s := by
  simp only [raisesLower, hl, hu, Bool.and_eq_true]
  exact and_congr (and_congr decide_eq_true_iff Extended.le_rat) decide_eq_true_iff

private theorem loadedLower_finite {s l u : Rat} (hl : d.lower = .rat l) (hu : d.upper = .rat u) :
    loadedLower (.rat s) d =
      if s ≤ u - l ∧ -s < l then .rat (-s)
      else if (u - l < s ∧ s ≤ u) ∧ l < s then .rat s
      else cut (.rat s) (.rat l) := by
  rw [loadedLower, if_congr (dropsLower_iff hl hu) rfl (if_congr (raisesLower_iff hl hu) rfl rfl), hl]
  rfl

/-- The lower limit of a row with two different limits. -/
private theorem ranged_lower {s l u : Rat} (hs : 0 < s) (hl : d.lower = .rat l) (hu : d.upper = .rat u) (hlu : l < u) :
    (if s ≤ u - l then .rat (-s) else cut (.rat s) (clip (.rat s) (.rat u) - .rat (u - l))) =
      loadedLower (.rat s) d := by
  have hpos : Scalar.lt Scalar.zero (Extended.rat s) = true := decide_eq_true hs
  rw [loadedLower_finite hl hu, cut_rat hs l]
  by_cases hw : s ≤ u - l
  · -- Without a range the row is open below.
    rw [if_pos hw]
    by_cases hlow : -s < l
    · rw [if_pos ⟨hw, hlow⟩]
    · rw [if_neg (fun h => hlow h.2), if_neg (by grind), if_neg (by grind), if_pos (by grind)]
  rw [if_neg hw, if_neg (fun h => hw h.1), clip_rat hs]
  by_cases hupper : s ≤ u
  · -- Infinity less the width is infinity.
    rw [if_pos hupper]
    have hshown : cut (.rat s) (.posInf - .rat (u - l)) = .rat s := cut_posInf hpos
    rw [hshown]
    by_cases hlow : l < s
    · rw [if_pos ⟨⟨by grind, hupper⟩, hlow⟩]
    · rw [if_neg (fun h => hlow h.2), if_pos (by grind)]
  rw [if_neg hupper, if_neg (fun h : (u - l < s ∧ s ≤ u) ∧ l < s => hupper h.1.2)]
  by_cases hlower : u ≤ -s
  · have hshown : cut (.rat s) (.negInf - .rat (u - l)) = .rat (-s) := cut_negInf hpos
    rw [if_pos hlower, hshown, if_neg (by grind), if_pos (by grind)]
  · rw [if_neg hlower, Extended.rat_sub, show u - (u - l) = l by grind, cut_rat hs]

/-- The lower limit of a row that is open on one side is not lost. -/
private theorem loadedLower_open (h : Scalar.isInfinite d.lower = true ∨ Scalar.isInfinite d.upper = true) :
    loadedLower s d = lowerLimit s d.lower := by
  have hfinite : ∀ l u : Rat, d.lower = .rat l → d.upper ≠ .rat u := by
    intro l u hl hu
    rw [hl, hu] at h
    rcases h with h | h <;> cases h
  have hdrops : dropsLower s d = false := by
    unfold dropsLower
    split
    · next l u hl hu => exact absurd hu (hfinite l u hl)
    · rfl
  have hraises : raisesLower s d = false := by
    unfold raisesLower
    split
    · next l u hl hu => exact absurd hu (hfinite l u hl)
    · rfl
  rw [loadedLower, hdrops, hraises]
  rfl

private theorem shown_open (hs : Scalar.lt Scalar.zero s = true) (hd : d.InOrder)
    (h : Scalar.isInfinite d.lower = true ∨ Scalar.isInfinite d.upper = true) :
    shownLimits s (rowFor m s number row d) = (lowerLimit s d.lower, upperLimit s d.upper) := by
  rw [shownLimits, rowFor, limitsFor, lowerLimit, upperLimit]
  cases hlower : Scalar.isInfinite d.lower with
  | false =>
    rw [hlower] at h
    have hupper : Scalar.isInfinite d.upper = true := h.resolve_left Bool.false_ne_true
    rw [hupper]
    exact Prod.ext (cut_clip_finite hs hd.lower hlower) (cut_posInf hs)
  | true =>
    cases hupper : Scalar.isInfinite d.upper with
    | false => exact Prod.ext (cut_negInf hs) (cut_clip_finite hs hd.upper hupper)
    | true =>
      refine Prod.ext (cut_negInf hs) ?_
      exact (congrArg (cut s) (clip_sentinel hs)).trans (cut_posInf hs)

private theorem shown_finite (hs : Scalar.lt Scalar.zero s = true) (hd : d.InOrder) {l u : Rat}
    (hl : d.lower = .rat l) (hu : d.upper = .rat u) :
    shownLimits s (rowFor m s number row d) = (loadedLower s d, cut s (.rat u)) := by
  have hlu : l ≤ u := by
    have horder := hd.order
    rw [hl, hu] at horder
    exact Extended.le_rat.1 horder
  rcases positive_cases hs with rfl | ⟨s, hpos, rfl⟩
  · have hlower : loadedLower .posInf d = .rat l := by
      simp only [loadedLower, dropsLower, raisesLower, hl, hu]
      exact cut_infinite _
    rw [hlower, cut_infinite, shownLimits, rowFor, limitsFor_finite hl hu, cut_infinite, cut_infinite, clip_infinite]
    by_cases hne : l = u
    · subst hne
      rw [if_pos rfl]
      rfl
    · have habs : Scalar.abs (Extended.rat (u - l)) = .rat (u - l) := abs_sentinel (decide_eq_true (by grind))
      rw [if_neg hne]
      simp only [Engine.Row.limits, Engine.Row.width?, Option.map_some, clip_infinite, habs]
      refine Prod.ext ?_ rfl
      show Extended.rat u - .rat (u - l) = .rat l
      rw [Extended.rat_sub, show u - (u - l) = l by grind]
  · by_cases hne : l = u
    · subst hne
      rw [shown_equal hs hl hu, loadedLower_finite hl hu, if_neg (by grind), if_neg (by grind)]
    · have hlt : l < u := Rat.lt_of_le_of_ne hlu hne
      rw [shown_ranged hpos hl hu hlt, ranged_lower hpos hl hu hlt]

/-- The limits of a row of a model as a caller sees them. -/
theorem shown_loaded (hs : Scalar.lt Scalar.zero s = true) (hd : d.InOrder) :
    shownLimits s (rowFor m s number row d) = (loadedLower s d, upperLimit s d.upper) := by
  by_cases hopen : Scalar.isInfinite d.lower = true ∨ Scalar.isInfinite d.upper = true
  · rw [shown_open hs hd hopen, loadedLower_open hopen]
  · have hrat {x : Extended} (hnan : Scalar.isNaN x = false) (hx : ¬Scalar.isInfinite x = true) : ∃ q, x = .rat q := by
      cases x with
      | rat q => exact ⟨q, rfl⟩
      | nan => cases hnan
      | _ => exact absurd rfl hx
    obtain ⟨l, hl⟩ := hrat hd.lower fun h => hopen (.inl h)
    obtain ⟨u, hu⟩ := hrat hd.upper fun h => hopen (.inr h)
    rw [shown_finite hs hd hl hu, hu]
    rfl

/-- The lower limit comes out as it should unless it is dropped or raised. -/
theorem loadedLower_eq (hs : Scalar.lt Scalar.zero s = true) :
    loadedLower s d = lowerLimit s d.lower ↔ dropsLower s d = false ∧ raisesLower s d = false := by
  constructor
  · intro heq
    by_cases hlost : dropsLower s d = false ∧ raisesLower s d = false
    · exact hlost
    exfalso
    rcases positive_cases hs with rfl | ⟨s, hpos, rfl⟩
    · apply hlost
      unfold dropsLower raisesLower
      split <;> exact ⟨rfl, rfl⟩
    obtain ⟨l, u, hl, hu⟩ : ∃ l u : Rat, d.lower = .rat l ∧ d.upper = .rat u := by
      unfold dropsLower raisesLower at hlost
      split at hlost
      · next l u hl hu => exact ⟨l, u, hl, hu⟩
      · exact absurd ⟨rfl, rfl⟩ hlost
    have hshown : loadedLower (.rat s) d = cut (.rat s) (.rat l) := by
      rw [heq, hl]
      rfl
    rw [loadedLower_finite hl hu] at hshown
    rw [Bool.eq_false_iff, Bool.eq_false_iff, ne_eq, ne_eq, dropsLower_iff hl hu, raisesLower_iff hl hu] at hlost
    by_cases hdrops : s ≤ u - l ∧ -s < l
    · rw [if_pos hdrops] at hshown
      exact cut_ne_neg hpos hdrops.2 hshown.symm
    · have hraises : (u - l < s ∧ s ≤ u) ∧ l < s := Classical.not_not.1 fun h => hlost ⟨hdrops, h⟩
      rw [if_neg hdrops, if_pos hraises] at hshown
      exact cut_ne_pos hpos hraises.2 hshown.symm
  · rintro ⟨hdrops, hraises⟩
    rw [loadedLower, hdrops, hraises]
    rfl

/-- The lower limit of a row is raised only when the row is narrower than the sentinel. -/
theorem dropsLower_of_raises (hs : Scalar.lt Scalar.zero s = true) (h : raisesLower s d = true) :
    dropsLower s d = false := by
  rcases positive_cases hs with rfl | ⟨s, -, rfl⟩
  · unfold dropsLower
    split <;> rfl
  obtain ⟨l, u, hl, hu⟩ : ∃ l u : Rat, d.lower = .rat l ∧ d.upper = .rat u := by
    unfold raisesLower at h
    split at h
    · next l u hl hu => exact ⟨l, u, hl, hu⟩
    · cases h
  rw [Bool.eq_false_iff, ne_eq, dropsLower_iff hl hu]
  exact fun hdrops => Rat.not_le.2 ((raisesLower_iff hl hu).1 h).1.1 hdrops.1

end Rows

/-! ### Encoded rows -/

/-- The row of an engine that holds a model shows the limits of the row of the model, as far as they are not lost. -/
theorem rowBounds_described {m : Model Extended} {s : Extended} (hs : Scalar.lt Scalar.zero s = true)
    (search : Search.Model Extended) {i row : Nat} (hi : (ordinaryRows m)[i]? = some row) {d : Entry Extended}
    (hd : m.entries[row]? = some d) (horder : d.InOrder) :
    (described m s search).rowBounds ((i + 1 : Nat) : Int) = .ok (loadedLower s d, upperLimit s d.upper) := by
  have hrow : (described m s search).row ((i + 1 : Nat) : Int) = .ok (rowFor m s (i + 1) row d) := by
    rw [Engine.row_succ (show (described m s search).rows[i]? = some (rowAt m s i row) by simp [described, hi]),
      rowAt, hd]
    rfl
  have hshown : shownLimits s (rowFor m s (i + 1) row d) = (loadedLower s d, upperLimit s d.upper) :=
    shown_loaded hs horder
  rw [Engine.rowBounds, hrow, ← hshown]
  rfl

/-- A model that calls lead to and that has a variable is encoded, for every positive sentinel, and each ordinary row
has a number under which its upper limit is found as it should be.  So is its lower limit, unless the row is as wide
as the sentinel, or reaches the sentinel above and not below: then the negative or the positive sentinel stands in the
place of a lower limit that does not reach it. -/
theorem rowBounds_loaded {m : Model Extended} (hm : m.Reachable) (hvar : m.variableVids ≠ [])
    {infinite : Value Extended} {s : Extended} (hsentinel : sentinelOf infinite = .ok s)
    (hs : Scalar.lt Scalar.zero s = true) (h : Host Extended) :
    ∃ t h', ofModel m .standard infinite h = .ok t h' ∧
      ∀ row d, row ∈ ordinaryRows m → m.entries[row]? = some d →
        ∃ n lower, t.naming.row? row = some n ∧ t.engine.rowBounds n = .ok (lower, upperLimit s d.upper) ∧
          (dropsLower s d = true → lower = -s) ∧ (raisesLower s d = true → lower = s) ∧
          (lower = lowerLimit s d.lower ↔ dropsLower s d = false ∧ raisesLower s d = false) := by
  obtain ⟨journal, hrun⟩ := ofModel_run hm.proper hvar hsentinel h
  refine ⟨_, _, hrun, ?_⟩
  intro row d hrow hd
  obtain ⟨i, hi⟩ := List.mem_iff_getElem?.1 hrow
  have horder := hm.inOrder d (List.mem_of_getElem? hd)
  refine ⟨i + 1, loadedLower s d, number_natCast ((Model.nodup_vidsWhere m _).filter _) hi,
    rowBounds_described hs _ hi hd horder, ?_, ?_, loadedLower_eq hs⟩
  · intro hdrops
    rw [loadedLower, if_pos hdrops]
  · intro hraises
    rw [loadedLower, dropsLower_of_raises hs hraises, if_neg Bool.false_ne_true, if_pos hraises]

/-- A row between `-60` and `60`, one between `50` and `120`, and one between `0` and `10`. -/
def threeRanges : List (Model.Call Extended) := [
  .addVariable (.text "x"), .addRow (.text "wide") (.ofMember SosType.none), .setCoefficient 1 0 (.integer 1),
  .setBounds 1 (.integer (-60)) (.integer 60), .addRow (.text "high") (.ofMember SosType.none),
  .setCoefficient 2 0 (.integer 1), .setBounds 2 (.integer 50) (.integer 120),
  .addRow (.text "plain") (.ofMember SosType.none), .setCoefficient 3 0 (.integer 1),
  .setBounds 3 (.integer 0) (.integer 10)]

theorem rowBounds_loaded_threeRanges :
    (Model.performed threeRanges).Reachable ∧ (Model.performed threeRanges).variableVids ≠ [] ∧
      sentinelOf (.integer 100 : Value Extended) = .ok (.rat 100) ∧
      Scalar.lt Scalar.zero (Extended.rat 100) = true ∧
      ∃ t h', ofModel (Model.performed threeRanges) .standard (.integer 100) (.start (.script []) Exact.ranging) =
          .ok t h' ∧
        ∀ row d, row ∈ ordinaryRows (Model.performed threeRanges) →
          (Model.performed threeRanges).entries[row]? = some d →
            ∃ n lower, t.naming.row? row = some n ∧
              t.engine.rowBounds n = .ok (lower, upperLimit (.rat 100) d.upper) ∧
              (dropsLower (.rat 100) d = true → lower = -.rat 100) ∧
              (raisesLower (.rat 100) d = true → lower = .rat 100) ∧
              (lower = lowerLimit (.rat 100) d.lower ↔
                dropsLower (.rat 100) d = false ∧ raisesLower (.rat 100) d = false) :=
  ⟨Model.reachable_performed threeRanges, by decide, rfl, rfl,
    rowBounds_loaded (Model.reachable_performed threeRanges) (by decide) rfl rfl _⟩

/-- It is not so that every row keeps its lower limit: of the row between `-60` and `60` nothing is left below when
the sentinel is `100`. -/
theorem lowerLimit_lost :
    ¬∀ (calls : List (Model.Call Extended)) (infinite : Value Extended) (s : Extended) (h h' : Host Extended)
      (t : Encoding Extended), sentinelOf infinite = .ok s → Scalar.lt Scalar.zero s = true →
        ofModel (Model.performed calls) .standard infinite h = .ok t h' →
          ∀ row ∈ ordinaryRows (Model.performed calls), ∀ d, (Model.performed calls).entries[row]? = some d →
            ∀ n : Nat, t.naming.row? row = some n →
              t.engine.rowBounds n = .ok (lowerLimit s d.lower, upperLimit s d.upper) := by
  intro hall
  have hreachable := Model.reachable_performed threeRanges
  have hsentinel : sentinelOf (.integer 100 : Value Extended) = .ok (.rat 100) := rfl
  have hpositive : Scalar.lt Scalar.zero (Extended.rat 100) = true := rfl
  obtain ⟨d, hd, hlower, hupper⟩ : ∃ d, (Model.performed threeRanges).entries[1]? = some d ∧
    d.lower = .rat (-60) ∧ d.upper = .rat 60 := ⟨_, rfl, rfl, rfl⟩
  have hfirst : (ordinaryRows (Model.performed threeRanges))[0]? = some 1 := by decide
  obtain ⟨journal, hrun⟩ := ofModel_run hreachable.proper (by decide) hsentinel (.start (.script []) Exact.ranging)
  have hclaimed := hall threeRanges _ _ _ _ _ hsentinel hpositive hrun 1 (List.mem_of_getElem? hfirst) d hd 1
    (number_natCast ((Model.nodup_vidsWhere _ _).filter _) hfirst)
  have hfound := rowBounds_described hpositive (searchFor (.start (.script []) Exact.ranging)) hfirst hd
    (hreachable.inOrder d (List.mem_of_getElem? hd))
  have hsame := (Prod.mk.inj (Except.ok.inj (hclaimed.symm.trans hfound))).1
  have hdrops : dropsLower (.rat 100) d = true := (dropsLower_iff hlower hupper).2 (by grind)
  rw [((loadedLower_eq hpositive).1 hsame.symm).1] at hdrops
  cases hdrops

end Optima.Encoding
