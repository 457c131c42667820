import Optima.Proofs.Report.Binding

/-!
# Which numbers of a report are normal

A number of a report is normal if it is an infinity or smaller than the sentinel, so that the sentinel itself is never
seen.  The current values of a report are normal, since they go through `normalize` and are numbers
(`bindingSide_number`, `bindingBound_number`).  The limits are compared with one end of the scale only, a lower limit
with the negative sentinel and an upper limit with the sentinel.  So a finite lower limit at the other end comes out as
it is, and so does such an upper limit; these are the only numbers that are not normal (`openBelow_eq`, `openAbove_eq`,
`ranges_normal`).

The two ends are mirror images, and what is said of upper limits is derived from the lower ones by negation.
-/

namespace Optima

namespace Extended

theorem neg_neg (x : Extended) : -(-x) = x := by
  cases x with
  | rat q => exact congrArg rat (Rat.neg_neg q)
  | _ => rfl

theorem neg_le_neg (x y : Extended) : (-x).le (-y) = y.le x := by
  cases x with
  | rat a =>
    cases y with
    | rat b =>
      have hneg : (rat (-a)).le (rat (-b)) = true ↔ (rat b).le (rat a) = true := by
        rw [le_rat, le_rat]
        grind
      exact Bool.eq_iff_iff.2 hneg
    | _ => rfl
  | _ => cases y <;> rfl

theorem neg_inj {x y : Extended} : -x = -y ↔ x = y :=
  ⟨fun h => by rw [← neg_neg x, h, neg_neg], congrArg _⟩

theorem abs_neg (x : Extended) : Scalar.abs (-x) = Scalar.abs x := by
  cases x with
  | rat q =>
    refine (Encoding.abs_rat (-q)).trans (Eq.trans (congrArg rat ?_) (Encoding.abs_rat q).symm)
    grind
  | _ => rfl

theorem rat_ne_nan (q : Rat) : rat q ≠ .nan := nofun

theorem ne_nan_of_isNaN {x : Extended} (h : Scalar.isNaN x = false) : x ≠ .nan := by
  rintro rfl
  cases h

theorem lt_of_le_eq_false {x y : Extended} (hx : x ≠ .nan) (hy : y ≠ .nan) (h : x.le y = false) : y.lt x = true := by
  by_contra hlt
  rw [le_of_not_lt hx hy (Bool.eq_false_iff.2 hlt)] at h
  cases h

theorem abs_ne_nan {x : Extended} (hx : x ≠ .nan) : Scalar.abs x ≠ .nan := by
  cases x with
  | nan => exact absurd rfl hx
  | rat q =>
    rw [Encoding.abs_rat]
    exact rat_ne_nan _
  | _ => decide

end Extended

/-- All limits in the arrays are numbers. -/
structure Engine.Sensitivity.Known (a : Engine.Sensitivity Extended) : Prop where
  lowers : ∀ x ∈ a.lowers, x ≠ .nan
  uppers : ∀ x ∈ a.uppers, x ≠ .nan
  costLowers : ∀ x ∈ a.costLowers, x ≠ .nan
  costUppers : ∀ x ∈ a.costUppers, x ≠ .nan

instance (a : Engine.Sensitivity Extended) : Decidable a.Known :=
  decidable_of_iff ((∀ x ∈ a.lowers, x ≠ .nan) ∧ (∀ x ∈ a.uppers, x ≠ .nan) ∧ (∀ x ∈ a.costLowers, x ≠ .nan) ∧
      ∀ x ∈ a.costUppers, x ≠ .nan)
    ⟨fun ⟨h, k, l, m⟩ => ⟨h, k, l, m⟩, fun ⟨h, k, l, m⟩ => ⟨h, k, l, m⟩⟩

open Encoding

namespace SensitivityReport

/-! ### Normal numbers -/

/-- A number as a caller should see it. -/
def Normal (sentinel x : Extended) : Prop :=
  x = .negInf ∨ x = .posInf ∨ Scalar.lt (Scalar.abs x) sentinel = true

instance (sentinel x : Extended) : Decidable (Normal sentinel x) :=
  inferInstanceAs (Decidable (_ ∨ _ ∨ _))

/-- A finite number of the sentinel or more; as a lower limit it is not taken for an infinity. -/
def leaksBelow (sentinel x : Extended) : Bool :=
  Scalar.le sentinel x && Scalar.isFinite x

/-- A finite number of the negative sentinel or less; as an upper limit it is not taken for an infinity. -/
def leaksAbove (sentinel x : Extended) : Bool :=
  leaksBelow sentinel (-x)

/-- A lower limit as a report gives it. -/
def shownLower (sentinel x : Extended) : Extended :=
  if leaksBelow sentinel x then x else clip sentinel x

/-- An upper limit as a report gives it. -/
def shownUpper (sentinel x : Extended) : Extended :=
  if leaksAbove sentinel x then x else clip sentinel x

section Numbers

variable {sentinel x : Extended} (hs : Scalar.lt Scalar.zero sentinel = true)
include hs

omit hs in
theorem normal_neg : Normal sentinel (-x) ↔ Normal sentinel x := by
  have hbelow : -x = .negInf ↔ x = .posInf := by
    rw [← Extended.neg_neg .negInf, Extended.neg_inj]
    rfl
  have habove : -x = .posInf ↔ x = .negInf := by
    rw [← Extended.neg_neg .posInf, Extended.neg_inj]
    rfl
  rw [Normal, Normal, hbelow, habove, Extended.abs_neg]
  exact or_left_comm

theorem sentinel_ne_nan : sentinel ≠ .nan := by
  rintro rfl
  cases hs

theorem clip_neg (hx : x ≠ .nan) : clip sentinel (-x) = -clip sentinel x := by
  rcases positive_cases hs with rfl | ⟨s, hpos, rfl⟩
  · rw [clip_infinite, clip_infinite]
  cases x with
  | nan => exact absurd rfl hx
  | rat q =>
    show clip (Extended.rat s) (Extended.rat (-q)) = _
    rw [clip_rat hpos, clip_rat hpos]
    by_cases hupper : s ≤ q
    · rw [if_neg (by grind), if_pos (by grind), if_pos hupper]
      rfl
    by_cases hlower : q ≤ -s
    · rw [if_pos (by grind), if_neg hupper, if_pos hlower]
      rfl
    · rw [if_neg (by grind), if_neg (by grind), if_neg hupper, if_neg hlower]
      rfl
  | _ => rfl

/-- What has gone through the sentinel is normal. -/
theorem normal_clip (hx : x ≠ .nan) : Normal sentinel (clip sentinel x) := by
  unfold clip
  split
  · rw [Scalar.copySign]
    split
    · exact .inl rfl
    · exact .inr (.inl rfl)
  · next hle =>
    exact .inr (.inr (Extended.lt_of_le_eq_false (sentinel_ne_nan hs) (Extended.abs_ne_nan hx)
      (Bool.eq_false_iff.2 hle)))

theorem openBelow_eq {s : SensitivityReport Extended} (hsame : s.naming.sentinel = sentinel) (hx : x ≠ .nan) :
    s.openBelow x = shownLower sentinel x := by
  rw [openBelow, hsame, shownLower]
  rcases positive_cases hs with rfl | ⟨s, hpos, rfl⟩
  · rw [clip_infinite, ite_self]
    cases x <;> rfl
  cases x with
  | nan => exact absurd rfl hx
  | rat q =>
    have hlow : Scalar.le (Extended.rat q) (-Extended.rat s) = true ↔ q ≤ -s := Extended.le_rat
    have hleak : leaksBelow (.rat s) (.rat q) = true ↔ s ≤ q := by
      rw [leaksBelow, Bool.and_eq_true]
      exact (and_iff_left rfl).trans Extended.le_rat
    rw [clip_rat hpos]
    by_cases hlower : q ≤ -s
    · rw [if_pos (hlow.2 hlower), if_neg (mt hleak.1 (by grind)), if_neg (by grind), if_pos hlower]
      rfl
    · rw [if_neg (mt hlow.1 hlower)]
      by_cases hupper : s ≤ q
      · rw [if_pos (hleak.2 hupper)]
      · rw [if_neg (mt hleak.1 hupper), if_neg hupper, if_neg hlower]
  | _ => rfl

/-- The upper end is the mirror image of the lower one. -/
theorem shownUpper_eq (hx : x ≠ .nan) : shownUpper sentinel x = -shownLower sentinel (-x) := by
  rw [shownLower, shownUpper, leaksAbove, clip_neg hs hx, apply_ite Neg.neg, Extended.neg_neg, Extended.neg_neg]

theorem openAbove_eq {s : SensitivityReport Extended} (hsame : s.naming.sentinel = sentinel) (hx : x ≠ .nan) :
    s.openAbove x = shownUpper sentinel x := by
  have hnegated : -x ≠ .nan := fun h => hx (Extended.neg_inj.1 h)
  have hmirror : s.openAbove x = -s.openBelow (-x) := by
    have htest : Scalar.le (-x) (-s.naming.sentinel) = Scalar.le s.naming.sentinel x := Extended.neg_le_neg ..
    rw [openAbove, openBelow, htest, apply_ite Neg.neg, Extended.neg_neg, Extended.neg_neg]
  rw [hmirror, openBelow_eq hs hsame hnegated, shownUpper_eq hs hx]

theorem normal_shownLower (hx : x ≠ .nan) : Normal sentinel (shownLower sentinel x) ↔ leaksBelow sentinel x = false := by
  rw [shownLower]
  cases hleak : leaksBelow sentinel x with
  | false => exact iff_of_true (normal_clip hs hx) rfl
  | true =>
    rw [if_pos rfl]
    refine iff_of_false (fun hnormal => ?_) (by decide)
    obtain ⟨hle, hfinite⟩ := Bool.and_eq_true_iff.1 hleak
    obtain ⟨q, rfl⟩ := Extended.isFinite_iff.1 hfinite
    rcases hnormal with h | h | hlt
    · cases h
    · cases h
    · rcases positive_cases hs with rfl | ⟨s, hpos, rfl⟩
      · cases hle
      · have hsq : s ≤ q := Extended.le_rat.1 hle
        rw [abs_rat, if_neg (by grind)] at hlt
        exact Rat.not_lt.2 hsq (of_decide_eq_true hlt)

theorem normal_shownUpper (hx : x ≠ .nan) : Normal sentinel (shownUpper sentinel x) ↔ leaksAbove sentinel x = false := by
  have hnegated : -x ≠ .nan := fun h => hx (Extended.neg_inj.1 h)
  rw [shownUpper_eq hs hx, normal_neg]
  exact normal_shownLower hs hnegated

end Numbers

/-! ### Numbers that are read from an engine -/

section Read

variable {s : SensitivityReport Extended} (hs : Scalar.lt Scalar.zero s.engine.sentinel = true)
include hs

omit hs in
theorem copySign_ne_nan {x y : Extended} (hx : x ≠ .nan) : Scalar.copySign x y ≠ .nan := by
  rw [Scalar.copySign]
  split
  · exact fun h => Extended.abs_ne_nan hx (Extended.neg_inj.1 h)
  · exact Extended.abs_ne_nan hx

omit hs in
theorem clip_ne_nan (sentinel : Extended) {x : Extended} (hx : x ≠ .nan) : clip sentinel x ≠ .nan := by
  unfold clip
  split
  · exact copySign_ne_nan (by decide)
  · exact hx

theorem outer_ne_nan {x : Extended} (hx : x ≠ .nan) : s.engine.outer x ≠ .nan := by
  unfold Engine.outer
  split
  · exact copySign_ne_nan (sentinel_ne_nan hs)
  · exact hx

/-- A width that is below the sentinel is finite. -/
theorem finite_of_outer_abs {x : Extended} (hx : x ≠ .nan)
    (hlt : Scalar.lt (s.engine.outer (Scalar.abs x)) s.engine.sentinel = true) :
    ∃ q, s.engine.outer (Scalar.abs x) = .rat q := by
  have hrat (q : Rat) : ∃ p, cut s.engine.sentinel (.rat q) = .rat p := by
    rcases positive_cases hs with hsame | ⟨size, hpos, hsame⟩ <;> rw [hsame]
    · exact ⟨q, cut_infinite _⟩
    · rw [cut_rat hpos]
      split_ifs <;> exact ⟨_, rfl⟩
  have hinfinite : ¬Scalar.lt (cut s.engine.sentinel .posInf) s.engine.sentinel = true := by
    rw [cut_posInf hs]
    exact Bool.eq_false_iff.1 (Extended.lt_irrefl _)
  cases x with
  | nan => exact absurd rfl hx
  | rat q =>
    rw [abs_rat]
    exact hrat _
  | _ => exact absurd hlt hinfinite

theorem finite_of_isInfinite (hsame : s.engine.sentinel = s.naming.sentinel) {x : Extended} (hx : x ≠ .nan)
    (h : s.isInfinite x = false) : ∃ q, x = .rat q := by
  have hinfinite : Scalar.le s.naming.sentinel .posInf = true := by
    rw [← hsame]
    rcases positive_cases hs with hsame | ⟨q, -, hsame⟩ <;> rw [hsame] <;> rfl
  cases x with
  | nan => exact absurd rfl hx
  | rat q => exact ⟨q, rfl⟩
  | _ => cases hinfinite.symm.trans h

theorem boundSum_ne_nan (hsame : s.engine.sentinel = s.naming.sentinel) {lower upper : Extended}
    (hlower : lower ≠ .nan) (hupper : upper ≠ .nan) : s.boundSum lower upper ≠ .nan := by
  unfold boundSum
  split
  · decide
  · exact hupper
  · exact hlower
  · next hl hu =>
    obtain ⟨l, rfl⟩ := finite_of_isInfinite hs hsame hlower hl
    obtain ⟨u, rfl⟩ := finite_of_isInfinite hs hsame hupper hu
    exact Extended.rat_ne_nan _

/-- The binding bound of a column with numbers as bounds is a number. -/
theorem bindingBound_number (hsame : s.engine.sentinel = s.naming.sentinel) {j : Nat} {c : Column Extended}
    (hcolumn : s.engine.column ((j + 1 : Nat) : Int) = .ok c) (hlower : c.lower ≠ .nan) (hupper : c.upper ≠ .nan)
    (dual : Extended) : ∃ x, s.bindingBound (j + 1) (.ok dual) = .ok x ∧ x ≠ .nan := by
  have hread : s.bindingBound (j + 1) (.ok dual) = .ok (if s.bindsBelow dual then s.engine.outer c.lower
      else s.boundSum (s.engine.outer c.lower) (s.engine.outer c.upper)) := by
    rw [bindingBound, Engine.lowerBound, Engine.upperBound, hcolumn]
    rfl
  refine ⟨_, hread, ?_⟩
  split
  · exact outer_ne_nan hs hlower
  · exact boundSum_ne_nan hs hsame (outer_ne_nan hs hlower) (outer_ne_nan hs hupper)

/-- The binding side of a row is a number if its right-hand side is one and its range is the size of one. -/
theorem bindingSide_number (hsame : s.engine.sentinel = s.naming.sentinel) {i : Nat} {r : Engine.Row Extended}
    (hrow : s.engine.row ((i + 1 : Nat) : Int) = .ok r) (hrhs : r.rhs ≠ .nan)
    (hrange : ∀ w, r.range = some w → ∃ x, x ≠ .nan ∧ w = Scalar.abs x) (dual : Extended) :
    ∃ x, s.bindingSide (i + 1) (.ok dual) = .ok x ∧ x ≠ .nan := by
  obtain ⟨width, hwidth, hfinite⟩ : ∃ width, s.engine.rhsRange ((i + 1 : Nat) : Int) = .ok width ∧
      (Scalar.lt width s.naming.sentinel = true → ∃ q, width = .rat q) := by
    rw [Engine.rhsRange, hrow, ← hsame]
    refine ⟨_, rfl, ?_⟩
    dsimp only
    split
    · exact fun _ => ⟨0, rfl⟩
    · intro hlt
      rw [show Scalar.lt s.engine.sentinel s.engine.sentinel = false from Extended.lt_irrefl _] at hlt
      cases hlt
    · next hw _ =>
      obtain ⟨x, hx, hwidth⟩ := hrange _ hw
      rw [hwidth]
      exact finite_of_outer_abs hs hx
  have hmoved {x : Extended} (hx : x ≠ .nan) (q : Rat) : x - .rat q ≠ .nan ∧ x + .rat q ≠ .nan := by
    cases x with
    | nan => exact absurd rfl hx
    | rat p => exact ⟨Extended.rat_ne_nan _, Extended.rat_ne_nan _⟩
    | _ => exact ⟨hx, hx⟩
  have hside := outer_ne_nan hs hrhs
  refine ⟨_, bindingSide_eq hrow hwidth dual, ?_⟩
  cases hranged : Scalar.lt width s.naming.sentinel with
  | false => simpa using hside
  | true =>
    obtain ⟨q, rfl⟩ := hfinite hranged
    simp only
    split_ifs
    · exact (hmoved hside q).1
    · exact hside
    · exact (hmoved hside q).2
    · exact hside

end Read

/-! ### Numbers of an encoded model -/

theorem limitsFor_number {sentinel : Extended} (hs : sentinel ≠ .nan) {d : Entry Extended} (hd : d.InOrder) :
    (limitsFor sentinel d).2.1 ≠ .nan ∧ ∀ w, (limitsFor sentinel d).2.2 = some w → w ≠ .nan := by
  have hlower := Extended.ne_nan_of_isNaN hd.lower
  have hupper := Extended.ne_nan_of_isNaN hd.upper
  have hnone {w : Extended} (hw : none = some w) : w ≠ .nan := by cases hw
  unfold limitsFor
  split
  · next hl hu =>
    split
    · exact ⟨hupper, fun _ => hnone⟩
    · obtain ⟨l, hl⟩ := Extended.isFinite_iff.1 (Extended.isFinite_of_closed hd.lower hl)
      obtain ⟨u, hu⟩ := Extended.isFinite_iff.1 (Extended.isFinite_of_closed hd.upper hu)
      refine ⟨hupper, fun w hw => ?_⟩
      rw [← Option.some.inj hw, hl, hu]
      exact Extended.rat_ne_nan _
  · exact ⟨hlower, fun _ => hnone⟩
  · exact ⟨hupper, fun _ => hnone⟩
  · exact ⟨hs, fun _ => hnone⟩

theorem columnFor_number (sentinel : Extended) (number : Nat) {v : Entry Extended} (hv : v.InOrder) :
    (columnFor sentinel number v).lower ≠ .nan ∧ (columnFor sentinel number v).upper ≠ .nan := by
  have hlower := clip_ne_nan sentinel (Extended.ne_nan_of_isNaN hv.lower)
  have hupper := clip_ne_nan sentinel (Extended.ne_nan_of_isNaN hv.upper)
  unfold columnFor
  constructor
  · simp only
    split
    · decide
    · exact hlower
  · simp only
    split
    · decide
    · exact hupper

section Encoded

variable {m : Model Extended} {s : SensitivityReport Extended} (hm : m.Reachable) (hheld : Held m s.engine)
  (hsame : s.engine.sentinel = s.naming.sentinel) (hs : Scalar.lt Scalar.zero s.engine.sentinel = true)
include hm hheld hsame hs

theorem bindingSide_held {i row : Nat} (hrow : (ordinaryRows m)[i]? = some row) (dual : Extended) :
    ∃ x, s.bindingSide (i + 1) (.ok dual) = .ok x ∧ x ≠ .nan := by
  obtain ⟨d, hd, -⟩ := Model.mem_rowVids.1 (List.mem_of_mem_filter (List.mem_of_getElem? hrow))
  obtain ⟨hrhs, hrange⟩ := limitsFor_number (sentinel_ne_nan hs) (hm.inOrder d (List.mem_of_getElem? hd))
  have hnative := hheld.row hrow
  rw [rowAt, hd] at hnative
  refine bindingSide_number hs hsame hnative (clip_ne_nan _ hrhs) (fun w hw => ?_) dual
  obtain ⟨x, hx, rfl⟩ := Option.map_eq_some_iff.1 hw
  exact ⟨_, clip_ne_nan _ (hrange x hx), rfl⟩

theorem bindingBound_held {j var : Nat} (hvar : m.variableVids[j]? = some var) (dual : Extended) :
    ∃ x, s.bindingBound (j + 1) (.ok dual) = .ok x ∧ x ≠ .nan := by
  obtain ⟨v, hv, -⟩ := Model.mem_variableVids.1 (List.mem_of_getElem? hvar)
  obtain ⟨hlower, hupper⟩ := columnFor_number s.engine.sentinel (j + 1)
    (hm.inOrder v (List.mem_of_getElem? hv))
  have hcolumn := hheld.column hvar
  rw [columnAt, hv] at hcolumn
  exact bindingBound_number hs hsame hcolumn hlower hupper dual

end Encoded

/-! ### Ranges -/

section Ranges

variable {R : Type} [Scalar R]

/-- The entries of two arrays at a place; none when there are no arrays or there is no place. -/
def entriesAt (s : SensitivityReport R) (arrays : Engine.Sensitivity R → List R × List R) (place : Option Nat) :
    Option (R × R) := do
  let a ← s.engine.results.sensitivity
  let place ← place
  let lower ← (arrays a).1[place - 1]?
  let upper ← (arrays a).2[place - 1]?
  pure (lower, upper)

/-- The place of a vid in the arrays, counted from one. -/
def place? (s : SensitivityReport R) (vid : Int) : Option Nat :=
  match s.naming.row? vid, s.naming.column? vid with
  | some row, _ => some row
  | none, some column => some (s.engine.rows.length + column)
  | none, none => none

/-- The entries that the limits of an objective range come from. -/
def costEntries (s : SensitivityReport R) (vid : Int) : Option (R × R) :=
  s.entriesAt (fun a => (a.costLowers, a.costUppers)) (s.naming.column? vid)

/-- The entries that the limits of the range of a right-hand side or of a bound come from. -/
def sideEntries (s : SensitivityReport R) (vid : Int) : Option (R × R) :=
  s.entriesAt (fun a => (a.lowers, a.uppers)) (s.place? vid)

end Ranges

/-- The limits of a range are those that these entries give, and normal unless an entry leaks. -/
structure Shown (sentinel : Extended) (entries : Option (Extended × Extended)) (range : SensitivityRange Extended) :
    Prop where
  limits : ∀ lower upper, entries = some (lower, upper) →
    range.lower = shownLower sentinel lower ∧ range.upper = shownUpper sentinel upper
  lower : Normal sentinel range.lower ↔ entries.any (fun e => leaksBelow sentinel e.1) = false
  upper : Normal sentinel range.upper ↔ entries.any (fun e => leaksAbove sentinel e.2) = false

theorem Shown.of_none {sentinel : Extended} {range : SensitivityRange Extended} (hlower : Normal sentinel range.lower)
    (hupper : Normal sentinel range.upper) : Shown sentinel none range :=
  ⟨nofun, iff_of_true hlower rfl, iff_of_true hupper rfl⟩

section Held

variable {m : Model Extended} {s : SensitivityReport Extended} {sentinel : Extended}
  (hs : Scalar.lt Scalar.zero sentinel = true)
include hs

theorem normal_zero : Normal sentinel Scalar.zero :=
  .inr (.inr hs)

theorem shown_nowhere : Shown sentinel none nowhere :=
  .of_none (normal_zero hs) (normal_zero hs)

omit hs in
theorem shown_unlimited (current : Extended) :
    Shown sentinel none ⟨current, -Scalar.infinity, Scalar.infinity⟩ :=
  .of_none (.inl rfl) (.inr (.inl rfl))

variable (hnaming : s.naming.sentinel = sentinel)
include hnaming

theorem shown_of_entries {lower upper : Extended} (hlower : lower ≠ .nan) (hupper : upper ≠ .nan)
    (current : Extended) : Shown sentinel (some (lower, upper)) ⟨current, s.openBelow lower, s.openAbove upper⟩ := by
  rw [openBelow_eq hs hnaming hlower, openAbove_eq hs hnaming hupper]
  refine ⟨fun l u h => ?_, normal_shownLower hs hlower, normal_shownUpper hs hupper⟩
  obtain ⟨rfl, rfl⟩ := Prod.mk.inj (Option.some.inj h)
  exact ⟨rfl, rfl⟩

/-- Entries of two arrays of numbers at a place that both have. -/
theorem entries_shown (arrays : Engine.Sensitivity Extended → List Extended × List Extended)
    {a : Engine.Sensitivity Extended} (hkept : s.engine.results.sensitivity = some a) {k count : Nat}
    (hlowers : (arrays a).1.length = count) (huppers : (arrays a).2.length = count)
    (hlower : ∀ x ∈ (arrays a).1, x ≠ .nan) (hupper : ∀ x ∈ (arrays a).2, x ≠ .nan) (hk : k < count) :
    ∃ lower upper, (arrays a).1[k]? = some lower ∧ (arrays a).2[k]? = some upper ∧
      ∀ current, Shown sentinel (s.entriesAt arrays (some (k + 1)))
        ⟨current, s.openBelow lower, s.openAbove upper⟩ := by
  obtain ⟨lower, hl⟩ := exists_entry hlowers hk
  obtain ⟨upper, hu⟩ := exists_entry huppers hk
  refine ⟨lower, upper, hl, hu, fun current => ?_⟩
  have hentries : s.entriesAt arrays (some (k + 1)) = some (lower, upper) := by
    simp [entriesAt, hkept, hl, hu]
  rw [hentries]
  exact shown_of_entries hs hnaming (hlower _ (List.mem_of_getElem? hl)) (hupper _ (List.mem_of_getElem? hu)) current

variable (harrays : ∀ a, s.engine.results.sensitivity = some a → a.Fits s.engine ∧ a.Known)
include harrays

theorem rangeAt_shown {k : Nat} (hk : k < s.engine.rows.length + s.engine.columns.length)
    {current : Except Fault Extended → Except Fault Extended}
    (hcurrent : ∀ dual, ∃ x, current (.ok dual) = .ok x ∧ x ≠ .nan) :
    ∃ range, s.rangeAt (k + 1) current = .ok range ∧ Normal sentinel range.current ∧
      Shown sentinel (s.entriesAt (fun a => (a.lowers, a.uppers)) (some (k + 1))) range := by
  have hnormal {x : Extended} (hx : x ≠ .nan) : Normal sentinel (s.normalize x) := by
    have hclip : s.normalize x = clip sentinel x := by
      rw [← hnaming]
      rfl
    rw [hclip]
    exact normal_clip hs hx
  cases hkept : s.engine.results.sensitivity with
  | none =>
    have hrange : s.rangeAt (k + 1) current = .ok ⟨s.normalize Scalar.zero, -Scalar.infinity, Scalar.infinity⟩ := by
      rw [rangeAt, hkept]
      rfl
    have hentries : s.entriesAt (fun a => (a.lowers, a.uppers)) (some (k + 1)) = none := by
      rw [entriesAt, hkept]
      rfl
    rw [hentries]
    exact ⟨_, hrange, hnormal (by decide), shown_unlimited _⟩
  | some a =>
    obtain ⟨hfits, hknown⟩ := harrays a hkept
    obtain ⟨dual, hdual⟩ := exists_entry hfits.duals hk
    obtain ⟨x, hx, hnumber⟩ := hcurrent dual
    obtain ⟨lower, upper, hlower, hupper, hshown⟩ := entries_shown hs hnaming
      (fun a => (a.lowers, a.uppers)) hkept hfits.lowers hfits.uppers hknown.lowers hknown.uppers hk
    exact ⟨_, rangeAt_of_entries hkept hdual hlower hupper hx, hnormal hnumber, hshown _⟩

end Held

/-! ### The report on a model -/

section Model

variable {m : Model Extended} {e : Engine Extended} (hm : m.Reachable) (hheld : Held m e)
  (hs : Scalar.lt Scalar.zero e.sentinel = true)
  (harrays : ∀ a, e.results.sensitivity = some a → a.Fits e ∧ a.Known)
include hheld hs harrays

theorem objectiveRange_shown (vid : Int) :
    ∃ range, objectiveRange ⟨e, namingOf m e.sentinel⟩ vid = .ok range ∧
      Shown e.sentinel (costEntries ⟨e, namingOf m e.sentinel⟩ vid) range ∧
      (Normal e.sentinel range.current ∨
        ∃ var ∈ m.variableVids, vid = var ∧ goalCoefficient m var = .nan) := by
  let s : SensitivityReport Extended := ⟨e, namingOf m e.sentinel⟩
  cases hname : s.naming.column? vid with
  | none =>
    refine ⟨nowhere, ?_, ?_, .inl (normal_zero hs)⟩
    · rw [objectiveRange, show (namingOf m e.sentinel).column? vid = none from hname]
      rfl
    · have hentries : s.costEntries vid = none := by
        rw [costEntries, hname, entriesAt]
        cases s.engine.results.sensitivity <;> rfl
      exact hentries ▸ shown_nowhere hs
  | some n =>
    obtain ⟨hvid, j, hvar, rfl⟩ := (number_eq_some (Model.nodup_vidsWhere m _) vid n).1 hname
    have hcurrent : Normal e.sentinel (s.normalize (goalCoefficient m vid.toNat)) ∨
        ∃ var ∈ m.variableVids, vid = var ∧ goalCoefficient m var = .nan := by
      by_cases hnan : goalCoefficient m vid.toNat = .nan
      · exact .inr ⟨_, List.mem_of_getElem? hvar, (Int.toNat_of_nonneg hvid).symm, hnan⟩
      · exact .inl (normal_clip hs hnan)
    obtain ⟨lower, upper, hlimits, hshown⟩ : ∃ lower upper,
        s.limits (s.engine.results.sensitivity.map fun a => (a.costLowers, a.costUppers)) (j + 1) =
          .ok (lower, upper) ∧ ∀ current, Shown e.sentinel (s.costEntries vid) ⟨current, lower, upper⟩ := by
      rw [costEntries, hname]
      cases hkept : s.engine.results.sensitivity with
      | none =>
        refine ⟨_, _, rfl, fun current => ?_⟩
        have hentries : s.entriesAt (fun a => (a.costLowers, a.costUppers)) (some (j + 1)) = none := by
          rw [entriesAt, hkept]
          rfl
        exact hentries ▸ shown_unlimited current
      | some a =>
        obtain ⟨hfits, hknown⟩ := harrays a hkept
        have hj : j < e.columns.length := hheld.columnCount ▸ (List.getElem?_eq_some_iff.1 hvar).1
        obtain ⟨lower, upper, hlower, hupper, hshown⟩ := entries_shown (s := s) hs rfl
          (fun a => (a.costLowers, a.costUppers)) hkept hfits.costLowers hfits.costUppers
          hknown.costLowers hknown.costUppers hj
        exact ⟨_, _, limits_of_entries hlower hupper, hshown⟩
    have hrange : s.objectiveRange vid = .ok ⟨s.normalize (goalCoefficient m vid.toNat), lower, upper⟩ := by
      rw [objectiveRange, hname]
      simp only [hlimits]
      rw [show s.engine.element 0 ((j + 1 : Nat) : Int) = _ from hheld.element hvar]
      rfl
    exact ⟨_, hrange, hshown _, hcurrent⟩

include hm

theorem variableRange_shown (vid : Int) :
    ∃ range, variableRange ⟨e, namingOf m e.sentinel⟩ vid = .ok range ∧ Normal e.sentinel range.current ∧
      Shown e.sentinel (sideEntries ⟨e, namingOf m e.sentinel⟩ vid) range := by
  let s : SensitivityReport Extended := ⟨e, namingOf m e.sentinel⟩
  cases hrowName : s.naming.row? vid with
  | some n =>
    obtain ⟨-, i, hrow, rfl⟩ := (number_eq_some ((Model.nodup_vidsWhere m _).filter _) vid n).1 hrowName
    have hi : i < e.rows.length := hheld.rowCount ▸ (List.getElem?_eq_some_iff.1 hrow).1
    have hplace : s.place? vid = some (i + 1) := by rw [place?, hrowName]
    have hread : s.variableRange vid = s.rangeAt (i + 1) (s.bindingSide (i + 1)) := by
      rw [variableRange, hrowName]
    have hrange := rangeAt_shown hs (s := s) rfl harrays (show i < _ by simp only [s]; omega)
      (bindingSide_held (s := s) hm hheld rfl hs hrow)
    rw [← hread, ← hplace] at hrange
    exact hrange
  | none =>
    cases hname : s.naming.column? vid with
    | some n =>
      obtain ⟨-, j, hvar, rfl⟩ := (number_eq_some (Model.nodup_vidsWhere m _) vid n).1 hname
      have hj : j < e.columns.length := hheld.columnCount ▸ (List.getElem?_eq_some_iff.1 hvar).1
      have hplace : s.place? vid = some (e.rows.length + j + 1) := by
        rw [place?, hrowName, hname]
        rfl
      have hread : s.variableRange vid = s.rangeAt (e.rows.length + j + 1) (s.bindingBound (j + 1)) := by
        rw [variableRange, hrowName, hname]
        rfl
      have hrange := rangeAt_shown hs (s := s) rfl harrays (show e.rows.length + j < _ by simp only [s]; omega)
        (bindingBound_held (s := s) hm hheld rfl hs hvar)
      rw [← hread, ← hplace] at hrange
      exact hrange
    | none =>
      have hread : s.variableRange vid = .ok nowhere := by rw [variableRange, hrowName, hname]
      have hentries : s.sideEntries vid = none := by
        rw [sideEntries, place?, hrowName, hname, entriesAt]
        cases s.engine.results.sensitivity <;> rfl
      refine ⟨_, hread, normal_zero hs, ?_⟩
      exact hentries ▸ shown_nowhere hs

end Model

/-- A model that calls lead to and that has a variable is encoded.  Whatever arrays of the right sizes the engine then
holds, or none, both ranges of each vid are given, and what is not normal in them is a finite lower limit of the
sentinel or more, a finite upper limit of the negative sentinel or less, or a coefficient that is no number. -/
theorem ranges_normal {m : Model Extended} (hm : m.Reachable) (hvar : m.variableVids ≠ [])
    {infinite : Value Extended} {sentinel : Extended} (hsentinel : sentinelOf infinite = .ok sentinel)
    (hs : Scalar.lt Scalar.zero sentinel = true) (h : Host Extended) :
    ∃ t h', ofModel m .standard infinite h = .ok t h' ∧
      ∀ e : Engine Extended, e.given = t.engine.given →
        (∀ a, e.results.sensitivity = some a → a.Fits e ∧ a.Known) → ∀ vid : Int,
          let s : SensitivityReport Extended := ⟨e, t.naming⟩
          ∃ objective binding, s.objectiveRange vid = .ok objective ∧ s.variableRange vid = .ok binding ∧
            Normal sentinel binding.current ∧
            (Normal sentinel objective.current ∨
              ∃ var ∈ m.variableVids, vid = var ∧ goalCoefficient m var = .nan) ∧
            Shown sentinel (s.costEntries vid) objective ∧ Shown sentinel (s.sideEntries vid) binding := by
  obtain ⟨journal, hrun⟩ := ofModel_run hm.proper hvar hsentinel h
  refine ⟨_, _, hrun, fun e he harrays vid => ?_⟩
  obtain ⟨hheld, rfl, -⟩ := held_of_given he
  obtain ⟨objective, hobjective, hcosts, hcoefficient⟩ := objectiveRange_shown hheld hs harrays vid
  obtain ⟨binding, hbinding, hcurrent, hsides⟩ := variableRange_shown hm hheld hs harrays vid
  exact ⟨objective, binding, hobjective, hbinding, hcurrent, hcoefficient, hcosts, hsides⟩

theorem ranges_normal_mixture :
    (Model.performed Model.mixture).Reachable ∧ (Model.performed Model.mixture).variableVids ≠ [] ∧
      sentinelOf (.integer 100 : Value Extended) = .ok (.rat 100) ∧
      Scalar.lt Scalar.zero (Extended.rat 100) = true ∧
      ∃ t h', ofModel (Model.performed Model.mixture) .standard (.integer 100)
          (.start (.script []) Exact.ranging) = .ok t h' ∧
        ∃ objective binding, objectiveRange ⟨evenly t.engine (.rat 3), t.naming⟩ 0 = .ok objective ∧
          variableRange ⟨evenly t.engine (.rat 3), t.naming⟩ 0 = .ok binding ∧ Normal (.rat 100) binding.current := by
  have hreachable := Model.reachable_performed Model.mixture
  obtain ⟨t, h', hrun, hall⟩ := ranges_normal hreachable (by decide)
    (show sentinelOf (.integer 100 : Value Extended) = .ok (.rat 100) from rfl) rfl (.start (.script []) Exact.ranging)
  have hnumbers {n : Nat} {x : Extended} (hx : x ≠ .nan) : ∀ y ∈ List.replicate n x, y ≠ .nan := by
    intro y hy
    rwa [List.eq_of_mem_replicate hy]
  obtain ⟨objective, binding, hobjective, hbinding, hcurrent, -⟩ := hall (evenly t.engine (.rat 3)) rfl
    (by
      rintro a ha
      obtain rfl := Option.some.inj ha
      exact ⟨⟨List.length_replicate, List.length_replicate, List.length_replicate, List.length_replicate,
        List.length_replicate⟩, ⟨hnumbers (by decide), hnumbers (by decide), hnumbers (by decide),
        hnumbers (by decide)⟩⟩) 0
  exact ⟨hreachable, by decide, rfl, rfl, t, h', hrun, objective, binding, hobjective, hbinding, hcurrent⟩

/-- A ranging answer for the columns and the row of a model, with a lower cost limit of `150`. -/
def highLimit : Ranging.Answer Extended where
  failure := none
  status := .optimal
  duals := ⟨[.rat 0], [.rat 0, .rat 0]⟩
  lowers := ⟨[.rat 0], [.rat 0, .rat 0]⟩
  uppers := ⟨[.rat 0], [.rat 0, .rat 0]⟩
  costLowers := [.rat 150, .rat 0]
  costUppers := [.posInf, .posInf]
  iterations := none

/-- It is not so that all limits are normal: when an engine with the sentinel `100` gets the lower limit `150`, the
report gives `100`. -/
theorem sentinel_leaks :
    ¬∀ (calls : List (Model.Call Extended)) (infinite : Value Extended) (sentinel : Extended) (h h' : Host Extended)
      (t : Encoding Extended), sentinelOf infinite = .ok sentinel → Scalar.lt Scalar.zero sentinel = true →
        ofModel (Model.performed calls) .standard infinite h = .ok t h' →
          ∀ (x : List Extended) (answer : Ranging.Answer Extended), answer.Fits (t.engine.rangingProblem x) →
            (t.engine.sensitivityOf answer).Known → ∀ (vid : Int) (range : SensitivityRange Extended),
              objectiveRange ⟨{ t.engine with
                results.sensitivity := some (t.engine.sensitivityOf answer) }, t.naming⟩ vid = .ok range →
                  Normal sentinel range.lower := by
  intro hall
  have hreachable := Model.reachable_performed Model.mixture
  have hsentinel : sentinelOf (.integer 100 : Value Extended) = .ok (.rat 100) := rfl
  obtain ⟨journal, hrun⟩ := ofModel_run hreachable.proper (by decide) hsentinel (.start (.script []) Exact.ranging)
  have hclaimed := hall Model.mixture _ _ _ _ _ hsentinel rfl hrun [.rat 0, .rat 0] highLimit
    (by decide +kernel) (by decide +kernel) 0 _ rfl
  revert hclaimed
  decide +kernel

end SensitivityReport

end Optima
