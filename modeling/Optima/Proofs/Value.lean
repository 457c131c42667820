import Optima.Value.Basic

/-!
# Sameness of values

Two values that may be keys are the same in either order (`Value.same_comm`), what is the same as the same key is the
same (`Value.same_trans`), and of two numbers that are numbers the one is at most the other unless it is greater
(`Extended.le_of_not_lt`).

`IsReal` and `IsInteger` are what an operation asks of a value that it converts.
-/

namespace Optima

namespace Extended

theorem same_comm (x y : Extended) : x.same y = y.same x := by
  cases x with
  | rat a =>
    cases y with
    | rat b => exact Bool.beq_comm
    | _ => rfl
  | _ => cases y <;> rfl

theorem same_trans {x y z : Extended} (hxy : x.same y = true) (hyz : y.same z = true) : x.same z = true := by
  cases x <;> cases y <;> cases z <;> simp_all [same]

theorem lt_irrefl (x : Extended) : x.lt x = false := by
  cases x <;> simp [lt]

theorem le_of_not_lt {x y : Extended} (hx : x ≠ .nan) (hy : y ≠ .nan) (h : y.lt x = false) : x.le y = true := by
  cases x with
  | nan => exact absurd rfl hx
  | negInf =>
    cases y with
    | nan => exact absurd rfl hy
    | _ => rfl
  | posInf =>
    cases y with
    | nan => exact absurd rfl hy
    | posInf => rfl
    | _ => cases h
  | rat a =>
    cases y with
    | nan => exact absurd rfl hy
    | negInf => cases h
    | posInf => rfl
    | rat b =>
      have hab : a ≤ b := Rat.not_lt.1 (of_decide_eq_false h)
      rcases Rat.le_iff_lt_or_eq.1 hab with hlt | rfl
      · exact Bool.or_eq_true_iff.2 (.inl (decide_eq_true hlt))
      · exact Bool.or_eq_true_iff.2 (.inr (beq_self_eq_true a))

end Extended

namespace Value

variable {R : Type} [Scalar R]

/-- The sameness of values that are compared by their numbers. -/
private def sameNumber (x y : Value R) : Bool :=
  match x.number?, y.number? with
  | some a, some b => a.same b
  | none, none =>
    match x, y with
    | .member m, .member n => m == n
    | _, _ => false
  | _, _ => false

private theorem sameNumber_comm (x y : Value R) : sameNumber x y = sameNumber y x := by
  unfold sameNumber
  cases x.number? with
  | some a =>
    cases y.number? with
    | some b => exact Extended.same_comm a b
    | none => rfl
  | none =>
    cases y.number? with
    | some b => rfl
    | none =>
      cases x with
      | member m =>
        cases y with
        | member n => exact Bool.beq_comm
        | _ => rfl
      | _ => cases y <;> rfl

private theorem same_eq_sameNumber {x y : Value R} (hx : x.isKey = true) (hy : y.isKey = true)
    (hnothing : x = .nothing → y ≠ .nothing) (htext : ∀ s t, x = .text s → y ≠ .text t) :
    x.same y = sameNumber x y := by
  unfold same
  split
  · exact absurd rfl (hnothing rfl)
  · exact absurd rfl (htext _ _ rfl)
  · cases hx
  · cases hx
  · cases hy
  · rfl

/-- Keys are the same in either order. -/
theorem same_comm {x y : Value R} (hx : x.isKey = true) (hy : y.isKey = true) : x.same y = y.same x := by
  by_cases hnothing : x = .nothing ∧ y = .nothing
  · rw [hnothing.1, hnothing.2]
  by_cases htext : ∃ s t, x = .text s ∧ y = .text t
  · obtain ⟨s, t, rfl, rfl⟩ := htext
    unfold same
    exact Bool.beq_comm
  rw [same_eq_sameNumber hx hy (fun h h' => hnothing ⟨h, h'⟩) fun s t h h' => htext ⟨s, t, h, h'⟩,
    same_eq_sameNumber hy hx (fun h h' => hnothing ⟨h', h⟩) fun s t h h' => htext ⟨t, s, h', h⟩]
  exact sameNumber_comm x y

private theorem sameNumber_iff {x y : Value R} (hx : x.isKey = true) (hnothing : x = .nothing → y ≠ .nothing)
    (htext : ∀ s t, x = .text s → y ≠ .text t) : sameNumber x y = true ↔
      x.number? = none ∧ x = y ∨ ∃ a b, x.number? = some a ∧ y.number? = some b ∧ a.same b = true := by
  unfold sameNumber
  cases ha : x.number? with
  | some a => cases y.number? <;> simp
  | none =>
    cases hb : y.number? with
    | some b =>
      have hne : x ≠ y := by
        rintro rfl
        rw [ha] at hb
        cases hb
      simp [hne]
    | none =>
      cases x with
      | member m => cases y <;> simp
      | nothing => simpa using Ne.symm (hnothing rfl)
      | text s => simpa using fun h => htext s s rfl h.symm
      | list items => cases hx
      | flag | integer | real => cases ha

/-- Two keys are the same when they are equal, or when they are the same number. -/
theorem same_iff {x y : Value R} (hx : x.isKey = true) (hy : y.isKey = true) :
    x.same y = true ↔
      x.number? = none ∧ x = y ∨ ∃ a b, x.number? = some a ∧ y.number? = some b ∧ a.same b = true := by
  by_cases hnothing : x = .nothing ∧ y = .nothing
  · obtain ⟨rfl, rfl⟩ := hnothing
    simp [same, number?]
  by_cases htext : ∃ s t, x = .text s ∧ y = .text t
  · obtain ⟨s, t, rfl, rfl⟩ := htext
    simp [same, number?]
  have hnothing' : x = .nothing → y ≠ .nothing := fun h h' => hnothing ⟨h, h'⟩
  have htext' : ∀ s t, x = .text s → y ≠ .text t := fun s t h h' => htext ⟨s, t, h, h'⟩
  rw [same_eq_sameNumber hx hy hnothing' htext']
  exact sameNumber_iff hx hnothing' htext'

theorem same_trans {x y z : Value R} (hx : x.isKey = true) (hy : y.isKey = true) (hz : z.isKey = true)
    (hxy : x.same y = true) (hyz : y.same z = true) : x.same z = true := by
  rw [same_iff hx hy] at hxy
  rw [same_iff hy hz] at hyz
  rw [same_iff hx hz]
  rcases hxy with ⟨-, rfl⟩ | ⟨a, b, ha, hb, hab⟩
  · exact hyz
  · rcases hyz with ⟨hnone, -⟩ | ⟨b', c, hb', hc, hbc⟩
    · rw [hb] at hnone
      cases hnone
    · obtain rfl := Option.some.inj (hb.symm.trans hb')
      exact .inr ⟨a, c, ha, hc, Extended.same_trans hab hbc⟩

/-- A key that names an entry clashes with the keys that are the same.  Nothing names no entry. -/
def clashes (x y : Value R) : Bool :=
  match x with
  | .nothing => false
  | x => x.same y

theorem clashes_iff {x y : Value R} : x.clashes y = true ↔ x ≠ .nothing ∧ x.same y = true := by
  cases x <;> simp [clashes]

theorem clashes_nothing {x : Value R} (hx : x.isKey = true) : x.clashes .nothing = false := by
  rw [← Bool.not_eq_true, clashes_iff, same_iff hx rfl]
  rintro ⟨hne, ⟨-, rfl⟩ | ⟨a, b, -, hb, -⟩⟩
  · exact hne rfl
  · cases hb

theorem clashes_comm {x y : Value R} (hx : x.isKey = true) (hy : y.isKey = true) : x.clashes y = y.clashes x := by
  by_cases hxn : x = .nothing
  · rw [hxn, clashes_nothing hy]
    rfl
  by_cases hyn : y = .nothing
  · rw [hyn, clashes_nothing hx]
    rfl
  rw [Bool.eq_iff_iff, clashes_iff, clashes_iff, same_comm hx hy]
  exact and_congr_left fun _ => iff_of_true hxn hyn

theorem clashes_trans {x y z : Value R} (hx : x.isKey = true) (hy : y.isKey = true) (hz : z.isKey = true)
    (hxy : x.clashes y = true) (hyz : y.clashes z = true) : x.clashes z = true := by
  rw [clashes_iff] at hxy hyz ⊢
  exact ⟨hxy.1, same_trans hx hy hz hxy.2 hyz.2⟩

/-- Keys that clash do so with the same keys. -/
theorem clashes_congr {x y z : Value R} (hx : x.isKey = true) (hy : y.isKey = true) (hz : z.isKey = true)
    (hxy : x.clashes y = true) : x.clashes z = y.clashes z := by
  have hyx : y.clashes x = true := by rwa [clashes_comm hy hx]
  rw [Bool.eq_iff_iff]
  exact ⟨clashes_trans hy hx hz hyx, clashes_trans hx hy hz hxy⟩

/-- A value that can be converted to a number. -/
def IsReal (v : Value R) : Prop :=
  ∃ x, v.toReal = .ok x

/-- A value that can be converted to an integer. -/
def IsInteger (v : Value R) : Prop :=
  ∃ n, v.toInteger = .ok n

end Value

end Optima
