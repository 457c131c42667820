import Optima.Proofs.Model.Identity

/-!
# Calls that a model refuses

A call of an operation that changes a model goes through, or it stops with a fault and the model is as it was.  Which
of the two happens can be said without running the call: `Call.Accepted` lists what each call needs, that is vids of
entries that are there and of the right kind, keys that may be keys, numbers where numbers are to be written, bounds in
order, and no goal before a new one.
-/

namespace Optima.Model

variable {R : Type} [Scalar R]

open Optima.Action (Passes Succeeds Whole)

/-! ### What calls need -/

/-- The vid is that of an entry. -/
def HasEntry (m : Model R) (vid : Int) : Prop :=
  0 ≤ vid ∧ vid.toNat ∈ m.vids

def HasVariable (m : Model R) (vid : Int) : Prop :=
  0 ≤ vid ∧ vid.toNat ∈ m.variableVids

def HasRow (m : Model R) (vid : Int) : Prop :=
  0 ≤ vid ∧ vid.toNat ∈ m.rowVids

/-- Two values that can be bounds: they are numbers, and the first is at most the second. -/
def AreBounds (lower upper : Value R) : Prop :=
  ∃ l, lower.toReal = .ok l ∧ ∃ u, upper.toReal = .ok u ∧ Scalar.le l u = true

/-- What a call needs to go through. -/
def Call.Accepted (m : Model R) : Call R → Prop
  | addVariable key => key.isKey = true
  | addRow key sos => (∃ kind, sos.toMember SosType = .ok kind) ∧ key.isKey = true
  | setBounds vid lower upper => AreBounds lower upper ∧ m.HasEntry vid
  | setLower vid lower => ∃ e, m.entry vid = .ok e ∧ AreBounds lower (.real e.upper)
  | setUpper vid upper => ∃ e, m.entry vid = .ok e ∧ AreBounds (.real e.lower) upper
  | setIgnoresBounds vid _ | setInteger vid _ => m.HasVariable vid
  | setBasic vid _ => m.HasEntry vid
  | setValue vid value => m.HasEntry vid ∧ value.IsReal
  | setCoefficient row var value => m.HasRow row ∧ m.HasVariable var ∧ value.IsReal
  | addGoal vid _ _ => m.HasRow vid ∧ m.goal = none
  | removeGoal _ | clearGoals => True
  | setProperty name vid value =>
    name = "VariableLowerBound" ∧ (∃ e, m.entry vid = .ok e ∧ AreBounds value (.real e.upper)) ∨
      name = "VariableUpperBound" ∧ ∃ e, m.entry vid = .ok e ∧ AreBounds (.real e.lower) value

section Lookups

omit [Scalar R]

theorem entry_isOk {m : Model R} {vid : Int} : (∃ e, m.entry vid = .ok e) ↔ m.HasEntry vid := by
  simp only [entry_eq_ok, HasEntry, mem_vids, exists_and_left]

theorem variableEntry_isOk {m : Model R} {vid : Int} : (∃ e, m.variableEntry vid = .ok e) ↔ m.HasVariable vid := by
  simp only [variableEntry_eq_ok, HasVariable, mem_variableVids, exists_and_left]

theorem rowEntry_isOk {m : Model R} {vid : Int} : (∃ e, m.rowEntry vid = .ok e) ↔ m.HasRow vid := by
  simp only [rowEntry_eq_ok, HasRow, mem_rowVids, exists_and_left]

end Lookups

/-- Bounds are in order when both are numbers and the upper one is not less than the lower one. -/
theorem le_iff_not_lt (l u : R) :
    Scalar.le l u = true ↔ ¬(Scalar.isNaN l || Scalar.isNaN u) = true ∧ ¬Scalar.lt u l = true := by
  constructor
  · intro hle
    unfold Scalar.le at hle
    unfold Scalar.isNaN Scalar.lt
    cases hl : Scalar.exact l <;> cases hu : Scalar.exact u <;>
      simp_all [Extended.le, Extended.lt, Extended.same]
    grind
  · rintro ⟨hnan, hlt⟩
    rw [Bool.not_eq_true, Bool.or_eq_false_iff] at hnan
    exact Extended.le_of_not_lt (exact_ne_nan hnan.1) (exact_ne_nan hnan.2) (Bool.not_eq_true _ ▸ hlt)

/-! ### Which calls go through -/

section Succeeding

omit [Scalar R]

theorem succeeds_modifyEntry (vid : Int) (f : Entry R → Entry R) : Succeeds (modifyEntry vid f) :=
  .modify _

theorem succeeds_set {α : Type} (m : Model R) (a : α) : Succeeds (set m >>= fun _ => (pure a : Edit R α)) :=
  fun _ => ⟨a, m, rfl⟩

end Succeeding

theorem passes_add (key : Value R) (role : Role) (m : Model R) : Passes (add key role) m ↔ key.isKey = true := by
  unfold add lookup?
  rw [Action.passes_get_bind]
  cases key.isKey with
  | false => simp
  | true =>
    cases hfind : m.find? key with
    | none => exact iff_of_true ⟨_, _, rfl⟩ rfl
    | some vid => simp

theorem passes_setBounds (vid : Int) (lower upper : Value R) (m : Model R) :
    Passes (setBounds vid lower upper) m ↔ AreBounds lower upper ∧ m.HasEntry vid := by
  have hwrite (f : Entry R → Entry R) : Passes (modifyEntry vid f) m := succeeds_modifyEntry vid f m
  have hchecks (l u : R) (p : Prop) : (if (Scalar.isNaN l || Scalar.isNaN u) = true then False
      else if Scalar.lt u l = true then False else p) ↔ Scalar.le l u = true ∧ p := by
    rw [le_iff_not_lt]
    split
    · next h => simp [h]
    · next h =>
      split
      · next hlt => simp [hlt]
      · next hlt => simp [h, hlt]
  unfold setBounds AreBounds
  simp only [Action.passes_lift_bind, Action.passes_ite, Action.passes_throw_bind, Action.passes_get_bind, hwrite,
    and_true, entry_isOk, hchecks]
  constructor
  · rintro ⟨l, hl, u, hu, hle, hentry⟩
    exact ⟨⟨l, hl, u, hu, hle⟩, hentry⟩
  · rintro ⟨⟨l, hl, u, hu, hle⟩, hentry⟩
    exact ⟨l, hl, u, hu, hle, hentry⟩

theorem passes_setLower (vid : Int) (lower : Value R) (m : Model R) :
    Passes (setLower vid lower) m ↔ ∃ e, m.entry vid = .ok e ∧ AreBounds lower (.real e.upper) := by
  unfold setLower
  simp only [Action.passes_get_bind, Action.passes_lift_bind, passes_setBounds]
  refine exists_congr fun e => and_congr_right fun he => ?_
  exact and_iff_left (entry_isOk.1 ⟨e, he⟩)

theorem passes_setUpper (vid : Int) (upper : Value R) (m : Model R) :
    Passes (setUpper vid upper) m ↔ ∃ e, m.entry vid = .ok e ∧ AreBounds (.real e.lower) upper := by
  unfold setUpper
  simp only [Action.passes_get_bind, Action.passes_lift_bind, passes_setBounds]
  refine exists_congr fun e => and_congr_right fun he => ?_
  exact and_iff_left (entry_isOk.1 ⟨e, he⟩)

theorem passes_setCoefficient (row var : Int) (value : Value R) (m : Model R) :
    Passes (setCoefficient row var value) m ↔ m.HasRow row ∧ m.HasVariable var ∧ value.IsReal := by
  have hwrite (n : Model R) : Passes (set n : Edit R PUnit) m := ⟨⟨⟩, n, rfl⟩
  unfold setCoefficient
  simp only [Action.passes_get_bind, Action.passes_lift_bind, hwrite, and_true, exists_and_right, rowEntry_isOk,
    variableEntry_isOk]
  rfl

theorem passes_addGoal (vid : Int) (priority minimize : Value R) (m : Model R) :
    Passes (addGoal vid priority minimize) m ↔ m.HasRow vid ∧ m.goal = none := by
  have hwrite (g : Goal R) : Passes (set { m with goal := some g } >>= fun _ => (pure g : Edit R (Goal R))) m :=
    succeeds_set _ _ m
  unfold addGoal
  simp only [Action.passes_get_bind, Action.passes_lift_bind, Action.passes_ite, Action.passes_throw_bind, hwrite,
    exists_and_right, rowEntry_isOk]
  refine and_congr_right fun _ => ?_
  cases m.goal with
  | none => simp
  | some g => simp

/-- A call goes through exactly when it has what it needs. -/
theorem Call.passes_iff (c : Call R) (m : Model R) : Passes c.perform m ↔ c.Accepted m := by
  have hgoes {α : Type} {act : Edit R α} : Passes (act >>= fun _ => (pure () : Edit R Unit)) m ↔ Passes act m :=
    Action.passes_bind_of_succeeds (fun _ => Succeeds.pure _) m
  have hwrite (vid : Int) (f : Entry R → Entry R) : Passes (modifyEntry vid f) m ↔ True :=
    iff_true_intro (succeeds_modifyEntry vid f m)
  cases c with
  | addVariable key => exact hgoes.trans (passes_add key _ m)
  | addRow key sos =>
    refine hgoes.trans ?_
    unfold Model.addRow
    simp only [Action.passes_lift_bind, passes_add, exists_and_right]
    rfl
  | setBounds vid lower upper => exact passes_setBounds vid lower upper m
  | setLower vid lower => exact passes_setLower vid lower m
  | setUpper vid upper => exact passes_setUpper vid upper m
  | setIgnoresBounds vid ignores =>
    simp only [perform, Model.setIgnoresBounds, Action.passes_get_bind, Action.passes_lift_bind, hwrite, and_true]
    exact variableEntry_isOk
  | setInteger vid integer =>
    simp only [perform, Model.setInteger, Action.passes_get_bind, Action.passes_lift_bind, hwrite, and_true]
    exact variableEntry_isOk
  | setBasic vid basic =>
    simp only [perform, Model.setBasic, Action.passes_get_bind, Action.passes_lift_bind, hwrite, and_true]
    exact entry_isOk
  | setValue vid value =>
    simp only [perform, Model.setValue, Action.passes_get_bind, Action.passes_lift_bind, hwrite, and_true,
      exists_and_right, entry_isOk]
    rfl
  | setCoefficient row var value => exact passes_setCoefficient row var value m
  | addGoal vid priority minimize => exact hgoes.trans (passes_addGoal vid priority minimize m)
  | removeGoal vid =>
    refine hgoes.trans (iff_true_intro ?_)
    unfold Model.removeGoal
    rw [Action.passes_get_bind]
    split
    · exact succeeds_set _ _ m
    · exact Action.passes_pure _ m
  | clearGoals => exact iff_true_intro (Action.passes_modify _ m)
  | setProperty name vid value =>
    simp only [perform, Model.setProperty, Accepted]
    by_cases hlower : name = "VariableLowerBound"
    · subst hlower
      exact (passes_setLower vid value m).trans (by simp)
    by_cases hupper : name = "VariableUpperBound"
    · subst hupper
      exact (passes_setUpper vid value m).trans (by simp)
    have hnone : Property.ofName? name = none := by
      simp [Property.ofName?, Property.name, Ne.symm hlower, Ne.symm hupper]
    simp [hnone, hlower, hupper]

/-! ### What a refused call leaves -/

theorem whole_add (key : Value R) (role : Role) : Whole (add key role) := by
  refine .after_get fun m => .after_lift fun known => ?_
  cases known with
  | none => exact (succeeds_set _ _).whole
  | some vid => exact (Succeeds.pure vid).whole

theorem whole_setBounds (vid : Int) (lower upper : Value R) : Whole (setBounds vid lower upper) := by
  refine .after_lift fun l => .after_lift fun u => .ite (.throw_bind _ _) (.ite (.throw_bind _ _) ?_)
  exact .after_get fun _ => .after_lift fun _ => (succeeds_modifyEntry _ _).whole

theorem whole_setLower (vid : Int) (lower : Value R) : Whole (setLower vid lower) :=
  .after_get fun _ => .after_lift fun _ => whole_setBounds _ _ _

theorem whole_setUpper (vid : Int) (upper : Value R) : Whole (setUpper vid upper) :=
  .after_get fun _ => .after_lift fun _ => whole_setBounds _ _ _

theorem whole_addGoal (vid : Int) (priority minimize : Value R) : Whole (addGoal vid priority minimize) :=
  .after_get fun _ => .after_lift fun _ => .ite (.throw_bind _ _) (succeeds_set _ _).whole

/-- A call that stops with a fault has changed nothing. -/
theorem Call.whole (c : Call R) : Whole c.perform := by
  have hvariable (vid : Int) (f : Entry R → Entry R → Entry R) :
      Whole (get >>= fun m => Action.lift (m.variableEntry vid) >>= fun e => modifyEntry vid (f e)) :=
    .after_get fun _ => .after_lift fun _ => (succeeds_modifyEntry _ _).whole
  cases c with
  | addVariable key => exact (whole_add _ _).bind fun _ => .pure _
  | addRow key sos => exact .bind (.after_lift fun _ => whole_add _ _) fun _ => .pure _
  | setBounds vid lower upper => exact whole_setBounds vid lower upper
  | setLower vid lower => exact whole_setLower vid lower
  | setUpper vid upper => exact whole_setUpper vid upper
  | setIgnoresBounds vid ignores => exact hvariable vid _
  | setInteger vid integer => exact hvariable vid _
  | setBasic vid basic => exact .after_get fun _ => .after_lift fun _ => (succeeds_modifyEntry _ _).whole
  | setValue vid value =>
    exact .after_get fun _ => .after_lift fun _ => .after_lift fun _ => (succeeds_modifyEntry _ _).whole
  | setCoefficient row var value =>
    refine .after_get fun m => .after_lift fun _ => .after_lift fun _ => .after_lift fun x => ?_
    exact Succeeds.whole fun _ => ⟨_, _, rfl⟩
  | addGoal vid priority minimize => exact (whole_addGoal _ _ _).bind fun _ => .pure _
  | removeGoal vid =>
    refine .bind (.after_get fun m => .ite (succeeds_set _ _).whole (Succeeds.pure _).whole) fun _ => .pure _
  | clearGoals => exact (Succeeds.modify _).whole
  | setProperty name vid value =>
    show Whole (Model.setProperty name vid value)
    unfold Model.setProperty
    split
    · exact whole_setLower vid value
    · exact whole_setUpper vid value
    · exact .throw _

/-- A call that has what it needs goes through; any other call stops with a fault, and the whole model is as it was. -/
theorem performed_or_refused (c : Call R) (m : Model R) :
    (c.Accepted m ∧ ∃ n, c.perform m = .ok ⟨⟩ n) ∨ (¬c.Accepted m ∧ ∃ fault, c.perform m = .error fault m) := by
  rw [← c.passes_iff m]
  rcases c.whole.cases m with hpasses | hrefused
  · obtain ⟨⟨⟩, n, hrun⟩ := hpasses
    exact .inl ⟨⟨⟨⟩, n, hrun⟩, n, hrun⟩
  · exact .inr hrefused

end Optima.Model
