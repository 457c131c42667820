import Optima.Fault

/-!
# Running actions

How a chain of actions runs.  `bind_ok` and `bind_error` run it from the front, `bind_eq_ok` and `bind_eq_error` take
a run apart again, and `forM_concat` and `foldlM_concat` run the last step of a loop when the steps before it went
through.

An action preserves a property of the state (`Preserves`) when the property holds afterwards if it held before, and it
keeps a view of the state (`Keeps`) when the view is the same afterwards, whether or not the action stopped with a
fault.  What an action preserves or keeps follows from what its parts do.

An action is whole (`Whole`) when it is done from the beginning to the end or not at all: if it stops with a fault, the
state is as it was.  Actions that look at everything first and cannot fail afterwards are whole.
-/

namespace Optima

theorem except_bind_eq_ok {ε α β : Type} {x : Except ε α} {f : α → Except ε β} {b : β} :
    (x >>= f) = .ok b ↔ ∃ a, x = .ok a ∧ f a = .ok b := by
  cases x <;> simp [bind, Except.bind]

namespace Action

variable {σ τ α β ω : Type}

/-- The state that an action leaves, whether or not it stops with a fault. -/
def after (act : Action σ α) (s : σ) : σ :=
  match act s with
  | .ok _ t => t
  | .error _ t => t

theorem after_ok {act : Action σ α} {s t : σ} {a : α} (h : act s = .ok a t) : act.after s = t := by
  simp [after, h]

theorem after_error {act : Action σ α} {s t : σ} {fault : Fault} (h : act s = .error fault t) :
    act.after s = t := by
  simp [after, h]

/-- The state in which a run ended, whether or not it stopped with a fault. -/
def stateOf : EStateM.Result Fault σ α → σ
  | .ok _ t => t
  | .error _ t => t

theorem after_eq (act : Action σ α) (s : σ) : act.after s = stateOf (act s) := rfl

/-- The answer of a run that went through. -/
def answerOf? : EStateM.Result Fault σ α → Option α
  | .ok a _ => some a
  | .error _ _ => none

theorem ok_of_answerOf? {act : Action σ α} {s : σ} {a : α} (h : answerOf? (act s) = some a) :
    act s = .ok a (act.after s) := by
  unfold after
  cases hrun : act s with
  | ok b t =>
    rw [hrun] at h
    cases h
    rfl
  | error fault t =>
    rw [hrun] at h
    cases h

/-- The fault with which a run stopped. -/
def faultOf? : EStateM.Result Fault σ α → Option Fault
  | .ok _ _ => none
  | .error fault _ => some fault

theorem error_of_faultOf? {act : Action σ α} {s : σ} {fault : Fault} (h : faultOf? (act s) = some fault) :
    act s = .error fault (act.after s) := by
  unfold after
  cases hrun : act s with
  | ok a t =>
    rw [hrun] at h
    cases h
  | error fault' t =>
    rw [hrun] at h
    cases h
    rfl

/-! ### Running from the front -/

@[simp] theorem pure_run (a : α) (s : σ) : (pure a : Action σ α) s = .ok a s := rfl

@[simp] theorem modify_run (f : σ → σ) (s : σ) : (modify f : Action σ PUnit) s = .ok ⟨⟩ (f s) := rfl

@[simp] theorem lift_ok_run (a : α) (s : σ) : (lift (.ok a) : Action σ α) s = .ok a s := rfl

@[simp] theorem lift_error_run (fault : Fault) (s : σ) :
    (lift (.error fault) : Action σ α) s = .error fault s := rfl

theorem bind_ok {act : Action σ α} {s t : σ} {a : α} (h : act s = .ok a t) (f : α → Action σ β) :
    (act >>= f) s = f a t := by
  simp [bind, EStateM.bind, h]

theorem after_bind_ok {act : Action σ α} {s t : σ} {a : α} (h : act s = .ok a t) (f : α → Action σ β) :
    (act >>= f).after s = (f a).after t := by
  simp only [after, bind_ok h]

theorem bind_error {act : Action σ α} {s t : σ} {fault : Fault} (h : act s = .error fault t)
    (f : α → Action σ β) : (act >>= f) s = .error fault t := by
  simp [bind, EStateM.bind, h]

@[simp] theorem throw_bind_run (fault : Fault) (f : α → Action σ β) (s : σ) :
    ((throw fault : Action σ α) >>= f) s = .error fault s := rfl

@[simp] theorem get_bind_run (f : σ → Action σ β) (s : σ) : ((get : Action σ σ) >>= f) s = f s s := rfl

@[simp] theorem modify_bind_run (g : σ → σ) (f : PUnit → Action σ β) (s : σ) :
    ((modify g : Action σ PUnit) >>= f) s = f ⟨⟩ (g s) := rfl

@[simp] theorem lift_ok_bind_run (a : α) (f : α → Action σ β) (s : σ) :
    ((lift (.ok a) : Action σ α) >>= f) s = f a s := rfl

@[simp] theorem lift_error_bind_run (fault : Fault) (f : α → Action σ β) (s : σ) :
    ((lift (.error fault) : Action σ α) >>= f) s = .error fault s := rfl

/-! ### The state an action leaves -/

@[simp] theorem after_pure (a : α) (s : σ) : (pure a : Action σ α).after s = s := rfl

@[simp] theorem after_set (s t : σ) : (set t : Action σ PUnit).after s = t := rfl

@[simp] theorem after_modify (f : σ → σ) (s : σ) : (modify f : Action σ PUnit).after s = f s := rfl

@[simp] theorem after_throw_bind (fault : Fault) (f : α → Action σ β) (s : σ) :
    ((throw fault : Action σ α) >>= f).after s = s := rfl

@[simp] theorem after_get_bind (f : σ → Action σ β) (s : σ) :
    ((get : Action σ σ) >>= f).after s = (f s).after s := rfl

@[simp] theorem after_lift_ok_bind (a : α) (f : α → Action σ β) (s : σ) :
    ((lift (.ok a) : Action σ α) >>= f).after s = (f a).after s := rfl

@[simp] theorem after_lift_error_bind (fault : Fault) (f : α → Action σ β) (s : σ) :
    ((lift (.error fault) : Action σ α) >>= f).after s = s := rfl

@[simp] theorem after_ite {c : Prop} [Decidable c] (x y : Action σ α) (s : σ) :
    (if c then x else y).after s = if c then x.after s else y.after s := by
  split <;> rfl

@[simp] theorem after_map (f : α → β) (act : Action σ α) (s : σ) : (f <$> act).after s = act.after s := by
  simp only [after, Functor.map, EStateM.map]
  cases act s <;> rfl

@[simp] theorem after_bind_pure (act : Action σ α) (b : β) (s : σ) :
    (act >>= fun _ => (pure b : Action σ β)).after s = act.after s := by
  simp only [after, bind, EStateM.bind]
  cases act s <;> rfl

/-! ### Taking a run apart -/

theorem bind_eq_ok {act : Action σ α} {f : α → Action σ β} {s u : σ} {b : β} :
    (act >>= f) s = .ok b u ↔ ∃ a t, act s = .ok a t ∧ f a t = .ok b u := by
  cases h : act s with
  | ok a t =>
    rw [bind_ok h]
    constructor
    · exact fun hf => ⟨a, t, rfl, hf⟩
    · rintro ⟨_, _, ⟨rfl, rfl⟩, hf⟩
      exact hf
  | error fault t => simp [bind_error h]

theorem bind_eq_error {act : Action σ α} {f : α → Action σ β} {s u : σ} {fault : Fault} :
    (act >>= f) s = .error fault u ↔
      act s = .error fault u ∨ ∃ a t, act s = .ok a t ∧ f a t = .error fault u := by
  cases h : act s with
  | ok a t =>
    rw [bind_ok h]
    constructor
    · exact fun hf => .inr ⟨a, t, rfl, hf⟩
    · rintro (hs | ⟨_, _, ⟨rfl, rfl⟩, hf⟩)
      · cases hs
      · exact hf
  | error cause t => simp [bind_error h]

/-- Two actions one after the other: a fault of the first is one of both, and otherwise the second comes next. -/
theorem bind_cases (act : Action σ α) (f : α → Action σ β) (s : σ) :
    (∃ fault t, act s = .error fault t ∧ (act >>= f) s = .error fault t) ∨
      ∃ a t, act s = .ok a t ∧ (act >>= f) s = f a t := by
  cases h : act s with
  | ok a t => exact .inr ⟨a, t, rfl, bind_ok h f⟩
  | error fault t => exact .inl ⟨fault, t, rfl, bind_error h f⟩

theorem lift_eq_ok {x : Except Fault α} {s t : σ} {a : α} : lift x s = .ok a t ↔ x = .ok a ∧ t = s := by
  cases x <;> simp [eq_comm]

theorem lift_bind_eq_ok {x : Except Fault α} {f : α → Action σ β} {s t : σ} {b : β} :
    (lift x >>= f) s = .ok b t ↔ ∃ a, x = .ok a ∧ f a s = .ok b t := by
  cases x <;> simp

theorem on_eq_ok {get : σ → τ} {set : τ → σ → σ} {act : Action τ α} {s t : σ} {a : α} :
    on get set act s = .ok a t ↔ ∃ part, act (get s) = .ok a part ∧ t = set part s := by
  unfold on
  cases act (get s) with
  | ok b part =>
    constructor
    · rintro ⟨rfl, rfl⟩
      exact ⟨part, rfl, rfl⟩
    · rintro ⟨_, ⟨rfl, rfl⟩, rfl⟩
      rfl
  | error fault part => simp

theorem tryCatch_eq (act : Action σ α) (handler : Fault → Action σ α) (s : σ) :
    (tryCatch act handler) s =
      match act s with
      | .ok a t => .ok a t
      | .error fault t => handler fault t := by
  show EStateM.tryCatch act handler s = _
  unfold EStateM.tryCatch
  cases act s <;> rfl

theorem finish_eq_ok {act : Action σ α} {last : σ → σ} {s t : σ} {a : α} :
    finish act last s = .ok a t ↔ ∃ u, act s = .ok a u ∧ t = last u := by
  unfold finish
  cases act s with
  | ok b u =>
    constructor
    · rintro ⟨rfl, rfl⟩
      exact ⟨u, rfl, rfl⟩
    · rintro ⟨_, ⟨rfl, rfl⟩, rfl⟩
      rfl
  | error fault u => simp

/-! ### Loops -/

/-- A loop with one more member at the end: when the loop before it goes through, the last step is left. -/
theorem forM_concat {f : α → Action σ Unit} {l : List α} {s t : σ} (h : l.forM f s = .ok ⟨⟩ t) (a : α) :
    (l ++ [a]).forM f s = f a t := by
  induction l generalizing s with
  | nil =>
    cases h
    show (f a >>= fun _ => pure ⟨⟩) t = f a t
    cases hrun : f a t with
    | ok b u => exact bind_ok hrun _
    | error fault u => exact bind_error hrun _
  | cons b l ih =>
    obtain ⟨c, u, hb, hl⟩ := bind_eq_ok.1 (show (f b >>= fun _ => l.forM f) s = .ok ⟨⟩ t from h)
    exact (bind_ok hb _).trans (ih hl)

/-- The same for a loop that carries something along. -/
theorem foldlM_concat {f : β → α → Action σ β} {l : List α} {b c : β} {s t : σ}
    (h : l.foldlM f b s = .ok c t) (a : α) : (l ++ [a]).foldlM f b s = f c a t := by
  rw [List.foldlM_append, bind_ok h, List.foldlM_cons]
  cases hrun : f c a t with
  | ok b u => exact bind_ok hrun _
  | error fault u => exact bind_error hrun _

/-! ### What an action preserves -/

/-- A property of the state holds after an action if it held before, whether or not the action stops with a fault. -/
def Preserves (p : σ → Prop) (act : Action σ α) : Prop :=
  ∀ s, p s → p (act.after s)

namespace Preserves

variable {p : σ → Prop}

theorem ok {act : Action σ α} (h : Preserves p act) {s t : σ} {a : α} (hrun : act s = .ok a t) (hs : p s) : p t :=
  after_ok hrun ▸ h s hs

theorem error {act : Action σ α} (h : Preserves p act) {s t : σ} {fault : Fault} (hrun : act s = .error fault t)
    (hs : p s) : p t :=
  after_error hrun ▸ h s hs

protected theorem pure (a : α) : Preserves p (pure a : Action σ α) := fun _ hs => hs

protected theorem throw (fault : Fault) : Preserves p (throw fault : Action σ α) := fun _ hs => hs

protected theorem get : Preserves p (get : Action σ σ) := fun _ hs => hs

protected theorem modify {f : σ → σ} (h : ∀ s, p s → p (f s)) : Preserves p (modify f : Action σ PUnit) := h

protected theorem lift (x : Except Fault α) : Preserves p (lift x : Action σ α) := by
  intro s hs
  cases x <;> exact hs

/-- What holds after the first of two actions, wherever it stops, is kept by the second. -/
theorem bind_first {act : Action σ α} {f : α → Action σ β} {s : σ} (h : p (act.after s)) (hf : ∀ a, Preserves p (f a)) :
    p ((act >>= f).after s) := by
  cases hrun : act s with
  | ok a t => exact after_bind_ok hrun f ▸ hf a t (after_ok hrun ▸ h)
  | error fault t => exact after_error (bind_error hrun f) ▸ after_error hrun ▸ h

protected theorem bind {act : Action σ α} {f : α → Action σ β} (h : Preserves p act) (hf : ∀ a, Preserves p (f a)) :
    Preserves p (act >>= f) :=
  fun s hs => bind_first (h s hs) hf

/-- After looking at the state, an action may use that it is as it was seen. -/
theorem get_bind {f : σ → Action σ β} (h : ∀ s, p s → p ((f s).after s)) :
    Preserves p ((get : Action σ σ) >>= f) := h

/-- As long as a property is kept, a weaker one holds wherever the action stops; so it is the last step that has to get
from the one to the other. -/
theorem bind_last {q : σ → Prop} {act : Action σ α} {f : α → Action σ β} (h : Preserves p act)
    (hweaker : ∀ s, p s → q s) (hlast : ∀ a s, p s → q ((f a).after s)) : ∀ s, p s → q ((act >>= f).after s) := by
  intro s hs
  cases hrun : act s with
  | ok a t => exact after_bind_ok hrun f ▸ hlast a t (h.ok hrun hs)
  | error fault t => exact after_error (bind_error hrun f) ▸ hweaker t (h.error hrun hs)

protected theorem finish {act : Action σ α} {last : σ → σ} (h : Preserves p act) (hlast : ∀ s, p s → p (last s)) :
    Preserves p (finish act last) := by
  intro s hs
  have hact := h s hs
  unfold after at hact
  unfold after finish
  cases hrun : act s with
  | ok a t =>
    rw [hrun] at hact
    exact hlast t hact
  | error fault t =>
    rw [hrun] at hact
    exact hlast t hact

protected theorem forM {f : α → Action σ PUnit} {l : List α} (h : ∀ a ∈ l, Preserves p (f a)) :
    Preserves p (l.forM f) := by
  induction l with
  | nil => exact .pure _
  | cons a l ih =>
    exact (h a (List.mem_cons_self ..)).bind fun _ => ih fun b hb => h b (List.mem_cons_of_mem _ hb)

end Preserves

/-- An action keeps a view of the state, whether or not it stops with a fault. -/
def Keeps (view : σ → ω) (act : Action σ α) : Prop :=
  ∀ s, view (act.after s) = view s

namespace Keeps

variable {view : σ → ω}

theorem preserves {act : Action σ α} (h : Keeps view act) (w : ω) : Preserves (fun s => view s = w) act :=
  fun s hs => (h s).trans hs

theorem of_preserves {act : Action σ α} (h : ∀ w, Preserves (fun s => view s = w) act) : Keeps view act :=
  fun s => h (view s) s rfl

theorem ok {act : Action σ α} (h : Keeps view act) {s t : σ} {a : α} (hrun : act s = .ok a t) :
    view t = view s := by
  rw [← h s, after_ok hrun]

theorem error {act : Action σ α} (h : Keeps view act) {s t : σ} {fault : Fault}
    (hrun : act s = .error fault t) : view t = view s := by
  rw [← h s, after_error hrun]

protected theorem pure (a : α) : Keeps view (pure a : Action σ α) := fun _ => rfl

protected theorem throw (fault : Fault) : Keeps view (throw fault : Action σ α) := fun _ => rfl

protected theorem get : Keeps view (get : Action σ σ) := fun _ => rfl

protected theorem modify {f : σ → σ} (h : ∀ s, view (f s) = view s) : Keeps view (modify f : Action σ PUnit) := h

protected theorem lift (x : Except Fault α) : Keeps view (lift x : Action σ α) :=
  .of_preserves fun _ => .lift x

protected theorem bind {act : Action σ α} {f : α → Action σ β} (h : Keeps view act) (hf : ∀ a, Keeps view (f a)) :
    Keeps view (act >>= f) :=
  .of_preserves fun w => (h.preserves w).bind fun a => (hf a).preserves w

theorem get_bind {f : σ → Action σ β} (h : ∀ s, view ((f s).after s) = view s) :
    Keeps view ((get : Action σ σ) >>= f) := h

protected theorem forM {f : α → Action σ PUnit} {l : List α} (h : ∀ a ∈ l, Keeps view (f a)) : Keeps view (l.forM f) :=
  .of_preserves fun w => .forM fun a ha => (h a ha).preserves w

/-- What is read off a view is kept with it. -/
protected theorem map {act : Action σ α} (h : Keeps view act) (g : ω → τ) : Keeps (fun s => g (view s)) act :=
  fun s => congrArg g (h s)

end Keeps

/-! ### All or nothing -/

/-- An action that stops with a fault has not changed the state. -/
def Whole (act : Action σ α) : Prop :=
  ∀ s t fault, act s = .error fault t → t = s

/-- An action goes through whatever the state is. -/
def Succeeds (act : Action σ α) : Prop :=
  ∀ s, ∃ a t, act s = .ok a t

theorem Succeeds.pure (a : α) : Succeeds (pure a : Action σ α) := fun s => ⟨a, s, rfl⟩

theorem Succeeds.modify (f : σ → σ) : Succeeds (modify f : Action σ PUnit) := fun s => ⟨⟨⟩, f s, rfl⟩

theorem Succeeds.bind {act : Action σ α} {f : α → Action σ β} (h : Succeeds act) (hf : ∀ a, Succeeds (f a)) :
    Succeeds (act >>= f) := by
  intro s
  obtain ⟨a, t, hrun⟩ := h s
  obtain ⟨b, u, hrest⟩ := hf a t
  exact ⟨b, u, (bind_ok hrun f).trans hrest⟩

theorem Succeeds.whole {act : Action σ α} (h : Succeeds act) : Whole act := by
  intro s t fault hrun
  obtain ⟨a, u, hok⟩ := h s
  rw [hok] at hrun
  cases hrun

namespace Whole

protected theorem throw (fault : Fault) : Whole (throw fault : Action σ α) := by
  intro s t _ hrun
  cases hrun
  rfl

theorem throw_bind (fault : Fault) (f : α → Action σ β) : Whole ((throw fault : Action σ α) >>= f) := by
  intro s t _ hrun
  cases hrun
  rfl

protected theorem ite {c : Prop} [Decidable c] {x y : Action σ α} (hx : Whole x) (hy : Whole y) :
    Whole (if c then x else y) := by
  split
  · exact hx
  · exact hy

/-- After a whole action only what cannot fail may follow. -/
protected theorem bind {act : Action σ α} {f : α → Action σ β} (h : Whole act) (hf : ∀ a, Succeeds (f a)) :
    Whole (act >>= f) := by
  intro s t fault hrun
  rcases bind_eq_error.1 hrun with hact | ⟨a, u, -, hrest⟩
  · exact h s t fault hact
  · obtain ⟨b, v, hok⟩ := hf a u
    rw [hok] at hrest
    cases hrest

/-- What only looks at the state may come before a whole action. -/
theorem after_look {act : Action σ α} {f : α → Action σ β} (hact : Keeps id act) (hf : ∀ a, Whole (f a)) :
    Whole (act >>= f) := by
  intro s t fault hrun
  rcases bind_eq_error.1 hrun with hrun | ⟨a, u, hrun, hrest⟩
  · exact hact.error hrun
  · exact (hf a u t fault hrest).trans (hact.ok hrun)

theorem after_get {f : σ → Action σ β} (hf : ∀ s, Whole (f s)) : Whole ((get : Action σ σ) >>= f) :=
  after_look .get hf

theorem after_lift {x : Except Fault α} {f : α → Action σ β} (hf : ∀ a, Whole (f a)) : Whole (lift x >>= f) :=
  after_look (.lift x) hf

end Whole

/-! ### Going through -/

/-- The action goes through from this state. -/
def Passes (act : Action σ α) (s : σ) : Prop :=
  ∃ a t, act s = .ok a t

@[simp] theorem passes_pure (a : α) (s : σ) : Passes (pure a : Action σ α) s :=
  ⟨a, s, rfl⟩

@[simp] theorem passes_modify (f : σ → σ) (s : σ) : Passes (modify f : Action σ PUnit) s :=
  ⟨⟨⟩, f s, rfl⟩

@[simp] theorem passes_throw (fault : Fault) (s : σ) : ¬Passes (throw fault : Action σ α) s := by
  rintro ⟨a, t, hrun⟩
  cases hrun

@[simp] theorem passes_throw_bind (fault : Fault) (f : α → Action σ β) (s : σ) :
    ¬Passes ((throw fault : Action σ α) >>= f) s := by
  rintro ⟨a, t, hrun⟩
  cases hrun

@[simp] theorem passes_get_bind (f : σ → Action σ β) (s : σ) :
    Passes ((get : Action σ σ) >>= f) s ↔ Passes (f s) s := Iff.rfl

@[simp] theorem passes_lift_bind (x : Except Fault α) (f : α → Action σ β) (s : σ) :
    Passes (lift x >>= f) s ↔ ∃ a, x = .ok a ∧ Passes (f a) s := by
  cases x with
  | ok a => exact ⟨fun h => ⟨a, rfl, h⟩, by rintro ⟨_, ⟨⟩, h⟩; exact h⟩
  | error fault =>
    constructor
    · rintro ⟨a, t, hrun⟩
      cases hrun
    · rintro ⟨a, ⟨⟩, -⟩

/-- What only looks at the state may come before. -/
theorem passes_look_bind {act : Action σ α} (hact : Keeps id act) (f : α → Action σ β) (s : σ) :
    Passes (act >>= f) s ↔ ∃ a, act s = .ok a s ∧ Passes (f a) s := by
  constructor
  · rintro ⟨b, u, hrun⟩
    obtain ⟨a, t, hlook, hrest⟩ := bind_eq_ok.1 hrun
    have hsame : t = s := hact.ok hlook
    exact ⟨a, hsame ▸ hlook, b, u, hsame ▸ hrest⟩
  · rintro ⟨a, hlook, b, u, hrest⟩
    exact ⟨b, u, (bind_ok hlook f).trans hrest⟩

@[simp] theorem passes_ite {c : Prop} [Decidable c] (x y : Action σ α) (s : σ) :
    Passes (if c then x else y) s ↔ if c then Passes x s else Passes y s := by
  split <;> rfl

/-- What cannot fail may follow. -/
theorem passes_bind_of_succeeds {act : Action σ α} {f : α → Action σ β} (hf : ∀ a, Succeeds (f a)) (s : σ) :
    Passes (act >>= f) s ↔ Passes act s := by
  constructor
  · rintro ⟨b, u, hrun⟩
    obtain ⟨a, t, hact, -⟩ := bind_eq_ok.1 hrun
    exact ⟨a, t, hact⟩
  · rintro ⟨a, t, hact⟩
    obtain ⟨b, u, hrest⟩ := hf a t
    exact ⟨b, u, (bind_ok hact f).trans hrest⟩

/-- A whole action goes through, or it stops with a fault and the state is as it was. -/
theorem Whole.cases {act : Action σ α} (h : Whole act) (s : σ) :
    Passes act s ∨ ¬Passes act s ∧ ∃ fault, act s = .error fault s := by
  cases hrun : act s with
  | ok a t => exact .inl ⟨a, t, hrun⟩
  | error fault t =>
    refine .inr ⟨?_, fault, ?_⟩
    · rintro ⟨a, u, hok⟩
      rw [hrun] at hok
      cases hok
    · rw [h s t fault hrun]

end Action

end Optima
