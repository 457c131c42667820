import Optima.Proofs.Action

/-!
# Two runs side by side

Two runs end alike when both give the same answer or both stop with the same fault, and the states they leave are
related.  An action respects a relation when its runs from related states end alike.  What actions respect follows from
what their parts do, as long as what they look at in the state is the same in related states (`Respects.get_bind`).
-/

namespace Optima.Action

variable {σ α β : Type} {rel : σ → σ → Prop}

/-- How a run ended: with an answer or with a fault. -/
def endOf : EStateM.Result Fault σ α → Except Fault α
  | .ok a _ => .ok a
  | .error fault _ => .error fault

/-- Two runs end in the same way, and in related states. -/
inductive Alike (rel : σ → σ → Prop) : EStateM.Result Fault σ α → EStateM.Result Fault σ α → Prop
  | ok (a : α) {s t : σ} (h : rel s t) : Alike rel (.ok a s) (.ok a t)
  | error (fault : Fault) {s t : σ} (h : rel s t) : Alike rel (.error fault s) (.error fault t)

namespace Alike

variable {x y : EStateM.Result Fault σ α}

theorem ending (h : Alike rel x y) : endOf y = endOf x := by
  cases h <;> rfl

theorem states (h : Alike rel x y) : rel (stateOf x) (stateOf y) := by
  cases h <;> assumption

theorem mono {rel' : σ → σ → Prop} (h : Alike rel x y) (hrel : ∀ s t, rel s t → rel' s t) : Alike rel' x y := by
  cases h with
  | ok a hst => exact .ok a (hrel _ _ hst)
  | error fault hst => exact .error fault (hrel _ _ hst)

/-- After actions that end alike comes what follows an answer, or nothing if there was a fault. -/
protected theorem bind {act act' : Action σ α} {f f' : α → Action σ β} {s t : σ} (h : Alike rel (act s) (act' t))
    (hf : ∀ a u v, rel u v → Alike rel (f a u) (f' a v)) : Alike rel ((act >>= f) s) ((act' >>= f') t) := by
  generalize hs : act s = x at h
  generalize ht : act' t = y at h
  cases h with
  | ok a huv =>
    rw [bind_ok hs, bind_ok ht]
    exact hf a _ _ huv
  | error fault huv =>
    rw [bind_error hs, bind_error ht]
    exact .error fault huv

protected theorem finish {act act' : Action σ α} {last last' : σ → σ} {s t : σ} (h : Alike rel (act s) (act' t))
    (hlast : ∀ u v, rel u v → rel (last u) (last' v)) :
    Alike rel (Action.finish act last s) (Action.finish act' last' t) := by
  unfold Action.finish
  generalize act s = x at h ⊢
  generalize act' t = y at h ⊢
  cases h with
  | ok a huv => exact .ok a (hlast _ _ huv)
  | error fault huv => exact .error fault (hlast _ _ huv)

end Alike

/-- Begun in related states, the action ends alike. -/
def Respects (rel : σ → σ → Prop) (act : Action σ α) : Prop :=
  ∀ s t, rel s t → Alike rel (act s) (act t)

namespace Respects

protected theorem pure (a : α) : Respects rel (pure a : Action σ α) := fun _ _ h => .ok a h

protected theorem throw (fault : Fault) : Respects rel (throw fault : Action σ α) := fun _ _ h => .error fault h

theorem throw_bind (fault : Fault) (f : α → Action σ β) : Respects rel ((throw fault : Action σ α) >>= f) :=
  fun _ _ h => .error fault h

protected theorem lift (x : Except Fault α) : Respects rel (lift x : Action σ α) := by
  intro s t h
  cases x with
  | ok a => exact .ok a h
  | error fault => exact .error fault h

protected theorem modify {f : σ → σ} (h : ∀ s t, rel s t → rel (f s) (f t)) :
    Respects rel (modify f : Action σ PUnit) := by
  intro s t hst
  rw [modify_run, modify_run]
  exact .ok _ (h s t hst)

protected theorem ite {c : Prop} [Decidable c] {x y : Action σ α} (hx : Respects rel x) (hy : Respects rel y) :
    Respects rel (if c then x else y) := by
  split
  · exact hx
  · exact hy

protected theorem bind {act : Action σ α} {f : α → Action σ β} (h : Respects rel act) (hf : ∀ a, Respects rel (f a)) :
    Respects rel (act >>= f) :=
  fun s t hst => (h s t hst).bind fun a => hf a

/-- What is done after a look at the state has to be the same for related states. -/
protected theorem get_bind {f : σ → Action σ β} (hsame : ∀ s t, rel s t → f t = f s) (h : ∀ s, Respects rel (f s)) :
    Respects rel ((get : Action σ σ) >>= f) := by
  intro s t hst
  rw [get_bind_run, get_bind_run, hsame s t hst]
  exact h s s t hst

protected theorem forM {f : α → Action σ PUnit} {l : List α} (h : ∀ a ∈ l, Respects rel (f a)) :
    Respects rel (l.forM f) := by
  induction l with
  | nil => exact .pure _
  | cons a l ih =>
    exact (h a (List.mem_cons_self ..)).bind fun _ => ih fun b hb => h b (List.mem_cons_of_mem _ hb)

end Respects

end Optima.Action
