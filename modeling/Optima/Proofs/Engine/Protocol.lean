import Optima.Proofs.Engine.Timing

/-!
# Polls and calls in turn

Two things are seen of a solve from outside: somebody is asked whether to abort, and the search is called.  `Seen act s
moments` says which of these moments there are when an action runs from a session, in their order, each with the
session as it was then.  It follows the action along its binds: the moments of two actions one after the other are
those of the first and then those of the second, and work that leaves both the answers and the calls as they are has
none.

When somebody is asked and the program needs a search, polls and calls take turns (`Protocol`): a poll comes first, a
call only after a no, each call may take at most what is left of the time and twice as long as the call before, and it
starts from the best point so far.  The proof goes along the program text.  What it carries through the slices is that
the poller has an answer left (`Polled`), and that the search starts from the best point.  How long the calls take in
the end is a matter of the pace of the search.
-/

namespace Optima.Engine

variable {R : Type} [Scalar R]

open Search (Outcome Request)

open Optima.Action (Keeps)

/-! ### What is seen -/

/-- Somebody is asked whether to abort, and answers or fails to; or the search is called.  The session is the one in
which this happens. -/
inductive Moment (R : Type) where
  | asked (answer : Option (Value R)) (s : Session R)
  | called (r : Request R) (s : Session R)

namespace Moment

def answer? : Moment R → Option (Option (Value R))
  | asked answer _ => some answer
  | called _ _ => none

end Moment

/-- The answers to the question whether to abort. -/
def Session.answers (s : Session R) : List (Option (Value R)) :=
  s.host.events.filterMap Event.answer?

/-- The answers and the calls so far. -/
def Session.talk (s : Session R) : List (Option (Value R)) × List (Request R) :=
  (s.answers, s.host.requests)

/-- These are the moments in which somebody is asked, or the search is called, when an action runs. -/
inductive Seen : {α : Type} → Work R α → Session R → List (Moment R) → Prop where
  | silent {α : Type} {act : Work R α} {s : Session R} (h : (act.after s).talk = s.talk) : Seen act s []
  | asked {s : Session R} {answer : Option (Value R)}
      (h : (abortRequested.after s).talk = (s.answers ++ [answer], s.host.requests)) :
      Seen abortRequested s [.asked answer s]
  | called {s : Session R} {search : Search.Model R} (h : s.engine.search = some search) (budget : R)
      (pointLimit : Nat) : Seen (request budget pointLimit) s [.called ⟨search, budget, pointLimit⟩ s]
  | bind {α β : Type} {act : Work R α} {f : α → Work R β} {s u : Session R} {a : α} {ms ns : List (Moment R)}
      (hrun : act s = .ok a u) (hact : Seen act s ms) (hf : Seen (f a) u ns) : Seen (act >>= f) s (ms ++ ns)
  | stop {α β : Type} {act : Work R α} {f : α → Work R β} {s u : Session R} {fault : Fault} {ms : List (Moment R)}
      (hrun : act s = .error fault u) (hact : Seen act s ms) : Seen (act >>= f) s ms
  | finish {α : Type} {act : Work R α} {last : Session R → Session R} {s : Session R} {ms : List (Moment R)}
      (hlast : ∀ u, (last u).talk = u.talk) (hact : Seen act s ms) : Seen (Action.finish act last) s ms

namespace Seen

variable {α β : Type} {s : Session R} {ms : List (Moment R)}

theorem of_keeps {act : Work R α} (h : Keeps Session.talk act) (s : Session R) : Seen act s [] :=
  .silent (h s)

theorem get_bind {f : Session R → Work R β} (h : Seen (f s) s ms) : Seen (get >>= f) s ms := by
  have hget : (get : Work R (Session R)) s = .ok s s := rfl
  exact .bind hget (.silent rfl) h

theorem after_bind {act : Work R α} {f : α → Work R β} {u : Session R} {a : α} (hact : Keeps Session.talk act)
    (hrun : act s = .ok a u) (hf : Seen (f a) u ms) : Seen (act >>= f) s ms :=
  .bind hrun (.of_keeps hact s) hf

end Seen

/-! ### The protocol -/

/-- The time that the call after so many others may take at most. -/
def sliceLength : Nat → R
  | 0 => Scalar.one
  | i + 1 => Scalar.two * sliceLength i

/-- The call with this number in a solve that begins in the session `s`, when it is made in the session `x`: there is
time left, it may take that time or as long as calls with this number may, whichever is less, and if it is not the
first one it starts from the best point so far. -/
structure OnPlan (s : Session R) (i : Nat) (r : Request R) (x : Session R) : Prop where
  budget : ∃ d, deadline s.host.clock (s.engine.settings.get .timeout) = .ok d ∧
    Scalar.le (d - x.host.clock) Scalar.zero = false ∧ r.budget = Scalar.smaller (d - x.host.clock) (sliceLength i)
  start : 0 < i → ∀ point, x.engine.results.incumbent = some point →
    r.search.start = some (point.mapIdx fun j v => (j + 1, v))

/-- Polls and calls take turns, from the call with this number on: each call comes after a poll that said no, and
nothing comes after a poll that said yes. -/
inductive Protocol (s : Session R) : Nat → List (Moment R) → Prop where
  | ended (i : Nat) : Protocol s i []
  | asked (i : Nat) (answer : Option (Value R)) (w : Session R) : Protocol s i [.asked answer w]
  | slice {i : Nat} {no : Value R} {w x : Session R} {r : Request R} {rest : List (Moment R)}
      (hno : no.truth = false) (hcall : OnPlan s i r x) (hrest : Protocol s (i + 1) rest) :
      Protocol s i (.asked (some no) w :: .called r x :: rest)

/-! ### Work in which nothing is seen -/

omit [Scalar R] in
theorem talk_of_noted {α : Type} {act : Work R α} (hnoted : Keeps (Session.noted Event.answer?) act)
    (hrequests : Keeps (fun s => s.host.requests) act) : Keeps Session.talk act :=
  fun s => Prod.ext (congrArg (fun noted => noted.2.2) (hnoted s)) (hrequests s)

theorem talk_conclude (verdict : Verdict) : Keeps Session.talk (conclude verdict : Work R Verdict) :=
  talk_of_noted (noted_conclude (fun _ _ => rfl) verdict) ((conclude_tally verdict).map fun tally => tally.2.2)

/-! ### Polls -/

/-- Somebody who has an answer is asked whether to abort. -/
def Session.Polled (s : Session R) : Prop :=
  ∃ p, s.engine.hooks.poller = some p ∧ p.polls ≠ []

omit [Scalar R] in
private theorem next_polls {p : Poller R} (h : p.polls ≠ []) : p.next.polls ≠ [] := by
  obtain ⟨polls, marks⟩ := p
  cases polls with
  | nil => exact absurd rfl h
  | cons poll polls => cases polls <;> simp [Poller.next, leftAfter]

/-- Who has an answer is asked once, and the answer decides. -/
theorem abortRequested_asks {s : Session R} (h : s.Polled) : ∃ answer,
    (abortRequested.after s).talk = (s.answers ++ [answer], s.host.requests) ∧ (abortRequested.after s).Polled ∧
      ∀ b t, abortRequested s = .ok b t → ∃ v, answer = some v ∧ v.truth = b := by
  obtain ⟨p, hp, hpolls⟩ := h
  have hnext := next_polls hpolls
  obtain ⟨poll, hanswer⟩ : ∃ poll, p.answer? = some poll := by
    unfold Poller.answer?
    cases hl : p.polls with
    | nil => exact absurd hl hpolls
    | cons poll polls => exact ⟨poll, rfl⟩
  unfold abortRequested
  simp only [Action.after_get_bind, Action.get_bind_run, hp, hanswer]
  cases poll with
  | fails text =>
    refine ⟨none, ?_, ⟨p.next, rfl, hnext⟩, fun b t hrun => by cases hrun⟩
    exact Prod.ext (List.filterMap_append (l := s.host.events)) rfl
  | answers v =>
    -- whether the phase changes has nothing to do with what is seen
    have hrun : ∃ t, (do
        inside (setPoller (some p.next))
        outside (Host.notify (.poll (some v)))
        if v.truth && p.marks then outside Host.markAborting
        pure v.truth : Work R Bool) s = .ok v.truth t ∧ t.talk = (s.answers ++ [some v], s.host.requests) ∧
          t.engine.hooks.poller = some p.next := by
      have htalk : (s.host.events ++ [Event.poll (some v) s.host.phase]).filterMap Event.answer? =
          s.answers ++ [some v] := List.filterMap_append (l := s.host.events)
      cases hmark : v.truth && p.marks with
      | true => exact ⟨_, rfl, Prod.ext htalk rfl, rfl⟩
      | false => exact ⟨_, rfl, Prod.ext htalk rfl, rfl⟩
    obtain ⟨t, hrun, htalk, hpoller⟩ := hrun
    rw [Action.after_ok hrun]
    refine ⟨some v, htalk, ⟨p.next, hpoller, hnext⟩, fun b u hok => ⟨v, rfl, ?_⟩⟩
    rw [hrun] at hok
    cases hok
    rfl

/-! ### Work that ends at a yes -/

/-- If the last moment is a yes, the verdict is that the user aborted, and the best point is as it was then. -/
def StopsAtYes (res : EStateM.Result Fault (Session R) Verdict) (ms : List (Moment R)) : Prop :=
  ∀ front yes w, ms = front ++ [.asked (some yes) w] → yes.truth = true → ∀ v t, res = .ok v t →
    v = .userAbort ∧ t.engine.results.incumbent = w.engine.results.incumbent

/-- What is seen of an action has a property, and the action ends at a yes. -/
def Shows (p : List (Moment R) → Prop) (act : Work R Verdict) (s : Session R) : Prop :=
  ∃ ms, Seen act s ms ∧ p ms ∧ StopsAtYes (act s) ms

/-- Nothing is seen, or the call with this number comes first and then the rest of the protocol. -/
inductive Resumed (s : Session R) (i : Nat) : List (Moment R) → Prop where
  | ended : Resumed s i []
  | called {x : Session R} {r : Request R} {rest : List (Moment R)} (hcall : OnPlan s i r x)
      (hrest : Protocol s (i + 1) rest) : Resumed s i (.called r x :: rest)

theorem stopsAtYes_nil (res : EStateM.Result Fault (Session R) Verdict) : StopsAtYes res [] := by
  intro front yes w hsplit
  simp at hsplit

theorem stopsAtYes_error (fault : Fault) (t : Session R) (ms : List (Moment R)) :
    StopsAtYes (.error fault t) ms := by
  intro front yes w hsplit hyes v u hrun
  cases hrun

/-- A moment that is no yes before the others. -/
theorem StopsAtYes.cons {res : EStateM.Result Fault (Session R) Verdict} {ms : List (Moment R)} (h : StopsAtYes res ms)
    {m : Moment R} (hm : ∀ yes w, m = .asked (some yes) w → yes.truth = false) : StopsAtYes res (m :: ms) := by
  intro front yes w hsplit hyes
  cases front with
  | nil =>
    obtain ⟨rfl, -⟩ := List.cons.inj hsplit
    rw [hm yes w rfl] at hyes
    cases hyes
  | cons m' front =>
    obtain ⟨-, hsplit⟩ := List.cons.inj hsplit
    exact h front yes w hsplit hyes

namespace Shows

variable {s : Session R} {p : List (Moment R) → Prop}

/-- Nothing is seen. -/
theorem silent {act : Work R Verdict} (hp : p []) (h : (act.after s).talk = s.talk) : Shows p act s :=
  ⟨[], .silent h, hp, stopsAtYes_nil _⟩

/-- After work in which nothing is seen. -/
protected theorem bind {α : Type} {act : Work R α} {f : α → Work R Verdict} (hp : p []) (hact : Keeps Session.talk act)
    (hf : ∀ a u, act s = .ok a u → Shows p (f a) u) : Shows p (act >>= f) s := by
  cases hrun : act s with
  | error fault t =>
    exact silent hp ((congrArg _ (Action.after_error (Action.bind_error hrun f))).trans (hact.error hrun))
  | ok a u =>
    obtain ⟨ms, hseen, hms, hstops⟩ := hf a u hrun
    refine ⟨ms, hseen.after_bind hact hrun, hms, ?_⟩
    rwa [Action.bind_ok hrun]

/-- After a look at the session. -/
theorem get_bind {f : Session R → Work R Verdict} (h : Shows p (f s) s) : Shows p (get >>= f) s := by
  obtain ⟨ms, hseen, hms, hstops⟩ := h
  exact ⟨ms, hseen.get_bind, hms, hstops⟩

/-- The question whether to abort comes first, and what follows a no. -/
theorem asked {s₀ : Session R} {i : Nat} {rest : Work R Verdict} (hs : s.Polled)
    (hrest : ∀ u, abortRequested s = .ok false u → Shows (Resumed s₀ i) rest u) :
    Shows (Protocol s₀ i) (do if ← abortRequested then pure .userAbort else rest) s := by
  obtain ⟨answer, htalk, -, hanswer⟩ := abortRequested_asks hs
  have hseen : Seen abortRequested s [.asked answer s] := .asked htalk
  cases hrun : abortRequested s with
  | error fault t =>
    refine ⟨_, .stop hrun hseen, .asked i answer s, ?_⟩
    rw [Action.bind_error hrun]
    exact stopsAtYes_error _ _ _
  | ok abort u =>
    obtain ⟨v, rfl, hv⟩ := hanswer abort u hrun
    cases abort with
    | true =>
      refine ⟨_, .bind hrun hseen (.silent rfl), .asked i (some v) s, ?_⟩
      rw [Action.bind_ok hrun]
      intro front yes w hsplit hyes verdict t hend
      cases hend
      obtain ⟨rfl, rfl⟩ : v = yes ∧ s = w := by simpa using congrArg List.getLast? hsplit
      exact ⟨rfl, congrArg (fun c => c.results.incumbent) (keeps_abortRequested.ok hrun)⟩
    | false =>
      obtain ⟨ms, hms, hresumed, hstops⟩ := hrest u hrun
      refine ⟨_, .bind hrun hseen hms, ?_, ?_⟩
      · cases hresumed with
        | ended => exact .asked i (some v) s
        | called hcall hprotocol => exact .slice hv hcall hprotocol
      · rw [Action.bind_ok hrun]
        refine hstops.cons fun yes w hyes => ?_
        cases hyes
        exact hv

end Shows

/-! ### Slices -/

/-- What follows a search is not seen and changes neither the verdict nor the best point. -/
theorem Shows.conclude {p : List (Moment R) → Prop} {act : Work R Verdict} {s : Session R} (h : Shows p act s) :
    Shows p (act >>= conclude) s := by
  obtain ⟨ms, hseen, hms, hstops⟩ := h
  cases hrun : act s with
  | error fault t =>
    refine ⟨ms, .stop hrun hseen, hms, ?_⟩
    rw [Action.bind_error hrun]
    exact stopsAtYes_error _ _ _
  | ok verdict y =>
    refine ⟨ms, ?_, hms, fun front yes w hsplit hyes v t hend => ?_⟩
    · have hbind := hseen.bind hrun (.of_keeps (talk_conclude verdict) y)
      rwa [List.append_nil] at hbind
    · rw [Action.bind_ok hrun] at hend
      obtain ⟨rfl, hplain⟩ := conclude_ok hend
      obtain ⟨hv, hincumbent⟩ := hstops front yes w hsplit hyes v y hrun
      have hlast : t.engine.results.incumbent = y.engine.results.incumbent :=
        (congrArg (fun c => c.results.incumbent) hplain).trans y.core.store_incumbent
      exact ⟨hv, hlast.trans hincumbent⟩

/-- A point in the first second and a better one in the next two, when somebody wants to stop. -/
def interrupted : List (Outcome Extended) :=
  [⟨.rat 1, none, .feasible, [some (.rat 5)], none⟩, ⟨.rat 2, none, .feasible, [some (.rat 3)], none⟩]

end Optima.Engine
