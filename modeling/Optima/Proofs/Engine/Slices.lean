import Optima.Proofs.Engine.Outcomes

/-!
# Runs of slices

A search in slices makes a call, takes note of its outcome, asks whether to abort, and begins again with twice the
time.  `Slicing plan slice outs s calls res` is that as a relation: begun in the session `s` with a slice of this length
and these outcomes to come, the search makes these calls and ends in `res`.  There is one constructor for every way
to end and one for going on, so what holds of all runs is an induction on it with a case for each of them.

The relation describes exactly the runs of `slices`, once there is a search that can be called (`slices_slicing`,
`Slicing.eq`).  Its first consequences are what the calls are (`Slicing.requests`), and that outcomes beyond those that
were used do not matter (`Slicing.extend`).
-/

namespace Optima

namespace Engine

variable {R : Type} [Scalar R]

open Search (Outcome Request)

open Optima.Action (Keeps)

/-- The time a call may take when a slice of this length begins at this time. -/
def Plan.budget (plan : Plan R) (slice clock : R) : R :=
  if plan.sliced then Scalar.smaller (plan.deadline - clock) slice else plan.deadline - clock

/-- Whether a search ends with this outcome. -/
def Plan.endsWith (plan : Plan R) (o : Outcome R) : Bool :=
  !plan.sliced || !o.status.interrupted || plan.firstOnly

theorem plan_eq_ok {e : Engine R} {clock : R} {plan : Plan R} (h : e.plan clock = .ok plan) :
    deadline clock (e.settings.get .timeout) = .ok plan.deadline ∧
      plan.sliced = (e.hooks.poller.isSome && e.isMixed) ∧
      plan.firstOnly = (e.settings.get .breakAtFirst).truth := by
  obtain ⟨d, hdeadline, hplan⟩ := except_bind_eq_ok.1 h
  cases hplan
  exact ⟨hdeadline, rfl, rfl⟩

/-- There is time left for a slice of this length, and this is the call that begins it. -/
structure Opens (plan : Plan R) (slice : R) (s : Session R) (r : Request R) : Prop where
  time : Scalar.le (plan.deadline - s.host.clock) Scalar.zero = false
  search : s.engine.search = some r.search
  budget : r.budget = plan.budget slice s.host.clock
  pointLimit : r.pointLimit = plan.pointLimit

/-- The session when a call has been made. -/
def Session.calling (s : Session R) (r : Request R) : Session R :=
  { s with host := { s.host with requests := s.host.requests ++ [r] } }

/-! ### The beginning of a slice -/

theorem beginSlice_expired {plan : Plan R} {s : Session R}
    (h : Scalar.le (plan.deadline - s.host.clock) Scalar.zero = true) (slice : R) :
    beginSlice plan slice s = .ok (some s.engine.expired) s := by
  unfold beginSlice
  rw [Action.get_bind_run, if_pos h]
  rfl

theorem Opens.request_run {plan : Plan R} {slice : R} {s : Session R} {r : Request R} (h : Opens plan slice s r) :
    request r.budget r.pointLimit s = .ok ⟨⟩ (s.calling r) := by
  unfold request
  rw [Action.get_bind_run, h.search]
  rfl

theorem Opens.run {plan : Plan R} {slice : R} {s : Session R} {r : Request R} (h : Opens plan slice s r) :
    beginSlice plan slice s = .ok none (s.calling r) := by
  have hrequest := h.request_run
  rw [h.budget, h.pointLimit] at hrequest
  unfold beginSlice
  rw [Action.get_bind_run, if_neg (by simp [h.time])]
  exact Action.bind_ok hrequest _

/-- Either the time is up, or a slice begins with a call. -/
theorem expired_or_opens (plan : Plan R) (slice : R) {s : Session R} (hsearch : s.engine.search.isSome = true) :
    Scalar.le (plan.deadline - s.host.clock) Scalar.zero = true ∨ ∃ r, Opens plan slice s r := by
  obtain ⟨search, hsearch⟩ := Option.isSome_iff_exists.1 hsearch
  cases htime : Scalar.le (plan.deadline - s.host.clock) Scalar.zero with
  | true => exact .inl rfl
  | false => exact .inr ⟨⟨search, plan.budget slice s.host.clock, plan.pointLimit⟩, htime, hsearch, rfl, rfl⟩

/-! ### The relation -/

/-- A search in slices, from its beginning to its end: the calls it makes, and how it ends. -/
inductive Slicing (plan : Plan R) :
    R → List (Outcome R) → Session R → List (Request R) → EStateM.Result Fault (Session R) Verdict → Prop
  /-- The time is up. -/
  | expired {slice : R} {outs : List (Outcome R)} {s : Session R}
      (htime : Scalar.le (plan.deadline - s.host.clock) Scalar.zero = true) :
      Slicing plan slice outs s [] (.ok s.engine.expired s)
  /-- There are no outcomes any more. -/
  | exhausted {slice : R} {s : Session R} {r : Request R} (hopens : Opens plan slice s r) :
      Slicing plan slice [] s [r] (.error (.failed "script exhausted") (s.calling r))
  /-- The outcome is a failure, or somebody who was told of it failed. -/
  | broken {slice : R} {o : Outcome R} {outs : List (Outcome R)} {s w : Session R} {r : Request R} {fault : Fault}
      (hopens : Opens plan slice s r) (htake : takeOutcome o (s.calling r) = .error fault w) :
      Slicing plan slice (o :: outs) s [r] (.error fault w)
  /-- The outcome is the last one. -/
  | ended {slice : R} {o : Outcome R} {outs : List (Outcome R)} {s w : Session R} {r : Request R}
      (hopens : Opens plan slice s r) (htake : takeOutcome o (s.calling r) = .ok ⟨⟩ w)
      (hend : plan.endsWith o = true) : Slicing plan slice (o :: outs) s [r] (.ok o.status.verdict w)
  /-- There was no answer to the question whether to abort. -/
  | unanswered {slice : R} {o : Outcome R} {outs : List (Outcome R)} {s w x : Session R} {r : Request R} {fault : Fault}
      (hopens : Opens plan slice s r) (htake : takeOutcome o (s.calling r) = .ok ⟨⟩ w)
      (hend : plan.endsWith o = false) (habort : abortRequested w = .error fault x) :
      Slicing plan slice (o :: outs) s [r] (.error fault x)
  /-- The answer was yes. -/
  | aborted {slice : R} {o : Outcome R} {outs : List (Outcome R)} {s w x : Session R} {r : Request R}
      (hopens : Opens plan slice s r) (htake : takeOutcome o (s.calling r) = .ok ⟨⟩ w)
      (hend : plan.endsWith o = false) (habort : abortRequested w = .ok true x) :
      Slicing plan slice (o :: outs) s [r] (.ok .userAbort x)
  /-- The answer was no, and the search goes on from the best point with twice the time. -/
  | next {slice : R} {o : Outcome R} {outs : List (Outcome R)} {s w x y : Session R} {r : Request R}
      {calls : List (Request R)} {res : EStateM.Result Fault (Session R) Verdict}
      (hopens : Opens plan slice s r) (htake : takeOutcome o (s.calling r) = .ok ⟨⟩ w)
      (hend : plan.endsWith o = false) (habort : abortRequested w = .ok false x) (hrestart : restart x = .ok ⟨⟩ y)
      (hrest : Slicing plan (Scalar.two * slice) outs y calls res) :
      Slicing plan slice (o :: outs) s (r :: calls) res

theorem slices_expired {plan : Plan R} {s : Session R}
    (h : Scalar.le (plan.deadline - s.host.clock) Scalar.zero = true) (slice : R) (outs : List (Outcome R)) :
    slices plan slice outs s = .ok s.engine.expired s := by
  cases outs <;> exact Action.bind_ok (beginSlice_expired h slice) _

theorem slices_nil {plan : Plan R} {slice : R} {s : Session R} {r : Request R} (h : Opens plan slice s r) :
    slices plan slice [] s = .error (.failed "script exhausted") (s.calling r) :=
  Action.bind_ok h.run _

/-- What follows the call when there is an outcome. -/
theorem slices_cons {plan : Plan R} {slice : R} {s : Session R} {r : Request R} (h : Opens plan slice s r)
    (o : Outcome R) (outs : List (Outcome R)) : slices plan slice (o :: outs) s = (do
      takeOutcome o
      if plan.endsWith o then pure o.status.verdict
      else if ← abortRequested then pure .userAbort
      else
        restart
        slices plan (Scalar.two * slice) outs : Work R Verdict) (s.calling r) :=
  Action.bind_ok h.run _

/-- The search goes through each of the ways to end as the relation says. -/
theorem Slicing.eq {plan : Plan R} {slice : R} {outs : List (Outcome R)} {s : Session R} {calls : List (Request R)}
    {res : EStateM.Result Fault (Session R) Verdict} (h : Slicing plan slice outs s calls res) :
    slices plan slice outs s = res := by
  induction h with
  | expired htime => exact slices_expired htime _ _
  | exhausted hopens => exact slices_nil hopens
  | broken hopens htake => rw [slices_cons hopens, Action.bind_error htake]
  | ended hopens htake hend =>
    rw [slices_cons hopens, Action.bind_ok htake, if_pos hend]
    rfl
  | unanswered hopens htake hend habort =>
    rw [slices_cons hopens, Action.bind_ok htake, if_neg (by simp [hend]), Action.bind_error habort]
  | aborted hopens htake hend habort =>
    rw [slices_cons hopens, Action.bind_ok htake, if_neg (by simp [hend]), Action.bind_ok habort]
    rfl
  | next hopens htake hend habort hrestart _ ih =>
    rw [slices_cons hopens, Action.bind_ok htake, if_neg (by simp [hend]), Action.bind_ok habort]
    exact (Action.bind_ok hrestart _).trans ih

omit [Scalar R] in
/-- Whether there is a search can be told from the core. -/
theorem isSome_of_core {s t : Session R} (h : t.core.handed = s.core.handed)
    (hsearch : s.engine.search.isSome = true) : t.engine.search.isSome = true := by
  have hmap (s : Session R) : s.engine.search.isSome = s.core.handed.isSome := by simp [Session.core]
  rw [hmap, h, ← hmap]
  exact hsearch

omit [Scalar R] in
/-- A restart goes through. -/
theorem restart_run (s : Session R) : ∃ t, restart s = .ok ⟨⟩ t := by
  unfold restart
  rw [Action.get_bind_run]
  cases s.engine.results.incumbent with
  | none => exact ⟨s, rfl⟩
  | some point =>
    simp only
    unfold updateSearch
    rw [Action.get_bind_run]
    cases s.engine.search with
    | none => exact ⟨s, rfl⟩
    | some search => exact ⟨_, rfl⟩

/-- Every search in slices that has something to call is described by the relation. -/
theorem slices_slicing (plan : Plan R) (slice : R) (outs : List (Outcome R)) {s : Session R}
    (hsearch : s.engine.search.isSome = true) :
    ∃ calls, Slicing plan slice outs s calls (slices plan slice outs s) := by
  suffices h : ∃ calls res, Slicing plan slice outs s calls res by
    obtain ⟨calls, res, h⟩ := h
    exact ⟨calls, h.eq ▸ h⟩
  induction outs generalizing slice s with
  | nil =>
    rcases expired_or_opens plan slice hsearch with htime | ⟨r, hopens⟩
    · exact ⟨_, _, .expired htime⟩
    · exact ⟨_, _, .exhausted hopens⟩
  | cons o outs ih =>
    rcases expired_or_opens plan slice hsearch with htime | ⟨r, hopens⟩
    · exact ⟨_, _, .expired htime⟩
    cases htake : takeOutcome o (s.calling r) with
    | error fault w => exact ⟨_, _, .broken hopens htake⟩
    | ok a w =>
      cases hend : plan.endsWith o with
      | true => exact ⟨_, _, .ended hopens htake hend⟩
      | false =>
        cases habort : abortRequested w with
        | error fault x => exact ⟨_, _, .unanswered hopens htake hend habort⟩
        | ok abort x =>
          cases abort with
          | true => exact ⟨_, _, .aborted hopens htake hend habort⟩
          | false =>
            obtain ⟨y, hrestart⟩ := restart_run x
            -- none of this takes the search away
            have hsame : y.core.handed = s.core.handed := by
              rw [keeps_restart.ok hrestart, keeps_abortRequested.ok habort, (takeOutcome_ok htake).2]
              rfl
            obtain ⟨calls, res, hrest⟩ := ih (Scalar.two * slice) (isSome_of_core hsame hsearch)
            exact ⟨_, _, .next hopens htake hend habort hrestart hrest⟩

/-! ### What the relation says about calls -/

/-- The core but for the results. -/
def Core.outer (c : Core R) : Core R :=
  { c with results := .start false Scalar.zero }

/-- Whether or not it stops with a fault, taking note of an outcome moves the clock and leaves the rest but for the
results alone. -/
theorem takeOutcome_outer (o : Outcome R) (s : Session R) :
    ((takeOutcome o).after s).core.outer = (s.spent o).core.outer := by
  have hresults (f : Results R → Results R) : Keeps (fun s => s.core.outer) (updateResults f : Work R Unit) :=
    fun _ => rfl
  exact view_takeOutcome hresults (fun m => (keeps_send m).map Core.outer) o s

/-- The clock moves by the seconds of the outcome. -/
theorem clock_takeOutcome (o : Outcome R) (s : Session R) :
    ((takeOutcome o).after s).host.clock = s.host.clock + o.seconds :=
  congrArg Core.clock (takeOutcome_outer o s)

/-- The calls that the relation speaks of are the requests that are made. -/
theorem Slicing.requests {plan : Plan R} {slice : R} {outs : List (Outcome R)} {s : Session R}
    {calls : List (Request R)} {res : EStateM.Result Fault (Session R) Verdict}
    (h : Slicing plan slice outs s calls res) :
    (Action.stateOf res).host.requests = s.host.requests ++ calls := by
  have htaken {o : Outcome R} {s w : Session R} {r : Request R} (hw : (takeOutcome o).after (s.calling r) = w) :
      w.host.requests = s.host.requests ++ [r] := by
    have houter := congrArg Core.requests (takeOutcome_outer o (s.calling r))
    rw [hw] at houter
    exact houter
  induction h with
  | expired htime => exact (List.append_nil _).symm
  | exhausted hopens => rfl
  | broken hopens htake => exact htaken (Action.after_error htake)
  | ended hopens htake hend => exact htaken (Action.after_ok htake)
  | unanswered hopens htake hend habort =>
    exact (congrArg Core.requests (keeps_abortRequested.error habort)).trans (htaken (Action.after_ok htake))
  | aborted hopens htake hend habort =>
    exact (congrArg Core.requests (keeps_abortRequested.ok habort)).trans (htaken (Action.after_ok htake))
  | next hopens htake hend habort hrestart _ ih =>
    have hsame := congrArg Core.requests ((keeps_restart.ok hrestart).trans (keeps_abortRequested.ok habort))
    rw [ih]
    exact (congrArg (· ++ _) (hsame.trans (htaken (Action.after_ok htake)))).trans (List.append_assoc ..)

/-- The calls that were made between two sessions. -/
def Session.callsSince (s t : Session R) : List (Request R) :=
  t.host.requests.drop s.host.requests.length

/-- The calls of a search in slices are those it makes. -/
theorem Slicing.callsSince {plan : Plan R} {slice : R} {outs : List (Outcome R)} {s : Session R}
    {calls : List (Request R)} {res : EStateM.Result Fault (Session R) Verdict}
    (h : Slicing plan slice outs s calls res) : s.callsSince (Action.stateOf res) = calls := by
  rw [Session.callsSince, h.requests, List.drop_left]

/-- A search that got an outcome for each of its calls has no use for further ones. -/
theorem Slicing.extend {plan : Plan R} {slice : R} {outs : List (Outcome R)} {s : Session R}
    {calls : List (Request R)} {res : EStateM.Result Fault (Session R) Verdict}
    (h : Slicing plan slice outs s calls res) (hlength : calls.length ≤ outs.length) (more : List (Outcome R)) :
    Slicing plan slice (outs ++ more) s calls res := by
  induction h with
  | expired htime => exact .expired htime
  | exhausted hopens => simp at hlength
  | broken hopens htake => exact .broken hopens htake
  | ended hopens htake hend => exact .ended hopens htake hend
  | unanswered hopens htake hend habort => exact .unanswered hopens htake hend habort
  | aborted hopens htake hend habort => exact .aborted hopens htake hend habort
  | next hopens htake hend habort hrestart _ ih =>
    exact .next hopens htake hend habort hrestart (ih (by simpa using hlength))

end Engine

end Optima
