import Mathlib.Analysis.SpecialFunctions.Log.Base
import Optima.Proofs.Engine.Course
import Optima.Proofs.Engine.Slacks

/-!
# The time of a solve

Over the exact numbers the clock only moves by the seconds of the outcomes, and a call may take at most what is left of
the time (`Due.cases`).  `Pace` is what remains of a search in slices when only the times are looked at, and what holds
of all times is an induction on it.

When no outcome takes longer than its call allows, a search never goes on beyond the deadline (`Pace.inTime`).  When a
search is said to have found nothing only after all the time that its call allows, a timeout means that the time is
really up, or that the first slice of a search that is to stop at the first point has found none
(`Slicing.timeout_cases`).

The calls of a search in slices may take twice as long each time.  When an outcome with which the search goes on takes
at least as long as its call allows, the time that is left goes down by the length of the slice, so after `n` calls it
has gone down by `2 ^ n - 1` seconds (`Pace.calls_lt`).  That bounds the number of calls by a logarithm.
-/

namespace Optima

namespace Extended

theorem lt_rat {a b : Rat} : (rat a).lt (rat b) = true ↔ a < b := decide_eq_true_iff

theorem le_posInf_rat (a : Rat) : posInf.le (rat a) = false := rfl

end Extended

namespace Engine

open Search (Outcome Request)

open Extended (rat posInf lt_rat)

/-! ### The deadline -/

theorem number_of_comparable {v : Value Extended} {x : Extended} (h : v.comparable = .ok x) : v.number? = some x := by
  unfold Value.comparable at h
  split at h
  · next y hy =>
    cases h
    exact hy
  · cases h

/-- A value that is a number is converted to that number, and it counts as true unless it is zero. -/
theorem comparable_eq {v : Value Extended} {x : Extended} (h : v.comparable = .ok x) :
    v.toReal = .ok x ∧ v.truth = !x.same (rat 0) := by
  have hnumber := number_of_comparable h
  have hinteger (n : Int) : (n != 0) = !(rat (n : Rat)).same (rat 0) := by
    have hsame : (n == 0) = (rat (n : Rat)).same (rat 0) := by
      rw [Bool.eq_iff_iff, beq_iff_eq, Extended.same_rat]
      exact Int.cast_eq_zero.symm
    exact congrArg not hsame
  cases v with
  | flag b =>
    obtain rfl := Option.some.inj hnumber
    cases b <;> exact ⟨rfl, rfl⟩
  | integer n =>
    obtain rfl := Option.some.inj hnumber
    exact ⟨rfl, hinteger n⟩
  | real y =>
    obtain rfl := Option.some.inj hnumber
    exact ⟨rfl, rfl⟩
  | member m =>
    obtain ⟨title, label, code⟩ := m
    cases code with
    | number n =>
      obtain rfl := Option.some.inj hnumber
      exact ⟨rfl, hinteger n⟩
    | word w => cases hnumber
  | nothing => cases hnumber
  | text w => cases hnumber
  | list items => cases hnumber

/-- A positive number as a timeout sets the deadline. -/
theorem deadline_of_positive {clock t : Extended} {v : Value Extended} (hv : v.comparable = .ok t)
    (ht : (rat 0).lt t = true) : deadline clock v = .ok (clock + t) := by
  obtain ⟨hreal, htruth⟩ := comparable_eq hv
  have hnonzero : t.same (rat 0) = false := by
    cases t with
    | rat q =>
      have hq : (0 : Rat) < q := lt_rat.1 ht
      exact beq_false_of_ne hq.ne'
    | posInf => rfl
    | negInf => cases ht
    | nan => cases ht
  unfold deadline
  rw [htruth, hnonzero, hv, hreal]
  show (if (rat 0).lt t = true then _ else _) = _
  rw [if_pos ht]
  rfl

/-- Only a positive number as a timeout sets a deadline that comes. -/
theorem deadline_cases {c : Rat} {v : Value Extended} {d : Extended} (h : deadline (rat c) v = .ok d) :
    d = posInf ∨ ∃ t : Rat, v.comparable = .ok (rat t) ∧ 0 < t ∧ d = rat (c + t) := by
  unfold deadline at h
  split at h
  · obtain ⟨t, ht, h⟩ := except_bind_eq_ok.1 h
    split at h
    · next hpositive =>
      rw [(comparable_eq ht).1] at h
      cases h
      cases t with
      | rat q => exact .inr ⟨q, ht, lt_rat.1 hpositive, rfl⟩
      | posInf => exact .inl rfl
      | negInf => cases hpositive
      | nan => cases hpositive
    · cases h
      exact .inl rfl
  · cases h
    exact .inl rfl

/-! ### The pace of a search in slices -/

section

variable {R : Type} [Scalar R]

/-- There is time left when a slice of this length is to begin at this time, and the call may take its share of it. -/
structure Due (plan : Plan R) (slice clock : R) (r : Request R) : Prop where
  time : Scalar.le (plan.deadline - clock) Scalar.zero = false
  budget : r.budget = plan.budget slice clock

/-- The pace of a search in slices, begun at this time: what its calls may take, and the time when it ends. -/
inductive Pace (plan : Plan R) : R → R → List (Outcome R) → List (Request R) → R → Prop where
  /-- The time is up. -/
  | expired {slice clock : R} {outs : List (Outcome R)}
      (htime : Scalar.le (plan.deadline - clock) Scalar.zero = true) : Pace plan slice clock outs [] clock
  /-- There is no outcome for the call. -/
  | exhausted {slice clock : R} {r : Request R} (hdue : Due plan slice clock r) : Pace plan slice clock [] [r] clock
  /-- The outcome of the call is the last one. -/
  | last {slice clock : R} {o : Outcome R} {outs : List (Outcome R)} {r : Request R} (hdue : Due plan slice clock r) :
      Pace plan slice clock (o :: outs) [r] (clock + o.seconds)
  /-- The search goes on with twice the time. -/
  | next {slice clock finish : R} {o : Outcome R} {outs : List (Outcome R)} {r : Request R} {calls : List (Request R)}
      (hdue : Due plan slice clock r) (hend : plan.endsWith o = false)
      (hrest : Pace plan (Scalar.two * slice) (clock + o.seconds) outs calls finish) :
      Pace plan slice clock (o :: outs) (r :: calls) finish

theorem Opens.due {plan : Plan R} {slice : R} {s : Session R} {r : Request R} (h : Opens plan slice s r) :
    Due plan slice s.host.clock r :=
  ⟨h.time, h.budget⟩

/-- The clock moves when an outcome is taken note of, and at no other time. -/
theorem Slicing.pace {plan : Plan R} {slice : R} {outs : List (Outcome R)} {s : Session R} {calls : List (Request R)}
    {res : EStateM.Result Fault (Session R) Verdict} (h : Slicing plan slice outs s calls res) :
    Pace plan slice s.host.clock outs calls (Action.stateOf res).host.clock := by
  -- nothing that comes after an outcome was taken note of moves the clock
  have hclock {o : Outcome R} {s w x : Session R} {r : Request R} (hw : (takeOutcome o).after (s.calling r) = w)
      (hx : x.core = w.core) : x.host.clock = s.host.clock + o.seconds := by
    have hsame : x.host.clock = w.host.clock := congrArg Core.clock hx
    rw [hsame, ← hw]
    exact clock_takeOutcome o (s.calling r)
  induction h with
  | expired htime => exact .expired htime
  | exhausted hopens => exact .exhausted hopens.due
  | broken hopens htake =>
    rw [Action.stateOf, hclock (Action.after_error htake) rfl]
    exact .last hopens.due
  | ended hopens htake hend =>
    rw [Action.stateOf, hclock (Action.after_ok htake) rfl]
    exact .last hopens.due
  | unanswered hopens htake hend habort =>
    rw [Action.stateOf, hclock (Action.after_ok htake) (keeps_abortRequested.error habort)]
    exact .last hopens.due
  | aborted hopens htake hend habort =>
    rw [Action.stateOf, hclock (Action.after_ok htake) (keeps_abortRequested.ok habort)]
    exact .last hopens.due
  | next hopens htake hend habort hrestart _ ih =>
    have hsame := (keeps_restart.ok hrestart).trans (keeps_abortRequested.ok habort)
    rw [hclock (Action.after_ok htake) hsame] at ih
    exact .next hopens.due hend ih

end

/-! ### Exact times -/

theorem smaller_rat (a b : Rat) : Scalar.smaller (rat a) (rat b) = rat (min a b) := by
  unfold Scalar.smaller
  split
  · next hlt => rw [min_eq_right (lt_rat.1 hlt).le]
  · next hle => rw [min_eq_left (not_lt.1 fun hlt => hle (lt_rat.2 hlt))]

/-- The deadline is a time, or it never comes. -/
def Plan.Measured (plan : Plan Extended) : Prop :=
  plan.deadline = posInf ∨ ∃ q, plan.deadline = rat q

/-- The seconds of outcomes are rational. -/
def Measured (outs : List (Outcome Extended)) : Prop :=
  ∀ o ∈ outs, ∃ q, o.seconds = rat q

theorem measured_of_plan {e : Engine Extended} {c : Rat} {plan : Plan Extended} (h : e.plan (rat c) = .ok plan) :
    plan.Measured := by
  rcases deadline_cases (plan_eq_ok h).1 with hnever | ⟨t, -, -, hdeadline⟩
  · exact .inl hnever
  · exact .inr ⟨c + t, hdeadline⟩

variable {plan : Plan Extended} {outs : List (Outcome Extended)} {calls : List (Request Extended)}
  {finish : Extended} {slice clock : Rat}

/-- The time that a call may take: all that is left, or the length of the slice if that is less. -/
theorem Due.cases {r : Request Extended} (h : Due plan (rat slice) (rat clock) r) (hplan : plan.Measured) :
    (plan.deadline = posInf ∧ r.budget = if plan.sliced then rat slice else posInf) ∨
      ∃ q, plan.deadline = rat q ∧ clock < q ∧
        r.budget = rat (if plan.sliced then min (q - clock) slice else q - clock) := by
  obtain ⟨htime, hbudget⟩ := h
  rw [hbudget, Plan.budget]
  rcases hplan with hnever | ⟨q, hq⟩
  · rw [hnever]
    exact .inl ⟨rfl, rfl⟩
  · rw [hq, Extended.rat_sub] at htime ⊢
    have hleft : clock < q := by
      by_contra hle
      have hzero : Scalar.le (rat (q - clock)) Scalar.zero = true := Extended.le_rat.2 (by simpa using hle)
      rw [hzero] at htime
      cases htime
    refine .inr ⟨q, rfl, hleft, ?_⟩
    split
    · exact smaller_rat _ _
    · rfl

/-- When there is a deadline, it has not come, and a call may not take more than what is left of the time. -/
theorem Due.before {r : Request Extended} (h : Due plan (rat slice) (rat clock) r) {q : Rat}
    (hdeadline : plan.deadline = rat q) :
    clock < q ∧ r.budget = rat (if plan.sliced then min (q - clock) slice else q - clock) := by
  rcases h.cases (.inr ⟨q, hdeadline⟩) with ⟨hnever, -⟩ | ⟨q', hq', hleft, hbudget⟩
  · rw [hdeadline] at hnever
    cases hnever
  · rw [hdeadline] at hq'
    cases hq'
    exact ⟨hleft, hbudget⟩

theorem Due.atMost {r : Request Extended} (h : Due plan (rat slice) (rat clock) r) {q : Rat}
    (hdeadline : plan.deadline = rat q) : ∃ b, r.budget = rat b ∧ b ≤ q - clock := by
  refine ⟨_, (h.before hdeadline).2, ?_⟩
  split
  · exact min_le_left _ _
  · exact le_rfl

theorem endsWith_eq_false {R : Type} {plan : Plan R} {o : Outcome R} :
    plan.endsWith o = false ↔ plan.sliced = true ∧ o.status.interrupted = true ∧ plan.firstOnly = false := by
  simp [Plan.endsWith, and_assoc]

section

variable {S C : Extended} (h : Pace plan S C outs calls finish) (houts : Measured outs)
include h houts

/-- When every outcome with which a search goes on takes at least as long as its call allows, the slices before the
last one fit into the time that was left. -/
theorem Pace.calls_lt (hS : S = rat slice) (hC : C = rat clock) (hslice : 0 < slice) {q : Rat}
    (hdeadline : plan.deadline = rat q)
    (hlong : ∀ p ∈ calls.zip outs, p.2.status.interrupted = true → p.1.budget.le p.2.seconds = true) {n : Nat}
    (hn : calls.length = n + 1) : slice * (2 ^ n - 1) < q - clock := by
  have hfirst {r : Request Extended} {slice clock : Rat} (hdue : Due plan (rat slice) (rat clock) r) :
      slice * (2 ^ 0 - 1) < q - clock := by
    have hleft := (hdue.before hdeadline).1
    linarith
  induction h generalizing slice clock n with
  | expired htime => cases hn
  | exhausted hdue =>
    subst hS hC
    cases hn
    exact hfirst hdue
  | last hdue =>
    subst hS hC
    cases hn
    exact hfirst hdue
  | @next S C finish o outs r calls hdue hend hrest ih =>
    subst hS hC
    obtain ⟨⟨x, hx⟩, hlater⟩ := List.forall_mem_cons.1 houts
    obtain ⟨hlong, hlongs⟩ := List.forall_mem_cons.1 hlong
    cases n with
    | zero => exact hfirst hdue
    | succ n =>
      have hleft : 2 * slice * (2 ^ n - 1) < q - (clock + x) :=
        ih hlater rfl (by rw [hx]; rfl) (mul_pos two_pos hslice) hlongs (by simpa using hn)
      obtain ⟨hsliced, hinterrupted, -⟩ := endsWith_eq_false.1 hend
      have hspent : min (q - clock) slice ≤ x := by
        have hbudget := hlong hinterrupted
        rwa [(hdue.before hdeadline).2, if_pos hsliced, hx, Extended.le_rat] at hbudget
      have hpower : (1 : Rat) ≤ 2 ^ n := one_le_pow₀ one_le_two
      rw [pow_succ]
      rcases min_le_iff.1 hspent with hall | hslice'
      · -- no time is left, so there is no further call
        have hnone : 0 ≤ 2 * slice * (2 ^ n - 1) := by
          have hpositive : 0 ≤ 2 ^ n - (1 : Rat) := by linarith
          positivity
        linarith
      · linarith

end

/-! ### Whole solves -/

/-- The time is up when a search finds that there is none left. -/
theorem deadline_le_of_expired {c : Extended} (hplan : plan.Measured) (hclock : c = rat clock)
    (htime : Scalar.le (plan.deadline - c) Scalar.zero = true) : ∃ q, plan.deadline = rat q ∧ q ≤ clock := by
  rw [hclock] at htime
  rcases hplan with hnever | ⟨q, hq⟩
  · rw [hnever] at htime
    cases htime
  · rw [hq, Extended.rat_sub] at htime
    have hle := Extended.le_rat.1 htime
    exact ⟨q, hq, by simpa using hle⟩

/-- A call that took at least as long as it was allowed to took all the time that was left, or the whole slice. -/
theorem Due.spent {r : Request Extended} (h : Due plan (rat slice) (rat clock) r) (hplan : plan.Measured) {x : Rat}
    (hlimit : r.budget.le (rat x) = true) :
    (∃ q, plan.deadline = rat q ∧ q ≤ clock + x) ∨ (plan.sliced = true ∧ r.budget = rat slice) := by
  rcases h.cases hplan with ⟨-, hbudget⟩ | ⟨q, hq, -, hbudget⟩
  · split at hbudget
    · next hsliced => exact .inr ⟨hsliced, hbudget⟩
    · rw [hbudget, Extended.le_posInf_rat] at hlimit
      cases hlimit
  · split at hbudget
    · next hsliced =>
      rcases min_choice (q - clock) slice with hall | hslice
      · rw [hbudget, hall, Extended.le_rat] at hlimit
        exact .inl ⟨q, hq, by linarith⟩
      · exact .inr ⟨hsliced, by rw [hbudget, hslice]⟩
    · rw [hbudget, Extended.le_rat] at hlimit
      exact .inl ⟨q, hq, by linarith⟩

theorem verdict_eq_timeout {status : Search.Status} (h : status.verdict = .timeout) :
    status = .noSolutionFound := by
  cases status <;> first | rfl | cases h

/-- When a search is said to have found nothing only after all the time that its call allows, a timeout means that the
time is up, or that the first slice of a search that is to stop at the first point has found none. -/
theorem Slicing.timeout_cases {S : Extended} {s : Session Extended}
    {res : EStateM.Result Fault (Session Extended) Verdict} (h : Slicing plan S outs s calls res)
    (hplan : plan.Measured) (houts : Measured outs) (hS : S = rat slice) (hclock : s.host.clock = rat clock)
    (hlimit : ∀ p ∈ calls.zip outs, p.2.status = .noSolutionFound → p.1.budget.le p.2.seconds = true)
    {t : Session Extended} (hres : res = .ok .timeout t) :
    (∃ q c, plan.deadline = rat q ∧ t.host.clock = rat c ∧ q ≤ c) ∨
      (plan.sliced = true ∧ plan.firstOnly = true ∧ ∃ r o rest, calls = [r] ∧ outs = o :: rest ∧
        o.status = .noSolutionFound ∧ r.budget = S) := by
  -- when an outcome has been taken note of, the clock shows its seconds more
  have hmoved {o : Outcome Extended} {s w : Session Extended} {r : Request Extended} {clock x : Rat}
      (htake : takeOutcome o (s.calling r) = .ok ⟨⟩ w) (hs : s.host.clock = rat clock) (hx : o.seconds = rat x) :
      w.host.clock = rat (clock + x) := by
    have hw := clock_takeOutcome o (s.calling r)
    rw [Action.after_ok htake, hx] at hw
    exact hw.trans (congrArg (· + rat x) hs)
  induction h generalizing slice clock with
  | expired htime =>
    injection hres with hverdict hsame
    obtain ⟨q, hq, hle⟩ := deadline_le_of_expired hplan hclock htime
    exact .inl ⟨q, clock, hq, hsame ▸ hclock, hle⟩
  | exhausted hopens => cases hres
  | broken hopens htake => cases hres
  | unanswered hopens htake hend habort => cases hres
  | aborted hopens htake hend habort => cases hres
  | @ended S o outs s w r hopens htake hend =>
    injection hres with hverdict hsame
    subst hS hsame
    obtain ⟨⟨x, hx⟩, -⟩ := List.forall_mem_cons.1 houts
    have hstatus := verdict_eq_timeout hverdict
    have hlong := hlimit (r, o) (List.mem_cons_self ..) hstatus
    have hdue := hopens.due
    rw [hclock] at hdue
    rw [hx] at hlong
    rcases hdue.spent hplan hlong with ⟨q, hq, hle⟩ | ⟨hsliced, hbudget⟩
    · exact .inl ⟨q, clock + x, hq, hmoved htake hclock hx, hle⟩
    · -- the slice is over but not the time, so this was the end for another reason
      have hfirst : plan.firstOnly = true := by
        by_contra hmore
        have hgoes : plan.endsWith o = false :=
          endsWith_eq_false.2 ⟨hsliced, by rw [hstatus]; rfl, Bool.eq_false_iff.2 hmore⟩
        rw [hgoes] at hend
        cases hend
      exact .inr ⟨hsliced, hfirst, r, o, outs, rfl, rfl, hstatus, hbudget⟩
  | @next S o outs s w x y r calls res hopens htake hend habort hrestart hrest ih =>
    subst hS
    obtain ⟨⟨z, hz⟩, hlater⟩ := List.forall_mem_cons.1 houts
    have hy : y.host.clock = rat (clock + z) := by
      have hsame := congrArg Core.clock ((keeps_restart.ok hrestart).trans (keeps_abortRequested.ok habort))
      exact hsame.trans (hmoved htake hclock hz)
    have hlimits := (List.forall_mem_cons.1 hlimit).2
    rcases ih hlater rfl hy hlimits hres with hreached | ⟨-, hfirst, -⟩
    · exact .inl hreached
    · obtain ⟨-, -, hmore⟩ := endsWith_eq_false.1 hend
      rw [hmore] at hfirst
      cases hfirst

/-- A positive timeout is set, and from one session to the other the clock has moved by at least as much. -/
def Session.TimeUp (s t : Session Extended) : Prop :=
  ∃ timeout start finish : Rat, (s.engine.settings.get .timeout).comparable = .ok (rat timeout) ∧ 0 < timeout ∧
    s.host.clock = rat start ∧ t.host.clock = rat finish ∧ start + timeout ≤ finish

/-- A solve that cuts its search into slices, and is to stop at the first point, has made one call for a second, and
nothing was found. -/
structure Session.CutShort (s t : Session Extended) (outs : List (Outcome Extended)) : Prop where
  poller : s.engine.hooks.poller.isSome = true
  mixed : s.engine.isMixed = true
  firstOnly : (s.engine.settings.get .breakAtFirst).truth = true
  call : ∃ r o rest, s.callsSince t = [r] ∧ outs = o :: rest ∧ o.status = .noSolutionFound ∧ r.budget = rat 1

/-- When a search is said to have found nothing only after all the time that its call allows, a solve runs into the
timeout only when its time is up, or after the first second if it is cut into slices and is to stop at the first
point. -/
theorem solve_timeout {s t : Session Extended} (hused : Used s.engine) (hclock : s.host.clock = rat clock)
    (hsource : s.host.source = .script outs) (houts : Measured outs)
    (hlimit : ∀ p ∈ (s.callsSince t).zip outs, p.2.status = .noSolutionFound → p.1.budget.le p.2.seconds = true)
    (h : solve s = .ok .timeout t) : s.TimeUp t ∨ s.CutShort t outs := by
  rcases solve_course hused.fit with ⟨-, hok⟩ | ⟨plan, x, calls, res, hplan, hbegins, hslicing, htally, hok⟩
  · rcases (hok _ _ h).1 with hverdict | hverdict <;> cases hverdict
  obtain ⟨y, hres, -, -⟩ := hok _ _ h
  rw [Action.after_ok h] at htally
  have hafter : t.host.clock = y.host.clock := by
    rw [hres] at htally
    exact congrArg Prod.fst htally
  obtain ⟨hdeadline, hsliced, hfirst⟩ := plan_eq_ok hplan
  have hcalls : s.callsSince t = calls := hbegins.callsSince hslicing htally
  rw [hbegins.outcomes hsource] at hslicing
  rw [hcalls] at hlimit
  rw [hclock] at hplan hdeadline
  rcases hslicing.timeout_cases (measured_of_plan hplan) houts rfl (hbegins.clock.trans hclock) hlimit hres with
    ⟨q, c, hq, hc, hle⟩ | ⟨hcut, honly, r, o, rest, rfl, houtcome, hstatus, hbudget⟩
  · rcases deadline_cases hdeadline with hnever | ⟨timeout, htimeout, hpositive, hends⟩
    · rw [hq] at hnever
      cases hnever
    · rw [hq] at hends
      cases hends
      exact .inl ⟨timeout, clock, c, htimeout, hpositive, hclock, hafter.trans hc, hle⟩
  · rw [hsliced, Bool.and_eq_true] at hcut
    exact .inr ⟨hcut.1, hcut.2, hfirst ▸ honly, r, o, rest, hcalls, houtcome, hstatus, hbudget⟩

/-- Nothing is found in the first second, nor in the second one. -/
def fruitless : List (Outcome Extended) :=
  [⟨rat 1, none, .noSolutionFound, [], none⟩, ⟨rat 1, none, .noSolutionFound, [], none⟩]

/-- Two seconds are allowed, and somebody is asked whether to abort. -/
def fruitlessStart : Session Extended :=
  asking [.answers (.flag false)] [.setParameter "timeout" (.integer 2)] fruitless

theorem solve_timeout_fruitlessStart : ∃ t, solve fruitlessStart = .ok .timeout t ∧ fruitlessStart.TimeUp t := by
  have hused : Used fruitlessStart.engine := asking_used _ (by simp [Call.Even]) _
  have hverdict := Action.ok_of_answerOf? (show Action.answerOf? (solve fruitlessStart) = some .timeout by decide +kernel)
  have htimeout := solve_timeout hused (show fruitlessStart.host.clock = rat 0 from rfl)
    (show fruitlessStart.host.source = .script fruitless from rfl) (by simp [Measured, fruitless]) (by decide +kernel) hverdict
  refine ⟨_, hverdict, htimeout.resolve_right fun hcut => ?_⟩
  have hlater : (fruitlessStart.engine.settings.get .breakAtFirst).truth = false := by decide +kernel
  rw [hcut.firstOnly] at hlater
  cases hlater

/-- Nothing is found in the first second, and the best point of all in the second one. -/
def late : List (Outcome Extended) :=
  [⟨rat 1, none, .noSolutionFound, [], none⟩, ⟨rat 1, none, .optimal, [some (rat 0)], none⟩]

/-- No timeout is set, the first point is enough, and somebody is asked whether to abort. -/
def hastyStart : Session Extended :=
  asking [.answers (.flag false)] [.setParameter "break_at_first" (.flag true)] late

/-- A solve can run into a timeout that was never set, though the search found nothing only as long as its first call
did not allow more. -/
theorem timeout_never_set :
    ¬∀ (s t : Session Extended) (clock : Rat) (outs : List (Outcome Extended)), Used s.engine →
        s.host.clock = rat clock → s.host.source = .script outs → Measured outs →
          (∀ p ∈ (s.callsSince t).zip outs, p.2.status = .noSolutionFound → p.1.budget.le p.2.seconds = true) →
            solve s = .ok .timeout t → s.TimeUp t := by
  intro hall
  have hused : Used hastyStart.engine := asking_used _ (by simp [Call.Even]) _
  have hverdict := Action.ok_of_answerOf? (show Action.answerOf? (solve hastyStart) = some .timeout by decide +kernel)
  obtain ⟨timeout, -, -, htimeout, hpositive, -⟩ := hall hastyStart _ 0 late hused rfl rfl (by simp [Measured, late])
    (by decide +kernel) hverdict
  have hnone : (hastyStart.engine.settings.get .timeout).comparable = .ok (rat 0) := rfl
  rw [hnone] at htimeout
  cases htimeout
  exact lt_irrefl 0 hpositive

/-! ### The number of calls -/

/-- A number of slices that fits into the time, and one more, is at most the logarithm of the time. -/
theorem succ_le_ceil_logb {n : Nat} {t : Rat} (h : 2 ^ n - 1 < t) : n + 1 ≤ ⌈Real.logb 2 (t + 1)⌉₊ := by
  have hpower : (2 : ℝ) ^ n < t + 1 := by
    have hlt : (2 : Rat) ^ n < t + 1 := by linarith
    exact_mod_cast hlt
  have hpositive : (0 : ℝ) < t + 1 := (pow_pos two_pos n).trans hpower
  have hlog : (n : ℝ) < Real.logb 2 (t + 1) := by
    rw [Real.lt_logb_iff_rpow_lt one_lt_two hpositive, Real.rpow_natCast]
    exact hpower
  exact Nat.lt_ceil.2 hlog

/-- When every outcome with which a search goes on takes at least as long as its call allows, the number of calls is at
most the binary logarithm of the time that was left and one second more. -/
theorem Pace.length_le {S C : Extended} (h : Pace plan S C outs calls finish) (houts : Measured outs) (hS : S = rat 1)
    (hC : C = rat clock) {t : Rat} (hdeadline : plan.deadline = rat (clock + t))
    (hlong : ∀ p ∈ calls.zip outs, p.2.status.interrupted = true → p.1.budget.le p.2.seconds = true) :
    calls.length ≤ ⌈Real.logb 2 (t + 1)⌉₊ := by
  cases hn : calls.length with
  | zero => exact Nat.zero_le _
  | succ n =>
    have hlt := h.calls_lt houts hS hC one_pos hdeadline hlong hn
    exact succ_le_ceil_logb (by linarith)

theorem deadline_of_plan {e : Engine Extended} (hplan : e.plan (rat clock) = .ok plan) {t : Rat}
    (htimeout : (e.settings.get .timeout).comparable = .ok (rat t)) (ht : 0 < t) :
    plan.deadline = rat (clock + t) := by
  have hsome := (plan_eq_ok hplan).1
  rw [deadline_of_positive htimeout (lt_rat.2 ht)] at hsome
  exact (Except.ok.inj hsome).symm

/-- When every outcome with which a search may go on takes at least as long as its call allows, the number of calls is
at most the binary logarithm of the timeout and one second more.  So it ends for want of time: when there are as many
outcomes as that, it makes no difference which other outcomes there would be. -/
theorem slices_bounded {s : Session Extended} (hsearch : s.engine.search.isSome = true)
    (hclock : s.host.clock = rat clock) (hplan : s.engine.plan s.host.clock = .ok plan) {t : Rat}
    (htimeout : (s.engine.settings.get .timeout).comparable = .ok (rat t)) (ht : 0 < t) (houts : Measured outs)
    (hlong : ∀ p ∈ (s.callsSince ((slices plan Scalar.one outs).after s)).zip outs,
      p.2.status.interrupted = true → p.1.budget.le p.2.seconds = true) :
    (s.callsSince ((slices plan Scalar.one outs).after s)).length ≤ ⌈Real.logb 2 (t + 1)⌉₊ ∧
      (⌈Real.logb 2 (t + 1)⌉₊ ≤ outs.length → ∀ more,
        slices plan Scalar.one (outs ++ more) s = slices plan Scalar.one outs s) := by
  obtain ⟨calls, hslicing⟩ := slices_slicing plan Scalar.one outs hsearch
  rw [Action.after_eq, hslicing.callsSince] at hlong ⊢
  rw [hclock] at hplan
  have hlength := hslicing.pace.length_le houts rfl hclock (deadline_of_plan hplan htimeout ht) hlong
  exact ⟨hlength, fun henough more => (hslicing.extend (hlength.trans henough) more).eq⟩

/-- The search is ready, and three seconds are allowed. -/
def readyStart : Session Extended :=
  load.after (asking [.answers (.flag false)] [.setParameter "timeout" (.integer 3)] [])

/-- Slices for three seconds from the start. -/
def threeSeconds : Plan Extended :=
  ⟨readyStart.host.clock + rat 3, allPoints, true, false⟩

/-- Nothing is found in the first second, nor in the next two. -/
def hopeless : List (Outcome Extended) :=
  [⟨rat 1, none, .noSolutionFound, [], none⟩, ⟨rat 2, none, .feasible, [], none⟩]

theorem slices_bounded_hopeless :
    (readyStart.callsSince ((slices threeSeconds Scalar.one hopeless).after readyStart)).length ≤ 2 ∧
      ∀ more, slices threeSeconds Scalar.one (hopeless ++ more) readyStart =
        slices threeSeconds Scalar.one hopeless readyStart := by
  have htwo : ⌈Real.logb 2 ((3 : Rat) + 1)⌉₊ = 2 := by
    have hfour : ((3 : Rat) : ℝ) + 1 = 2 ^ 2 := by norm_num
    rw [hfour, Real.logb_pow, Real.logb_self_eq_one one_lt_two]
    norm_num
  have hsearch : readyStart.engine.search.isSome = true := by decide +kernel
  have hclock : readyStart.host.clock = rat 0 := rfl
  have hplan : readyStart.engine.plan readyStart.host.clock = .ok threeSeconds := rfl
  have htimeout : (readyStart.engine.settings.get .timeout).comparable = .ok (rat 3) := rfl
  have houts : Measured hopeless := by simp [Measured, hopeless]
  obtain ⟨hlength, hsame⟩ := slices_bounded hsearch hclock hplan htimeout (by norm_num) houts (by decide +kernel)
  rw [htwo] at hlength hsame
  exact ⟨hlength, hsame le_rfl⟩

end Engine

end Optima
