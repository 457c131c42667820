import Optima.Proofs.Engine.Exchange

/-!
# What observers are told by an engine at work

`Heard s answers t` says what happened between two sessions as far as those are concerned whom the engine has to do
with, and the phase: nobody failed, the question whether to abort got these answers, and the phase is that of aborting
if one of them was yes.  `Blamed s fault t` says of work that a fault has stopped: at most one observer, outcome or
ranging pass has failed, and if one has, the fault is its failure and no other.

Each operation of an engine hears its observers out in this sense, whatever they do (`HearsAt`), and this is put
together along binds (`HearsAt.bind`).  What a solve says at its end agrees with the answers it got
(`hears_solve`): it was aborted by the user if and only if the last answer was yes, and otherwise all answers were no.
-/

namespace Optima.Engine

variable {R : Type}

open Optima.Action (Keeps)

/-! ### From one session to another -/

/-- A fault comes from the one who failed, if anybody did. -/
def Blames (failures : List String) (fault : Fault) : Prop :=
  failures = [] ∨ ∃ text, failures = [text] ∧ fault = .failed text

/-- A fault has stopped the work between two sessions, and comes from the one who failed, if anybody did. -/
def Blamed (s : Session R) (fault : Fault) (t : Session R) : Prop :=
  ∃ x : Exchange R, x.Between s.host t.host ∧ Blames (x.failures s.engine.hooks s.host.ranging) fault

/-- Whom an engine has to do with, and what they have been told. -/
def Session.audience (s : Session R) : Hooks R × Option Phase ×
    List (Event R) × Search.Source R × List (Ranging.Call R) × (Ranging.Problem R → Ranging.Answer R) :=
  (s.engine.hooks, s.host.phase, dealings s.host)

theorem Blamed.congr {s u t : Session R} {fault : Fault} (h : Blamed s fault u) (k : t.audience = u.audience) :
    Blamed s fault t := by
  obtain ⟨x, hx, hblames⟩ := h
  exact ⟨x, hx.congr (congrArg (fun audience => audience.2.2) k), hblames⟩

theorem Blamed.of_audience {s t : Session R} (h : t.audience = s.audience) (fault : Fault) : Blamed s fault t :=
  ⟨.nothing, .of_dealings (congrArg (fun audience => audience.2.2) h), .inl rfl⟩

variable [Scalar R]

/-- Between two sessions nobody failed, the question whether to abort got these answers, and everybody who was told of
something has had a turn. -/
structure Heard (s : Session R) (answers : List (Value R)) (t : Session R) : Prop where
  exchange : ∃ x : Exchange R, x.Between s.host t.host ∧ x.events.filterMap Event.answer? = answers.map some ∧
    x.failures s.engine.hooks s.host.ranging = [] ∧ t.engine.hooks = x.events.foldl Hooks.told s.engine.hooks
  phase : s.engine.hooks.marks = true →
    t.host.phase = if answers.any Value.truth then s.host.phase.map (fun _ => .aborting) else s.host.phase

theorem Heard.of_audience {s t : Session R} (h : t.audience = s.audience) : Heard s [] t := by
  simp only [Session.audience, Prod.mk.injEq] at h
  obtain ⟨hhooks, hphase, hdealings⟩ := h
  exact ⟨⟨.nothing, .of_dealings hdealings, rfl, rfl, hhooks⟩, fun _ => hphase⟩

theorem Heard.parties {s t : Session R} {as : List (Value R)} (h : Heard s as t) :
    t.engine.hooks.parties = s.engine.hooks.parties := by
  obtain ⟨x, -, -, -, hhooks⟩ := h.exchange
  rw [hhooks, Hooks.parties_foldl]

theorem Heard.trans {s u t : Session R} {as bs : List (Value R)} (h : Heard s as u) (k : Heard u bs t) :
    Heard s (as ++ bs) t := by
  have hmarked := Hooks.marks_congr h.parties
  obtain ⟨⟨x, hx, hanswers, hnone, hhooks⟩, hphase⟩ := h
  obtain ⟨⟨y, hy, hanswers', hnone', hhooks'⟩, hphase'⟩ := k
  rw [hmarked] at hphase'
  refine ⟨⟨x.append y, hx.trans hy, ?_, ?_, ?_⟩, fun hmarks => ?_⟩
  · rw [Exchange.append, List.filterMap_append, hanswers, hanswers', List.map_append]
  · rw [Exchange.failures_append hnone, ← hhooks, ← hx.ranging, hnone']
  · rw [hhooks', hhooks, Exchange.append, List.foldl_append]
  · rw [hphase' hmarks, hphase hmarks, List.any_append]
    cases as.any Value.truth <;> cases bs.any Value.truth <;> simp [Option.map_map, Function.comp_def]

theorem Heard.congr {s u t : Session R} {as : List (Value R)} (h : Heard s as u) (k : t.audience = u.audience) :
    Heard s as t := by
  have hheard := h.trans (.of_audience k)
  rwa [List.append_nil] at hheard

theorem Heard.blamed {s u t : Session R} {as : List (Value R)} {fault : Fault} (h : Heard s as u)
    (k : Blamed u fault t) : Blamed s fault t := by
  obtain ⟨⟨x, hx, -, hnone, hhooks⟩, -⟩ := h
  obtain ⟨y, hy, hblames⟩ := k
  refine ⟨x.append y, hx.trans hy, ?_⟩
  rwa [Exchange.failures_append hnone, ← hhooks, ← hx.ranging]

/-! ### Operations that hear their observers out -/

/-- From this session an operation hears its observers out; `post` relates its result to the answers it got. -/
def HearsAt {α : Type} (act : Work R α) (s : Session R) (post : α → List (Value R) → Prop) : Prop :=
  match act s with
  | .ok a t => ∃ answers, Heard s answers t ∧ post a answers
  | .error fault t => Blamed s fault t

/-- Nobody was asked. -/
def Unasked {α : Type} (_ : α) (answers : List (Value R)) : Prop :=
  answers = []

namespace HearsAt

variable {α β : Type} {s : Session R}

theorem ok {act : Work R α} {post : α → List (Value R) → Prop} (h : HearsAt act s post) {a : α} {t : Session R}
    (hrun : act s = .ok a t) : ∃ answers, Heard s answers t ∧ post a answers := by
  rw [HearsAt, hrun] at h
  exact h

theorem error {act : Work R α} {post : α → List (Value R) → Prop} (h : HearsAt act s post) {fault : Fault}
    {t : Session R} (hrun : act s = .error fault t) : Blamed s fault t := by
  rw [HearsAt, hrun] at h
  exact h

theorem mono {act : Work R α} {post post' : α → List (Value R) → Prop} (h : HearsAt act s post)
    (hpost : ∀ a as, post a as → post' a as) : HearsAt act s post' := by
  unfold HearsAt at h ⊢
  cases hrun : act s with
  | ok a t =>
    rw [hrun] at h
    obtain ⟨as, hheard, has⟩ := h
    exact ⟨as, hheard, hpost a as has⟩
  | error fault t =>
    rw [hrun] at h
    exact h

protected theorem pure {a : α} {post : α → List (Value R) → Prop} (h : post a []) : HearsAt (pure a) s post :=
  ⟨[], .of_audience rfl, h⟩

protected theorem throw (fault : Fault) (post : α → List (Value R) → Prop) : HearsAt (throw fault) s post :=
  .of_audience rfl fault

theorem of_keeps {act : Work R α} (h : Keeps Session.audience act) : HearsAt act s Unasked := by
  unfold HearsAt
  cases hrun : act s with
  | ok a t => exact ⟨[], .of_audience (h.ok hrun), rfl⟩
  | error fault t => exact .of_audience (h.error hrun) fault

theorem get_bind {f : Session R → Work R β} {post : β → List (Value R) → Prop} (h : HearsAt (f s) s post) :
    HearsAt (get >>= f) s post := h

/-- An operation that comes down to another one from a later session. -/
theorem resume {act next : Work R β} {post : β → List (Value R) → Prop} {u : Session R} {as : List (Value R)}
    (hheard : Heard s as u) (hsame : act s = next u) (h : HearsAt next u fun b bs => post b (as ++ bs)) :
    HearsAt act s post := by
  unfold HearsAt at h ⊢
  rw [hsame]
  cases hrun : next u with
  | ok b t =>
    rw [hrun] at h
    obtain ⟨bs, hthen, hpost⟩ := h
    exact ⟨as ++ bs, hheard.trans hthen, hpost⟩
  | error fault t =>
    rw [hrun] at h
    exact hheard.blamed h

/-- The answers of two operations one after the other are those of the first and then those of the second. -/
protected theorem bind {act : Work R α} {f : α → Work R β} {mid : α → List (Value R) → Prop}
    {post : β → List (Value R) → Prop} (h : HearsAt act s mid)
    (hf : ∀ a u as, act s = .ok a u → Heard s as u → mid a as → HearsAt (f a) u fun b bs => post b (as ++ bs)) :
    HearsAt (act >>= f) s post := by
  cases hact : act s with
  | ok a u =>
    obtain ⟨as, hheard, hmid⟩ := h.ok hact
    exact .resume hheard (Action.bind_ok hact f) (hf a u as hact hheard hmid)
  | error fault u =>
    have hblamed := h.error hact
    unfold HearsAt
    rwa [Action.bind_error hact]

/-- After an operation that asked nobody. -/
theorem then_bind {act : Work R α} {f : α → Work R β} {post : β → List (Value R) → Prop} (h : HearsAt act s Unasked)
    (hf : ∀ a u, act s = .ok a u → Heard s [] u → HearsAt (f a) u post) : HearsAt (act >>= f) s post := by
  refine h.bind fun a u as hrun hheard hnone => ?_
  obtain rfl : as = [] := hnone
  exact hf a u hrun hheard

end HearsAt

/-! ### Operations that tell nobody -/

omit [Scalar R] in
theorem audience_of_still {α : Type} {act : Work R α} (h : Keeps Session.stage act) : Keeps Session.audience act :=
  h.map fun c => (c.engine.hooks, c.host.phase, dealings c.host)

theorem audience_load : Keeps Session.audience (load : Work R Unit) := by
  intro s
  obtain ⟨t, hload, hstage⟩ := load_stage s
  have haudience := congrArg (fun c : Scene R => (c.engine.hooks, c.host.phase, dealings c.host)) hstage
  rw [Action.after_ok hload]
  refine haudience.trans ?_
  unfold Session.loadedStage
  split <;> rfl

omit [Scalar R] in
theorem audience_updateResults (f : Results R → Results R) : Keeps Session.audience (updateResults f) :=
  .modify fun _ => rfl

omit [Scalar R] in
theorem audience_noteBound (bound : Option R) : Keeps Session.audience (noteBound bound) := by
  cases bound with
  | none => exact .pure _
  | some bound => exact audience_updateResults fun r => { r with bound := bound }

theorem audience_beginSlice (plan : Plan R) (slice : R) : Keeps Session.audience (beginSlice plan slice) := by
  have hrequest (budget : R) : Keeps Session.audience (request budget plan.pointLimit) := by
    refine Keeps.get.bind fun s => ?_
    split
    · exact .pure _
    · exact fun _ => rfl
  refine Keeps.get.bind fun s => ?_
  simp only
  split
  · exact .pure _
  · exact (hrequest _).bind fun _ => .pure _

theorem audience_storeSolution : Keeps Session.audience (storeSolution : Work R Unit) := by
  refine Keeps.get.bind fun s => ?_
  simp only
  split
  · exact .pure _
  · exact audience_updateResults _

/-! ### Messages and lines of the log -/

/-- An observer that is told of an event that is no poll. -/
theorem hears_tell {event : Option Phase → Event R} (hanswer : ∀ phase, (event phase).answer? = none)
    (s : Session R) : HearsAt (tell event) s Unasked := by
  have hanswer := hanswer s.host.phase
  have hfailures := told_failures (event s.host.phase) s.engine.hooks s.host.ranging
  rw [s.engine.hooks.complaint?_observer hanswer] at hfailures
  refine .get_bind ?_
  cases hobserver : s.engine.hooks.observer? (event s.host.phase) with
  | none => exact .pure rfl
  | some observer =>
    rw [hobserver, Option.bind_some] at hfailures
    simp only
    cases hreply : observer.reply with
    | notes =>
      rw [hreply] at hfailures
      exact ⟨[], ⟨⟨_, told_between _ _, by simp [hanswer], hfailures, rfl⟩, fun _ => rfl⟩, rfl⟩
    | fails text =>
      rw [hreply] at hfailures
      exact ⟨_, told_between _ _, .inr ⟨text, hfailures, rfl⟩⟩

theorem hears_log (text : String) (s : Session R) : HearsAt (log text) s Unasked := by
  refine .then_bind (.of_keeps (audience_of_still (still_outside (untold_record _ _)))) fun _ t hrecord _ => ?_
  refine .then_bind (hears_tell (fun _ => rfl) t) fun _ u _ _ => ?_
  exact .of_keeps (audience_of_still (still_writeLog text))

theorem hears_send (m : Message) (s : Session R) : HearsAt (send m : Work R Unit) s Unasked := by
  refine .get_bind ?_
  split
  · exact .then_bind (hears_tell (fun _ => rfl) s) fun _ t _ _ => hears_tell (fun _ => rfl) t
  · exact .pure rfl

/-! ### Polls -/

/-- All answers to the question whether to abort were no. -/
def Denied (answers : List (Value R)) : Prop :=
  ∀ v ∈ answers, v.truth = false

/-- The last answer to the question whether to abort was yes, and all answers before it were no. -/
def Granted (answers : List (Value R)) : Prop :=
  ∃ front v, answers = front ++ [v] ∧ v.truth = true ∧ Denied front

/-- Whether somebody was aborted agrees with the answers. -/
def Agrees (aborted : Prop) (answers : List (Value R)) : Prop :=
  (aborted ∧ Granted answers) ∨ (¬aborted ∧ Denied answers)

theorem Denied.append {as bs : List (Value R)} (h : Denied as) (k : Denied bs) : Denied (as ++ bs) := by
  intro v hv
  rcases List.mem_append.1 hv with hv | hv
  · exact h v hv
  · exact k v hv

theorem Agrees.after {as bs : List (Value R)} {aborted : Prop} (h : Agrees aborted bs) (k : Denied as) :
    Agrees aborted (as ++ bs) := by
  rcases h with ⟨haborted, front, v, rfl, hv, hfront⟩ | ⟨hnot, hbs⟩
  · exact .inl ⟨haborted, as ++ front, v, (List.append_assoc ..).symm, hv, k.append hfront⟩
  · exact .inr ⟨hnot, k.append hbs⟩

theorem Agrees.none {aborted : Prop} (h : ¬aborted) : Agrees aborted ([] : List (Value R)) :=
  .inr ⟨h, by simp [Denied]⟩

/-- The answers tell whether it was a yes or no. -/
theorem Agrees.any {aborted : Prop} {answers : List (Value R)} (h : Agrees aborted answers) :
    (aborted ∧ Granted answers ∧ answers.any Value.truth = true) ∨
      (¬aborted ∧ Denied answers ∧ answers.any Value.truth = false) := by
  rcases h with ⟨haborted, front, v, rfl, hv, hfront⟩ | ⟨hnot, hdenied⟩
  · exact .inl ⟨haborted, ⟨front, v, rfl, hv, hfront⟩, by simp [hv]⟩
  · refine .inr ⟨hnot, hdenied, ?_⟩
    simp only [List.any_eq_false, Bool.not_eq_true]
    exact hdenied

theorem hears_abortRequested (s : Session R) :
    HearsAt (abortRequested : Work R Bool) s fun abort answers => Agrees (abort = true) answers := by
  refine .get_bind ?_
  cases hpoller : s.engine.hooks.poller with
  | none => exact .pure (.none (by simp))
  | some poller =>
    simp only
    cases hanswer : poller.answer? with
    | none =>
      have hhooks : s.engine.hooks = { s.engine.hooks with poller := some poller.next } := by
        rw [Poller.next_eq_self hanswer, ← hpoller]
      exact ⟨[], ⟨⟨.nothing, .of_dealings rfl, rfl, rfl, hhooks.symm⟩, fun _ => rfl⟩, .none (by simp)⟩
    | some poll =>
      have hfailures (answer : Option (Value R)) : Exchange.failures ⟨[.poll answer s.host.phase], [], []⟩
          s.engine.hooks s.host.ranging = poll.failure?.toList := by
        rw [told_failures, Hooks.complaint?, hpoller, Option.bind_some, hanswer, Option.bind_some]
      cases poll with
      | fails text => exact ⟨_, told_between _ _, .inr ⟨text, hfailures none, rfl⟩⟩
      | answers v =>
        have hhooks : { s.engine.hooks with poller := some poller.next } =
            s.engine.hooks.told (.poll (some v) s.host.phase) := by
          rw [Hooks.told, hpoller, Option.map_some]
        have hmarks : s.engine.hooks.marks = poller.marks := by simp [Hooks.marks, hpoller]
        simp only
        cases hyes : v.truth with
        | false =>
          refine ⟨[v], ⟨⟨_, told_between _ _, rfl, hfailures _, hhooks⟩, fun _ => ?_⟩,
            .inr ⟨by simp, by simpa [Denied] using hyes⟩⟩
          simp [hyes]
        | true =>
          have hgranted : Granted [v] := ⟨[], v, rfl, hyes, by simp [Denied]⟩
          cases hmarked : poller.marks with
          | false =>
            refine ⟨[v], ⟨⟨_, told_between _ _, rfl, hfailures _, hhooks⟩, fun h => ?_⟩, .inl ⟨rfl, hgranted⟩⟩
            rw [hmarks, hmarked] at h
            cases h
          | true =>
            have htold := (told_between (.poll (some v) s.host.phase) s.host).congr
              (l := { s.host with
                events := s.host.events ++ [.poll (some v) s.host.phase]
                phase := s.host.phase.map fun _ => .aborting }) rfl
            refine ⟨[v], ⟨⟨_, htold, rfl, hfailures _, hhooks⟩, fun _ => ?_⟩, .inl ⟨rfl, hgranted⟩⟩
            simp only [List.any_cons, hyes, Bool.true_or, ↓reduceIte]

/-! ### Outcomes -/

theorem hears_capture (point : List R) (s : Session R) : HearsAt (capture point) s Unasked := by
  have hkeep (e : Engine R) (t : Session R) : HearsAt (if e.improves (activity e.objective point).value then do
      updateResults fun r => { r with
        incumbent := some point, objective := activity e.objective point, pointCount := r.pointCount + 1 }
      send (if e.isMixed then .milpBetter else .lpOptimal)
      else pure () : Work R Unit) t Unasked := by
    split
    · exact .then_bind (.of_keeps (audience_updateResults _)) fun _ u _ _ => hears_send _ u
    · exact .pure rfl
  refine .get_bind ?_
  simp only
  split
  · exact .then_bind (hears_send _ s) fun _ t _ _ => hkeep s.engine t
  · exact hkeep s.engine s

/-- The outcome is used, and if it is a failure, that is the fault. -/
theorem hears_takeOutcome {o : Search.Outcome R} {outs : List (Search.Outcome R)} {s : Session R}
    (hoffers : s.host.source.Offers (o :: outs)) : HearsAt (takeOutcome o) s Unasked := by
  obtain ⟨used, hused, hone⟩ := hoffers.upcoming
  have hbetween := used_between (k := { s.host with clock := s.host.clock + o.seconds, source := s.host.source.next })
    hused rfl rfl rfl
  have hfailures := used_failures used s.engine.hooks s.host.ranging
  unfold takeOutcome
  cases hfailure : o.failure with
  | some text =>
    refine ⟨_, hbetween, ?_⟩
    rcases hone with rfl | rfl
    · exact .inr ⟨text, by rw [hfailures]; simp [hfailure], rfl⟩
    · exact .inl hfailures
  | none =>
    have hnone : Exchange.failures ⟨[], used, []⟩ s.engine.hooks s.host.ranging = [] := by
      rw [hfailures]
      rcases hone with rfl | rfl <;> simp [hfailure]
    have hspent : HearsAt (outside (modify fun h : Host R =>
        { h with clock := h.clock + o.seconds, source := h.source.next })) s Unasked :=
      ⟨[], ⟨⟨_, hbetween, rfl, hnone, rfl⟩, fun _ => rfl⟩, rfl⟩
    have hbound (t : Session R) : HearsAt (noteBound o.bound) t Unasked := .of_keeps (audience_noteBound _)
    refine .then_bind hspent fun _ t _ _ => ?_
    simp only
    split
    · refine .get_bind ?_
      split
      · exact .then_bind (hears_capture _ t) fun _ u _ _ => hbound u
      · exact hbound t
    · exact hbound t

private theorem verdict_ne_userAbort (status : Search.Status) : status.verdict ≠ .userAbort := by
  cases status <;> decide

omit [Scalar R] in
private theorem expired_ne_userAbort (e : Engine R) : e.expired ≠ .userAbort := by
  unfold expired
  split <;> decide

/-- Slices end by user's abort if and only if the last poll said yes, whatever the outcomes are. -/
theorem hears_slices (plan : Plan R) (slice : R) {outs : List (Search.Outcome R)} {s : Session R}
    (hoffers : s.host.source.Offers outs) :
    HearsAt (slices plan slice outs) s fun verdict answers => Agrees (verdict = .userAbort) answers := by
  induction outs generalizing slice s with
  | nil =>
    refine .then_bind (.of_keeps (audience_beginSlice plan slice)) fun v t hbegin _ => ?_
    rcases beginSlice_ok hbegin with ⟨rfl, rfl⟩ | ⟨rfl, -⟩
    · exact .pure (.none (expired_ne_userAbort _))
    · exact .throw _ _
  | cons o outs ih =>
    refine .then_bind (.of_keeps (audience_beginSlice plan slice)) fun v t hbegin _ => ?_
    rcases beginSlice_ok hbegin with ⟨rfl, rfl⟩ | ⟨rfl, more, hcore, -⟩
    · exact .pure (.none (expired_ne_userAbort _))
    · have hsource : t.host.source = s.host.source := congrArg Core.source hcore
      refine .then_bind (hears_takeOutcome (hsource ▸ hoffers)) fun _ u htake _ => ?_
      have hnext : u.host.source = s.host.source.next := by
        rw [← hsource]
        exact congrArg Core.source (takeOutcome_ok htake).2
      split
      · exact .pure (.none (verdict_ne_userAbort _))
      · refine .bind (hears_abortRequested u) fun abort w as habort _ hagrees => ?_
        rcases hagrees with ⟨rfl, hgranted⟩ | ⟨hno, hdenied⟩
        · refine .pure (.inl ⟨rfl, ?_⟩)
          rwa [List.append_nil]
        · -- the search goes on from the best point, and what comes then decides
          simp only [hno]
          refine .then_bind (.of_keeps (audience_of_still still_restart)) fun _ x hrestart _ => ?_
          have hoffersNext : x.host.source.Offers outs := by
            have hsame : x.host.source = u.host.source :=
              (congrArg Core.source (keeps_restart.ok hrestart)).trans
                (congrArg Core.source (keeps_abortRequested.ok habort))
            rw [hsame, hnext]
            exact hoffers.next
          exact (ih (Scalar.two * slice) hoffersNext).mono fun verdict bs h => h.after hdenied

theorem hears_optimize (s : Session R) :
    HearsAt optimize s fun verdict answers => Agrees (verdict = .userAbort) answers := by
  refine .get_bind (.then_bind (.of_keeps (.lift _)) fun plan t hplan _ => ?_)
  obtain ⟨-, rfl⟩ := Action.lift_eq_ok.1 hplan
  exact hears_slices plan _ (t.host.source.offers_outcomes _)

/-! ### A solve -/

/-- The problem is handed over, and if the ranging pass fails, that is the fault. -/
theorem hears_pass (e : Engine R) (problem : Ranging.Problem R) (s : Session R) :
    HearsAt (do
      handOver problem.calls
      e.takeAnswer ((← get).host.ranging problem) : Work R Unit) s Unasked := by
  let asked : Session R := { s with host := { s.host with rangingCalls := s.host.rangingCalls ++ problem.calls } }
  have hbetween : Exchange.Between ⟨[], [], [problem]⟩ s.host asked.host := asked_between problem s.host
  have hfailures := asked_failures problem s.engine.hooks s.host.ranging
  have hasked : (do
      handOver problem.calls
      e.takeAnswer ((← get).host.ranging problem) : Work R Unit) s = e.takeAnswer (s.host.ranging problem) asked := rfl
  cases hfailure : (s.host.ranging problem).failure with
  | some text =>
    rw [hfailure] at hfailures
    unfold HearsAt
    rw [hasked, takeAnswer, hfailure]
    exact ⟨_, hbetween, .inr ⟨text, hfailures, rfl⟩⟩
  | none =>
    rw [hfailure] at hfailures
    have hheard : Heard s [] asked := ⟨⟨_, hbetween, rfl, hfailures, rfl⟩, fun _ => rfl⟩
    refine .resume hheard hasked ?_
    rw [takeAnswer, hfailure]
    simp only
    split
    · exact .then_bind (.of_keeps (audience_updateResults _)) fun _ t _ _ => hears_log _ t
    · exact .of_keeps (audience_of_still (still_outside (untold_record _ _)))

theorem hears_rangeSolution (s : Session R) : HearsAt (rangeSolution : Work R Unit) s Unasked := by
  have hsilence : HearsAt (handOver [.silence]) s Unasked := by
    -- the request to be silent is about no problem
    have hfilter : (s.host.rangingCalls ++ [Ranging.Call.silence]).filter Ranging.Call.asks =
        s.host.rangingCalls.filter Ranging.Call.asks ++ [] :=
      List.filter_append ..
    exact ⟨[], ⟨⟨.nothing, ⟨(List.append_nil _).symm, rfl, hfilter, rfl⟩, rfl, rfl, rfl⟩, fun _ => rfl⟩, rfl⟩
  refine .get_bind (.then_bind hsilence fun _ t _ _ => ?_)
  simp only
  split
  · exact .throw _ _
  · exact hears_pass _ _ t

theorem hears_searchProgram (s : Session R) :
    HearsAt searchProgram s fun verdict answers => Agrees (verdict = .userAbort) answers := by
  refine .then_bind (.of_keeps audience_load) fun _ a _ _ => ?_
  refine .then_bind (.of_keeps (audience_of_still still_configure)) fun _ b _ _ => ?_
  refine .get_bind (.then_bind (hears_log _ b) fun _ c _ _ => ?_)
  refine .bind (hears_abortRequested c) fun abort d as _ _ hagrees => ?_
  rcases hagrees with ⟨rfl, hgranted⟩ | ⟨hno, hdenied⟩
  · refine .pure (.inl ⟨rfl, ?_⟩)
    rwa [List.append_nil]
  · simp only [hno]
    refine .then_bind (hears_send _ d) fun _ e _ _ => ?_
    refine .bind (hears_optimize e) fun verdict f bs _ _ hverdict => ?_
    -- nobody is asked any more
    have hend (t : Session R) : HearsAt (pure verdict) t fun v cs => Agrees (v = .userAbort) (as ++ (bs ++ cs)) := by
      refine .pure ?_
      rw [List.append_nil]
      exact hverdict.after hdenied
    refine .then_bind (.of_keeps audience_storeSolution) fun _ g _ _ => .get_bind ?_
    split
    · exact .then_bind (hears_rangeSolution g) fun _ t _ _ => hend t
    · exact hend g

theorem hears_run (s : Session R) : HearsAt run s fun verdict answers => Agrees (verdict = .userAbort) answers := by
  refine .get_bind (.then_bind (.of_keeps (.lift _)) fun violated t _ _ => ?_)
  cases violated with
  | none => exact hears_searchProgram t
  | some r => exact .then_bind (hears_log _ t) fun _ u _ _ => .pure (.none (by decide))

/-- When the run goes through, what is left is the last line of the log. -/
theorem solve_of_run {s w : Session R} {verdict : Verdict} (hdefect : s.engine.defects.solve = none)
    (hrun : run s.begun = .ok verdict w) : ∃ text, solve s = (do
      log text
      pure verdict : Work R Verdict) (w.ended verdict (w.host.clock - s.host.clock)) := by
  refine ⟨"Solve finished with status " ++ Enumeration.label verdict ++ " in "
    ++ Scalar.fixedText 3 (w.host.clock - s.host.clock) ++ "s", ?_⟩
  have hkeep : runAndKeep s.begun =
      .ok ⟨⟩ { w with engine := { w.engine with results := { w.engine.results with verdict := verdict } } } :=
    Action.bind_ok hrun _
  rw [solve_eq hdefect]
  exact Action.bind_ok (Action.finish_eq_ok.2 ⟨_, hkeep, rfl⟩) _

/-- A fault of the run is one of the solve, and the time is kept all the same. -/
theorem solve_of_fault {s w : Session R} {fault : Fault} (hdefect : s.engine.defects.solve = none)
    (hrun : run s.begun = .error fault w) :
    solve s = .error fault (w.ended w.engine.results.verdict (w.host.clock - s.host.clock)) := by
  have hkeep : runAndKeep s.begun = .error fault w := Action.bind_error hrun _
  rw [solve_eq hdefect]
  refine Action.bind_error ?_ _
  unfold Action.finish
  rw [hkeep]

/-- A solve says that it was aborted by the user if and only if the last poll said yes. -/
theorem hears_solve (s : Session R) : HearsAt solve s fun verdict answers => Agrees (verdict = .userAbort) answers := by
  cases hdefect : s.engine.defects.solve with
  | some text =>
    unfold solve
    refine .get_bind ?_
    rw [hdefect]
    exact .throw _ _
  | none =>
    have hbegun : Heard s [] s.begun := .of_audience rfl
    cases hrun : run s.begun with
    | ok verdict w =>
      obtain ⟨answers, hheard, hagrees⟩ := (hears_run s.begun).ok hrun
      obtain ⟨text, hsolve⟩ := solve_of_run hdefect hrun
      have hended : Heard s answers (w.ended verdict (w.host.clock - s.host.clock)) := (hbegun.trans hheard).congr rfl
      refine .resume hended hsolve (.then_bind (hears_log text _) fun _ t _ _ => .pure ?_)
      rwa [List.append_nil]
    | error fault w =>
      have hblamed : Blamed s fault w := hbegun.blamed ((hears_run s.begun).error hrun)
      unfold HearsAt
      rw [solve_of_fault hdefect hrun]
      exact hblamed.congr rfl

end Optima.Engine
