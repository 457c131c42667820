import Optima.Proofs.Engine.Observers
import Optima.Proofs.Engine.Slices

/-!
# What is noted of messages and polls

The notes of observers hold messages, polls and lines of the log in one list.  For a reader who picks out some kind of
event the others might as well not be there: what he sees of a session (`Session.noted`) is left alone by everything
that tells of other events only (`noted_log`, `noted_send`).

`Told s sent t` says that between two sessions these messages were sent, of which the observer of messages, if there is
one, got those that the mask lets through.  A search in slices sends the messages that go with the points it keeps:
one that there is a point at all, and one for each point that is better than the ones before it (`Engine.news`).  How
many there are of these can be told from the number of points alone, so it is enough to keep the number and the
messages together outcome by outcome (`Telling.takeOutcome`).
-/

namespace Optima

/-- What the message was, if the event is one. -/
def Event.message? {R : Type} : Event R → Option Message
  | .message m _ => some m
  | _ => none

namespace Engine

variable {R : Type}

open Search (Outcome Request)

open Optima.Action (Keeps)

/-! ### Events of one kind -/

/-- Who is asked whether to abort, who is called at all, and what there is in the notes for a reader who picks out some
events. -/
def Session.noted {α : Type} (pick : Event R → Option α) (s : Session R) :
    Option (Poller R) × (Option Bool × Bool × Bool × Bool × Int) × List α :=
  (s.engine.hooks.poller, s.engine.hooks.parties, s.host.events.filterMap pick)

section

variable {α : Type} {pick : Event R → Option α}

theorem noted_of_audience {β : Type} {act : Work R β} (h : Keeps Session.audience act) :
    Keeps (Session.noted pick) act :=
  h.map fun audience => (audience.1.poller, audience.1.parties, audience.2.2.1.filterMap pick)

theorem noted_notify {event : Option Phase → Event R} (hpick : ∀ phase, pick (event phase) = none) :
    Keeps (Session.noted pick) (outside (Host.notify event)) := by
  intro s
  have hnote : (s.host.events ++ [event s.host.phase]).filterMap pick = s.host.events.filterMap pick := by
    simp [hpick]
  exact congrArg (fun notes => (s.engine.hooks.poller, s.engine.hooks.parties, notes)) hnote

/-- To tell somebody of an event that is no poll is no turn of the poller. -/
theorem noted_tell {event : Option Phase → Event R} (hanswer : ∀ phase, (event phase).answer? = none)
    (hpick : ∀ phase, pick (event phase) = none) : Keeps (Session.noted pick) (tell event) := by
  refine keeps_tell (fun phase s => ?_) (noted_notify hpick)
  have hpoller : (s.engine.hooks.told (event phase)).poller = s.engine.hooks.poller :=
    s.engine.hooks.poller_told (hanswer phase)
  exact Prod.ext hpoller (congrArg (fun parties => (parties, s.host.events.filterMap pick))
    (s.engine.hooks.parties_told (event phase)))

variable [Scalar R]

theorem noted_log (hpick : ∀ text phase, pick (.log text phase) = none) (text : String) :
    Keeps (Session.noted pick) (log text) :=
  (noted_of_audience (audience_of_still (still_outside (untold_record _ _)))).bind fun _ =>
    (noted_tell (fun _ => rfl) (hpick text)).bind fun _ => noted_of_audience (audience_of_still (still_writeLog text))

theorem noted_takeAnswer (hpick : ∀ text phase, pick (.log text phase) = none) (e : Engine R)
    (answer : Ranging.Answer R) : Keeps (Session.noted pick) (e.takeAnswer answer) := by
  unfold takeAnswer
  split
  · exact .throw _
  · split
    · exact (noted_of_audience (audience_updateResults _)).bind fun _ => noted_log hpick _
    · exact noted_of_audience (audience_of_still (still_outside (untold_record _ _)))

theorem noted_rangeSolution (hpick : ∀ text phase, pick (.log text phase) = none) :
    Keeps (Session.noted pick) (rangeSolution : Work R Unit) := by
  have hhand (calls : List (Ranging.Call R)) : Keeps (Session.noted pick) (handOver calls) :=
    fun _ => rfl
  refine Keeps.get.bind fun s => (hhand _).bind fun _ => ?_
  simp only
  split
  · exact .throw _
  · exact Keeps.bind (hhand _) fun _ => Keeps.get.bind fun u => noted_takeAnswer hpick _ _

end

/-! ### Messages -/

/-- The messages in the notes. -/
def Session.messages (s : Session R) : List Message :=
  s.host.events.filterMap Event.message?

/-- Those of the messages that the observer of messages gets. -/
def Hooks.heard (h : Hooks R) (sent : List Message) : List Message :=
  if h.message.isSome then sent.filter (·.passes h.mask) else []

theorem Hooks.heard_append (h : Hooks R) (as bs : List Message) : h.heard (as ++ bs) = h.heard as ++ h.heard bs := by
  unfold heard
  split
  · exact List.filter_append ..
  · rfl

theorem Hooks.heard_nil (h : Hooks R) : h.heard [] = [] := by
  unfold heard
  split <;> rfl

/-- Whether somebody gets the messages, which of them, and the messages so far. -/
def Session.listening (s : Session R) : Bool × Int × List Message :=
  (s.engine.hooks.message.isSome, s.engine.hooks.mask, s.messages)

/-- Between two sessions these messages were sent. -/
structure Told (s : Session R) (sent : List Message) (t : Session R) : Prop where
  messages : t.messages = s.messages ++ s.engine.hooks.heard sent
  observer : t.engine.hooks.message.isSome = s.engine.hooks.message.isSome
  mask : t.engine.hooks.mask = s.engine.hooks.mask

theorem Told.of_listening {s t : Session R} (h : t.listening = s.listening) : Told s [] t := by
  simp only [Session.listening, Prod.mk.injEq] at h
  exact ⟨by rw [h.2.2, Hooks.heard_nil, List.append_nil], h.1, h.2.1⟩

theorem Told.trans {s t u : Session R} {as bs : List Message} (h : Told s as t) (k : Told t bs u) :
    Told s (as ++ bs) u := by
  have hheard : t.engine.hooks.heard bs = s.engine.hooks.heard bs := by
    unfold Hooks.heard
    rw [h.observer, h.mask]
  refine ⟨?_, k.observer.trans h.observer, k.mask.trans h.mask⟩
  rw [k.messages, h.messages, hheard, Hooks.heard_append, List.append_assoc]

theorem Told.congr {s t u : Session R} {sent : List Message} (h : Told s sent t) (k : u.listening = t.listening) :
    Told s sent u := by
  have htold := h.trans (.of_listening k)
  rwa [List.append_nil] at htold

theorem listening_of_noted {α : Type} {act : Work R α} (h : Keeps (Session.noted Event.message?) act) :
    Keeps Session.listening act :=
  h.map fun noted => (noted.2.1.2.2.1, noted.2.1.2.2.2.2, noted.2.2)

theorem listening_of_audience {α : Type} {act : Work R α} (h : Keeps Session.audience act) :
    Keeps Session.listening act :=
  listening_of_noted (noted_of_audience h)

/-- A message that is sent without a fault is told. -/
theorem send_told {m : Message} {s t : Session R} (h : send m s = .ok ⟨⟩ t) : Told s [m] t := by
  unfold send at h
  rw [Action.get_bind_run] at h
  split at h
  · next hpasses =>
    obtain ⟨⟨⟩, u, hmessage, hprogress⟩ := Action.bind_eq_ok.1 h
    have hlast : t.listening = u.listening :=
      (listening_of_noted (noted_tell (fun _ => rfl) fun _ => rfl)).ok hprogress
    refine Told.congr ?_ hlast
    unfold tell at hmessage
    rw [Action.get_bind_run] at hmessage
    cases hobserver : s.engine.hooks.message with
    | none =>
      simp only [Hooks.observer?, hobserver] at hmessage
      cases hmessage
      exact ⟨by simp [Hooks.heard, hobserver], rfl, rfl⟩
    | some observer =>
      simp only [Hooks.observer?, hobserver] at hmessage
      cases hreply : observer.reply with
      | notes =>
        rw [hreply] at hmessage
        cases hmessage
        refine ⟨?_, Option.isSome_map .., rfl⟩
        simp [Hooks.heard, Session.messages, Event.message?, hobserver, hpasses]
      | fails text =>
        rw [hreply] at hmessage
        cases hmessage
  · next hpasses =>
    cases h
    refine ⟨?_, rfl, rfl⟩
    unfold Hooks.heard
    split <;> simp [hpasses]

variable [Scalar R]

theorem listening_abortRequested : Keeps Session.listening (abortRequested : Work R Bool) :=
  keeps_asking (fun _ => fun _ => rfl) (fun _ => listening_of_noted (noted_notify fun _ => rfl)) fun _ => rfl

theorem listening_log (text : String) : Keeps Session.listening (log text : Work R Unit) :=
  listening_of_noted (noted_log (fun _ _ => rfl) text)

/-! ### Messages that go with points -/

/-- The messages that go with so many points that were kept. -/
def news (e : Engine R) (count : Nat) : List Message :=
  if count = 0 then [] else e.feasibleMessage :: List.replicate count e.betterMessage

omit [Scalar R] in
theorem news_one (e : Engine R) : e.news 1 = [e.feasibleMessage, e.betterMessage] := rfl

omit [Scalar R] in
theorem news_succ (e : Engine R) {count : Nat} (h : count ≠ 0) :
    e.news (count + 1) = e.news count ++ [e.betterMessage] := by
  rw [news, news, if_neg h, if_neg (Nat.succ_ne_zero count), List.replicate_succ', List.cons_append]

/-- From the session `s₀` on, these messages have been sent and then those that go with the points that are kept. -/
structure Telling (s₀ : Session R) (first : List Message) (s : Session R) : Prop where
  none_iff : s.engine.results.incumbent = none ↔ s.engine.results.pointCount = 0
  mixed : s.engine.isMixed = s₀.engine.isMixed
  told : Told s₀ (first ++ s₀.engine.news s.engine.results.pointCount) s

omit [Scalar R] in
theorem isMixed_of_core {s t : Session R} (h : t.core = s.core) : t.engine.isMixed = s.engine.isMixed :=
  congrArg (fun c : Core R => !c.sets.isEmpty || c.columns.any Column.integer) h

namespace Telling

variable {s₀ : Session R} {first : List Message}

omit [Scalar R] in
/-- What changes neither the best point nor the notes. -/
theorem congr {s t : Session R} (h : Telling s₀ first s) (hcore : t.core = s.core)
    (hlistening : t.listening = s.listening) : Telling s₀ first t := by
  have hresults : t.engine.results = s.engine.results := congrArg Core.results hcore
  exact ⟨hresults ▸ h.none_iff, (isMixed_of_core hcore).trans h.mixed, hresults ▸ h.told.congr hlistening⟩

/-- A point is kept, and then it is told of. -/
theorem keeping {s t : Session R} {point : List R} {sent : List Message} (hmixed : s.engine.isMixed = s₀.engine.isMixed)
    (htold : Told s₀ sent s) (hsend : send s₀.engine.betterMessage (s.keeping point) = .ok ⟨⟩ t)
    (hsent : sent ++ [s₀.engine.betterMessage] = first ++ s₀.engine.news (s.engine.results.pointCount + 1)) :
    Telling s₀ first t := by
  have hcore := (keeps_send _).ok hsend
  have hresults : t.engine.results = (s.keeping point).engine.results := congrArg Core.results hcore
  refine ⟨?_, (isMixed_of_core hcore).trans hmixed, ?_⟩
  · rw [hresults]
    simp [Session.keeping]
  · have htold' : Told s₀ sent (s.keeping point) := htold.congr rfl
    rw [hresults]
    exact hsent ▸ htold'.trans (send_told hsend)

/-- Looking at a point sends what goes with it. -/
theorem capture {s t : Session R} (h : Telling s₀ first s) {point : List R}
    (hrun : capture point s = .ok ⟨⟩ t) : Telling s₀ first t := by
  have hfeasible : s.engine.feasibleMessage = s₀.engine.feasibleMessage := by rw [feasibleMessage, h.mixed]; rfl
  have hbetter : s.engine.betterMessage = s₀.engine.betterMessage := by rw [betterMessage, h.mixed]; rfl
  obtain ⟨u, hfirst, hrun⟩ := capture_steps hrun
  rw [hfeasible] at hfirst
  rw [hbetter] at hrun
  cases hincumbent : s.engine.results.incumbent with
  | none =>
    have himproves : s.engine.improves (activity s.engine.objective point).value = true := by
      simp [improves, hincumbent]
    rw [if_pos himproves] at hrun
    rw [if_pos (by rw [hincumbent]; rfl)] at hfirst
    have hu := (keeps_send _).ok hfirst
    have hzero := h.none_iff.1 hincumbent
    have hcount : u.engine.results.pointCount = 0 := (congrArg (fun c => c.results.pointCount) hu).trans hzero
    have htold := h.told.trans (send_told hfirst)
    refine keeping ((isMixed_of_core hu).trans h.mixed) htold hrun ?_
    rw [hcount, hzero, news_one, List.append_assoc, List.append_assoc]
    rfl
  | some best =>
    rw [if_neg (by rw [hincumbent]; simp)] at hfirst
    obtain rfl := hfirst
    have hcount : u.engine.results.pointCount ≠ 0 := fun hzero => by simp [h.none_iff.2 hzero] at hincumbent
    split at hrun
    · refine keeping h.mixed h.told hrun ?_
      rw [news_succ _ hcount, List.append_assoc]
    · rw [hrun]
      exact h

/-- Taking note of an outcome sends what goes with its point. -/
theorem takeOutcome {s t : Session R} (h : Telling s₀ first s) {o : Outcome R}
    (hrun : takeOutcome o s = .ok ⟨⟩ t) : Telling s₀ first t := by
  obtain ⟨-, u, hpoint, hbound⟩ := takeOutcome_steps hrun
  have hspent : Telling s₀ first (s.spent o) := ⟨h.none_iff, h.mixed, h.told.congr rfl⟩
  have hu : Telling s₀ first u := by
    cases hfound : o.found? s.engine.columns.length with
    | none =>
      rw [hfound] at hpoint
      exact hpoint ▸ hspent
    | some point =>
      rw [hfound] at hpoint
      exact hspent.capture hpoint
  unfold noteBound at hbound
  cases hb : o.bound with
  | none =>
    rw [hb] at hbound
    cases hbound
    exact hu
  | some b =>
    rw [hb] at hbound
    cases hbound
    exact ⟨hu.none_iff, hu.mixed, hu.told.congr rfl⟩

end Telling

/-- A search in slices that goes through sends the messages that go with its points, and no others. -/
theorem Slicing.telling {plan : Plan R} {slice : R} {outs : List (Outcome R)} {s : Session R}
    {calls : List (Request R)} {res : EStateM.Result Fault (Session R) Verdict}
    (h : Slicing plan slice outs s calls res) {s₀ : Session R} {first : List Message} (hs : Telling s₀ first s)
    {v : Verdict} {t : Session R} (hres : res = .ok v t) : Telling s₀ first t := by
  have hcalling {s : Session R} (r : Request R) (hs : Telling s₀ first s) : Telling s₀ first (s.calling r) :=
    ⟨hs.none_iff, hs.mixed, hs.told.congr rfl⟩
  have habort {s u : Session R} {b : Bool} (hs : Telling s₀ first s) (hrun : abortRequested s = .ok b u) :
      Telling s₀ first u :=
    hs.congr (keeps_abortRequested.ok hrun) (listening_abortRequested.ok hrun)
  induction h with
  | expired htime =>
    cases hres
    exact hs
  | exhausted hopens => cases hres
  | broken hopens htake => cases hres
  | ended hopens htake hend =>
    cases hres
    exact (hcalling _ hs).takeOutcome htake
  | unanswered hopens htake hend habort => cases hres
  | aborted hopens htake hend hasked =>
    cases hres
    exact habort ((hcalling _ hs).takeOutcome htake) hasked
  | next hopens htake hend hasked hrestart _ ih =>
    refine ih ?_ hres
    exact (habort ((hcalling _ hs).takeOutcome htake) hasked).congr (keeps_restart.ok hrestart)
      ((listening_of_audience (audience_of_still still_restart)).ok hrestart)

end Engine

end Optima
