import Optima.Proofs.Engine.Outcomes

/-!
# What passes between an engine and its surroundings

In a stretch of work observers are told of events, searches come up with outcomes, and ranging passes are asked about
linear programs.  `x.Between h k` says that this is all that the stretch made of the surroundings `h`, which it left as
`k`.

Each of these may fail.  Whoever is called answers each call in its turn, so who failed can be read off the exchange
(`Exchange.failures`), the turns being counted along the events (`Hooks.complaints`).  Of two stretches one after the
other, if nobody failed in the first, those who failed are those of the second (`Exchange.failures_append`).
-/

namespace Optima

variable {R : Type}

/-! ### Outcomes to come, and passes that were made -/

namespace Search.Source

/-- The outcomes to come of a source that has a list of them. -/
def upcoming : Source R → List (Outcome R)
  | script outs => outs
  | solver _ => []

/-- These are the next outcomes, as far as the source has a list of them. -/
def Offers (source : Source R) (outs : List (Outcome R)) : Prop :=
  ∀ l, source = script l → l = outs

theorem offers_outcomes (source : Source R) (program : Program R) : source.Offers (source.outcomes program) := by
  rintro l rfl
  rfl

theorem Offers.next {source : Source R} {o : Outcome R} {outs : List (Outcome R)} (h : source.Offers (o :: outs)) :
    source.next.Offers outs := by
  cases source with
  | script l =>
    obtain rfl := h l rfl
    rintro l' ⟨⟩
    rfl
  | solver answer => rintro l ⟨⟩

/-- Using an outcome takes it from the list, if there is one. -/
theorem Offers.upcoming {source : Source R} {o : Outcome R} {outs : List (Outcome R)}
    (h : source.Offers (o :: outs)) :
    ∃ used, source.upcoming = used ++ source.next.upcoming ∧ (used = [o] ∨ used = []) := by
  cases source with
  | script l =>
    obtain rfl := h l rfl
    exact ⟨[o], rfl, .inl rfl⟩
  | solver answer => exact ⟨[], rfl, .inr rfl⟩

end Search.Source

namespace Ranging

/-- Whether a step of handing a problem over says something about the problem. -/
def Call.asks : Call R → Bool
  | .silence => false
  | _ => true

theorem Problem.asks_calls (p : Problem R) : p.calls.filter Call.asks = p.calls := by
  refine List.filter_eq_self.2 fun call hcall => ?_
  simp only [Problem.calls, List.mem_append, List.mem_cons, List.mem_map, List.not_mem_nil, or_false] at hcall
  rcases hcall with ((((rfl | rfl) | hmaximize) | ⟨row, -, rfl⟩) | rfl)
  · rfl
  · rfl
  · split at hmaximize
    · rw [List.mem_singleton.1 hmaximize]
      rfl
    · cases hmaximize
  · rfl
  · rfl

end Ranging

/-! ### Observers in their turn -/

def Reply.failure? : Reply → Option String
  | .notes => none
  | .fails text => some text

def Poll.failure? : Poll R → Option String
  | .answers _ => none
  | .fails text => some text

/-- What the answer was, if the event is a poll. -/
def Event.answer? : Event R → Option (Option (Value R))
  | .poll answer _ => some answer
  | _ => none

theorem Poller.next_eq_self {p : Poller R} (h : p.answer? = none) : p.next = p := by
  obtain ⟨polls, marks⟩ := p
  cases polls with
  | nil => rfl
  | cons poll polls => cases h

namespace Engine

namespace Hooks

/-- The failure of the one who is told of an event next. -/
def complaint? (h : Hooks R) : Event R → Option String
  | .poll _ _ => h.poller.bind fun p => p.answer?.bind Poll.failure?
  | event => (h.observer? event).bind fun o => o.reply.failure?

theorem complaint?_observer (h : Hooks R) {event : Event R} (hanswer : event.answer? = none) :
    h.complaint? event = (h.observer? event).bind fun o => o.reply.failure? := by
  cases event with
  | poll answer phase => cases hanswer
  | _ => rfl

/-- The failures of those who are told of these events, one after the other. -/
def complaints (h : Hooks R) : List (Event R) → List String
  | [] => []
  | event :: events => (h.complaint? event).toList ++ (h.told event).complaints events

theorem complaints_append (h : Hooks R) (as bs : List (Event R)) :
    h.complaints (as ++ bs) = h.complaints as ++ (as.foldl told h).complaints bs := by
  induction as generalizing h with
  | nil => rfl
  | cons event as ih => simp only [List.cons_append, complaints, List.foldl_cons, ih, List.append_assoc]

/-- Whether a yes puts the solver into the phase of aborting. -/
def marks (h : Hooks R) : Bool :=
  h.poller.all Poller.marks

/-- Who is called at all, and for which messages. -/
def parties (h : Hooks R) : Option Bool × Bool × Bool × Bool × Int :=
  (h.poller.map Poller.marks, h.log.isSome, h.message.isSome, h.progress.isSome, h.mask)

/-- A turn does not change who is called. -/
theorem parties_told (h : Hooks R) (event : Event R) : (h.told event).parties = h.parties := by
  cases event <;> simp [parties, told, Poller.next, Function.comp_def]

theorem parties_foldl (h : Hooks R) (events : List (Event R)) : (events.foldl told h).parties = h.parties := by
  induction events generalizing h with
  | nil => rfl
  | cons event events ih => rw [List.foldl_cons, ih, parties_told]

/-- Only a poll is a turn of the poller. -/
theorem poller_told (h : Hooks R) {event : Event R} (hanswer : event.answer? = none) :
    (h.told event).poller = h.poller := by
  cases event with
  | poll answer phase => cases hanswer
  | _ => rfl

theorem marks_congr {h k : Hooks R} (hparties : h.parties = k.parties) : h.marks = k.marks := by
  have hpoller (h : Hooks R) : h.marks = h.parties.1.all id := by
    cases hp : h.poller <;> simp [parties, marks, hp]
  rw [hpoller h, hpoller k, hparties]

end Hooks

/-! ### Exchanges -/

/-- What passes between an engine and its surroundings: the events that observers are told of, the outcomes that
searches come up with, and the problems that ranging passes are asked about. -/
structure Exchange (R : Type) where
  events : List (Event R)
  outcomes : List (Search.Outcome R)
  problems : List (Ranging.Problem R)

namespace Exchange

def nothing : Exchange R := ⟨[], [], []⟩

def append (x y : Exchange R) : Exchange R :=
  ⟨x.events ++ y.events, x.outcomes ++ y.outcomes, x.problems ++ y.problems⟩

/-- What those who failed had to say, given who is told of events and how ranging passes answer. -/
def failures (x : Exchange R) (hooks : Hooks R) (ranging : Ranging.Problem R → Ranging.Answer R) : List String :=
  hooks.complaints x.events ++ x.outcomes.filterMap Search.Outcome.failure ++
    x.problems.filterMap fun p => (ranging p).failure

/-- If nobody failed at first, those who fail are those who fail afterwards. -/
theorem failures_append {x : Exchange R} {hooks : Hooks R} {ranging : Ranging.Problem R → Ranging.Answer R}
    (h : x.failures hooks ranging = []) (y : Exchange R) :
    (x.append y).failures hooks ranging = y.failures (x.events.foldl Hooks.told hooks) ranging := by
  simp only [failures, List.append_eq_nil_iff] at h
  obtain ⟨⟨hevents, houtcomes⟩, hproblems⟩ := h
  simp only [failures, append, Hooks.complaints_append, List.filterMap_append, hevents, houtcomes, hproblems,
    List.nil_append]

/-- This is what passed between an engine and its surroundings while these became others. -/
structure Between (x : Exchange R) (h k : Host R) : Prop where
  events : k.events = h.events ++ x.events
  outcomes : h.source.upcoming = x.outcomes ++ k.source.upcoming
  passes : k.rangingCalls.filter Ranging.Call.asks =
    h.rangingCalls.filter Ranging.Call.asks ++ x.problems.flatMap Ranging.Problem.calls
  ranging : k.ranging = h.ranging

theorem Between.trans {x y : Exchange R} {h k l : Host R} (hx : x.Between h k) (hy : y.Between k l) :
    (x.append y).Between h l := by
  refine ⟨?_, ?_, ?_, hy.ranging.trans hx.ranging⟩
  · rw [hy.events, hx.events, append, List.append_assoc]
  · rw [hx.outcomes, hy.outcomes, append, List.append_assoc]
  · rw [hy.passes, hx.passes, append, List.flatMap_append, List.append_assoc]

end Exchange

/-! ### Exchanges of one kind -/

/-- One event is told. -/
theorem told_between (event : Event R) (h : Host R) :
    Exchange.Between ⟨[event], [], []⟩ h { h with events := h.events ++ [event] } :=
  ⟨rfl, rfl, (List.append_nil _).symm, rfl⟩

theorem told_failures (event : Event R) (hooks : Hooks R) (ranging : Ranging.Problem R → Ranging.Answer R) :
    Exchange.failures ⟨[event], [], []⟩ hooks ranging = (hooks.complaint? event).toList := by
  simp [Exchange.failures, Hooks.complaints]

/-- Outcomes are used, and nothing else happens that matters. -/
theorem used_between {used : List (Search.Outcome R)} {h k : Host R}
    (hused : h.source.upcoming = used ++ k.source.upcoming) (hevents : k.events = h.events)
    (hcalls : k.rangingCalls = h.rangingCalls) (hranging : k.ranging = h.ranging) :
    Exchange.Between ⟨[], used, []⟩ h k := by
  refine ⟨?_, hused, ?_, hranging⟩
  · rw [hevents, List.append_nil]
  · rw [hcalls, List.flatMap_nil, List.append_nil]

theorem used_failures (used : List (Search.Outcome R)) (hooks : Hooks R)
    (ranging : Ranging.Problem R → Ranging.Answer R) :
    Exchange.failures ⟨[], used, []⟩ hooks ranging = used.filterMap Search.Outcome.failure := by
  simp [Exchange.failures, Hooks.complaints]

/-- A ranging pass is asked about one problem. -/
theorem asked_between (problem : Ranging.Problem R) (h : Host R) :
    Exchange.Between ⟨[], [], [problem]⟩ h { h with rangingCalls := h.rangingCalls ++ problem.calls } := by
  refine ⟨(List.append_nil _).symm, rfl, ?_, rfl⟩
  rw [List.filter_append, problem.asks_calls, List.flatMap_singleton]

theorem asked_failures (problem : Ranging.Problem R) (hooks : Hooks R)
    (ranging : Ranging.Problem R → Ranging.Answer R) :
    Exchange.failures ⟨[], [], [problem]⟩ hooks ranging = (ranging problem).failure.toList := by
  cases h : (ranging problem).failure <;> simp [Exchange.failures, Hooks.complaints, h]

/-! ### Surroundings that are left alone -/

/-- What an exchange has to do with. -/
def dealings (h : Host R) :
    List (Event R) × Search.Source R × List (Ranging.Call R) × (Ranging.Problem R → Ranging.Answer R) :=
  (h.events, h.source, h.rangingCalls, h.ranging)

theorem Exchange.Between.of_dealings {h k : Host R} (heq : dealings k = dealings h) : nothing.Between h k := by
  simp only [dealings, Prod.mk.injEq] at heq
  obtain ⟨hevents, hsource, hcalls, hranging⟩ := heq
  exact used_between (congrArg Search.Source.upcoming hsource.symm) hevents hcalls hranging

theorem Exchange.Between.congr {x : Exchange R} {h k l : Host R} (hx : x.Between h k)
    (heq : dealings l = dealings k) : x.Between h l := by
  have hlast := hx.trans (of_dealings heq)
  rwa [append, nothing, List.append_nil, List.append_nil, List.append_nil] at hlast

end Engine

end Optima
