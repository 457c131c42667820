import Optima.Proofs.Engine.Knobs
import Optima.Proofs.Engine.Loaded
import Optima.Proofs.Engine.Notes

/-!
# The course of a solve

A solve makes one search in slices, or it ends before it comes to that: because a row without entries rules out every
point, because the first answer to the question whether to abort was yes, or because of a fault.  In the first case
there is a run of slices, begun in a session that differs from the one before only in what was handed over and told
(`Begins`), and what the solve leaves is what that run leaves, as far as the clock, the outcomes to come and the calls
are concerned.  If the solve goes through, its verdict is that of the run.

`solve_course` says this of every run of a solve, whether or not it stops with a fault.
-/

namespace Optima

namespace Engine

variable {R : Type} [Scalar R]

open Search (Outcome Request)

open Optima.Action (Keeps)

/-- The clock, the outcomes to come and the calls. -/
def Core.tally (c : Core R) : R × Search.Source R × List (Request R) :=
  (c.clock, c.source, c.requests)

/-- What is left alone as long as there is no search: the tally, the number of points, and what the observer of
messages got. -/
def Session.calm (s : Session R) :
    ((R × Search.Source R × List (Request R)) × Nat) × Bool × Int × List Message :=
  ((s.core.tally, s.engine.results.pointCount), s.listening)

/-- A search begins in the session `x`, and `s` is how things stood before. -/
structure Begins (s x : Session R) : Prop where
  core : x.core = s.loadedCore
  tuned : ∃ search, x.engine.search = some search ∧ Tuned s.engine s.engine.leftCutoff search.knobs ∧
    search.start = s.engine.leftStart
  poller : x.engine.hooks.poller.isSome = s.engine.hooks.poller.isSome
  told : Told s [.presolve] x

theorem Begins.search {s x : Session R} (h : Begins s x) : x.engine.search.isSome = true := by
  obtain ⟨search, hsearch, -⟩ := h.tuned
  rw [hsearch, Option.isSome_some]

/-- What is done in the session `s` comes to its end without a search, or it makes one, and that is all it does with the
clock, the outcomes and the calls.  The session `s₀` is how things stood at first. -/
def Courses (s₀ : Session R) (act : Work R Verdict) (s : Session R) : Prop :=
  ((act.after s).core.tally = s.core.tally ∧
    ∀ v t, act s = .ok v t → (v = .infeasible ∨ v = .userAbort) ∧ t.calm = s.calm) ∨
  ∃ x, Begins s₀ x ∧ (act.after s).core.tally = (optimize.after x).core.tally ∧ ∀ v t, act s = .ok v t →
    ∃ y, optimize x = .ok v y ∧ t.listening = y.listening ∧ t.core.plain = y.core.store.plain

namespace Courses

variable {s₀ s : Session R}

theorem of_error {act : Work R Verdict} {fault : Fault} {t : Session R} (h : act s = .error fault t)
    (ht : t.core.tally = s.core.tally) : Courses s₀ act s := by
  refine .inl ⟨by rw [Action.after_error h, ht], fun v u hrun => ?_⟩
  rw [h] at hrun
  cases hrun

protected theorem pure {v : Verdict} (h : v = .infeasible ∨ v = .userAbort) : Courses s₀ (pure v) s := by
  refine .inl ⟨rfl, fun w t hrun => ?_⟩
  cases hrun
  exact ⟨h, rfl⟩

theorem resume {act next : Work R Verdict} {u : Session R} (hsame : act s = next u) (hcalm : u.calm = s.calm)
    (h : Courses s₀ next u) : Courses s₀ act s := by
  have hafter : act.after s = next.after u := by rw [Action.after_eq, Action.after_eq, hsame]
  rcases h with ⟨htally, hok⟩ | ⟨x, hbegins, htally, hok⟩
  · refine .inl ⟨?_, fun v t hrun => ?_⟩
    · rw [hafter, htally]
      exact congrArg (fun calm => calm.1.1) hcalm
    · obtain ⟨hv, ht⟩ := hok v t (hsame ▸ hrun)
      exact ⟨hv, ht.trans hcalm⟩
  · exact .inr ⟨x, hbegins, by rw [hafter, htally], fun v t hrun => hok v t (hsame ▸ hrun)⟩

/-- After work that makes no search. -/
protected theorem bind {α : Type} {act : Work R α} {f : α → Work R Verdict} (hact : Keeps Session.calm act)
    (hf : ∀ a u, act s = .ok a u → Courses s₀ (f a) u) : Courses s₀ (act >>= f) s := by
  rcases Action.bind_cases act f s with ⟨fault, t, hrun, hbind⟩ | ⟨a, u, hrun, hbind⟩
  · exact of_error hbind (congrArg (fun calm => calm.1.1) (hact.error hrun))
  · exact resume hbind (hact.ok hrun) (hf a u hrun)

end Courses

/-! ### Work that makes no search -/

/-- The tally and the number of points, as they are read off the core. -/
private def Core.counts (c : Core R) : (R × Search.Source R × List (Request R)) × Nat :=
  (c.tally, c.results.pointCount)

omit [Scalar R] in
theorem calm_of_core {α : Type} {act : Work R α} (hcore : Keeps Session.core act)
    (hlistening : Keeps Session.listening act) : Keeps Session.calm act :=
  fun s => Prod.ext (congrArg Core.counts (hcore s)) (hlistening s)

theorem calm_load : Keeps Session.calm (load : Work R Unit) := by
  intro s
  obtain ⟨t, hload, hcore⟩ := load_ok s
  have hcounts : t.core.counts = s.core.counts := by
    rw [hcore]
    rfl
  have hlistening := listening_of_audience audience_load s
  rw [Action.after_ok hload] at hlistening ⊢
  exact Prod.ext hcounts hlistening

theorem calm_log (text : String) : Keeps Session.calm (log text : Work R Unit) :=
  calm_of_core (keeps_log text) (listening_log text)

theorem calm_abortRequested : Keeps Session.calm (abortRequested : Work R Bool) :=
  calm_of_core keeps_abortRequested listening_abortRequested

theorem calm_configure : Keeps Session.calm (configure : Work R Unit) :=
  calm_of_core keeps_configure (listening_of_audience (audience_of_still still_configure))

/-! ### What follows a search -/

/-- What is done when a search has gone through. -/
def conclude (verdict : Verdict) : Work R Verdict := do
  storeSolution
  if verdict = .optimal && (← get).engine.wantsSensitivity then rangeSolution
  pure verdict

theorem conclude_tally (verdict : Verdict) : Keeps (fun s => s.core.tally) (conclude verdict : Work R Verdict) := by
  have hrange : Keeps (fun s => s.core.tally) (rangeSolution : Work R Unit) :=
    keeps_rangeSolution.map Core.tally
  have hstore : Keeps (fun s => s.core.tally) (storeSolution : Work R Unit) := by
    refine Keeps.get.bind fun s => ?_
    simp only
    split
    · exact .pure _
    · exact .modify fun _ => rfl
  refine hstore.bind fun _ => Keeps.get.bind fun s => ?_
  split
  · exact hrange.bind fun _ => .pure _
  · exact .pure _

theorem noted_conclude {α : Type} {pick : Event R → Option α} (hpick : ∀ text phase, pick (.log text phase) = none)
    (verdict : Verdict) : Keeps (Session.noted pick) (conclude verdict : Work R Verdict) := by
  refine (noted_of_audience audience_storeSolution).bind fun _ => Keeps.get.bind fun s => ?_
  split
  · exact (noted_rangeSolution hpick).bind fun _ => .pure _
  · exact .pure _

theorem conclude_ok {verdict v : Verdict} {s t : Session R} (h : conclude verdict s = .ok v t) :
    v = verdict ∧ t.core.plain = s.core.store.plain := by
  obtain ⟨⟨⟩, z, hstore, h⟩ := Action.bind_eq_ok.1 h
  have hz : z.core = s.core.store := by rw [← Action.after_ok hstore, storeSolution_core]
  rw [Action.get_bind_run] at h
  split at h
  · obtain ⟨⟨⟩, w, hrange, h⟩ := Action.bind_eq_ok.1 h
    cases h
    exact ⟨rfl, (keeps_rangeSolution.ok hrange).trans (congrArg Core.plain hz)⟩
  · cases h
    exact ⟨rfl, congrArg Core.plain hz⟩

/-- Work that comes down to a search and what follows it. -/
theorem Courses.search {s₀ s x : Session R} {act : Work R Verdict} (hbegins : Begins s₀ x)
    (hsame : act s = (optimize >>= conclude) x) : Courses s₀ act s := by
  refine .inr ⟨x, hbegins, ?_, fun v t hrun => ?_⟩
  · rw [Action.after_eq, hsame]
    rcases Action.bind_cases optimize conclude x with ⟨fault, t, hrun, hbind⟩ | ⟨verdict, y, hrun, hbind⟩
    · rw [hbind, Action.after_error hrun]
      rfl
    · rw [hbind, Action.after_ok hrun]
      exact conclude_tally verdict y
  · rw [hsame] at hrun
    obtain ⟨verdict, y, hoptimize, hconclude⟩ := Action.bind_eq_ok.1 hrun
    obtain ⟨rfl, hplain⟩ := conclude_ok hconclude
    exact ⟨y, hoptimize, (listening_of_noted (noted_conclude (fun _ _ => rfl) v)).ok hconclude, hplain⟩

/-! ### From the beginning to the end -/

/-- When the program has been handed over there is a search. -/
theorem loadedCore_handed {s : Session R} (hfit : s.engine.Fit) : s.loadedCore.handed.isSome = true := by
  show (if s.engine.loaded then s.engine.search.map Search.Model.program else some s.engine.program).isSome = true
  split
  · next hloaded =>
    rw [Option.isSome_map]
    exact hfit.search hloaded
  · rfl

omit [Scalar R] in
/-- Somebody is asked whether to abort if somebody was asked before. -/
theorem poller_isSome_of_parties {s t : Session R} (h : t.engine.hooks.parties = s.engine.hooks.parties) :
    t.engine.hooks.poller.isSome = s.engine.hooks.poller.isSome := by
  have hpoller (h : Hooks R) : h.poller.isSome = h.parties.1.isSome := by simp [Hooks.parties]
  rw [hpoller, h, ← hpoller]

/-- What the search has been told when it begins. -/
theorem tuned_of_steps {s l c d a x : Session R} {text : String} (hfit : s.engine.Fit) (hload : load s = .ok ⟨⟩ l)
    (hconfigure : configure l = .ok ⟨⟩ c) (hlog : log text c = .ok ⟨⟩ d) (habort : abortRequested d = .ok false a)
    (hsend : send .presolve a = .ok ⟨⟩ x) : ∃ search, x.engine.search = some search ∧
      Tuned s.engine s.engine.leftCutoff search.knobs ∧ search.start = s.engine.leftStart := by
  obtain ⟨search?, n, latest, hload', hprogram, hcutoff, hstart⟩ := load_run s
  cases hload'.symm.trans hload
  -- there is a search, since it holds a program
  obtain ⟨search, rfl⟩ : ∃ search, search? = some search := by
    have hsome := loadedCore_handed hfit
    rw [Session.loadedCore, ← hprogram, Option.isSome_map] at hsome
    exact Option.isSome_iff_exists.1 hsome
  obtain ⟨k, hknobs, htuned⟩ := configure_ok rfl hconfigure
  have hsame : x.engine.search = c.engine.search :=
    ((keeps_search_send _).ok hsend).trans
      ((keeps_search_abortRequested.ok habort).trans ((keeps_search_log _).ok hlog))
  refine ⟨_, hsame.trans hknobs, ?_, hstart⟩
  rw [← hcutoff]
  exact htuned.congr rfl

/-- What is done before a search leaves the core and the observers alone, but for what is handed over. -/
theorem Begins.of_steps {s l c d a x : Session R} {text : String} (hfit : s.engine.Fit) (hload : load s = .ok ⟨⟩ l)
    (hconfigure : configure l = .ok ⟨⟩ c) (hlog : log text c = .ok ⟨⟩ d) (habort : abortRequested d = .ok false a)
    (hsend : send .presolve a = .ok ⟨⟩ x) : Begins s x := by
  obtain ⟨l', hload', hl⟩ := load_ok s
  cases hload'.symm.trans hload
  have hcore : x.core = s.loadedCore :=
    ((keeps_send _).ok hsend).trans ((keeps_abortRequested.ok habort).trans
      (((keeps_log _).ok hlog).trans ((keeps_configure.ok hconfigure).trans hl)))
  have hlistening : a.listening = s.listening :=
    congrArg Prod.snd ((calm_abortRequested.ok habort).trans (((calm_log _).ok hlog).trans
      ((calm_configure.ok hconfigure).trans (calm_load.ok hload))))
  have hbefore : c.engine.hooks = s.engine.hooks := by
    have hconfigured : c.engine.hooks = l.engine.hooks :=
      congrArg Prod.fst ((audience_of_still still_configure).ok hconfigure)
    have hloaded : l.engine.hooks = s.engine.hooks := congrArg Prod.fst (audience_load.ok hload)
    rw [hconfigured, hloaded]
  obtain ⟨_, hlogged, -⟩ := (hears_log _ c).ok hlog
  obtain ⟨_, hasked, -⟩ := (hears_abortRequested d).ok habort
  obtain ⟨_, hsent, -⟩ := (hears_send _ a).ok hsend
  have hpoller : x.engine.hooks.poller.isSome = s.engine.hooks.poller.isSome := by
    rw [poller_isSome_of_parties (hsent.parties.trans (hasked.parties.trans hlogged.parties)), hbefore]
  exact ⟨hcore, tuned_of_steps hfit hload hconfigure hlog habort hsend, hpoller,
    (Told.of_listening hlistening).trans (send_told hsend)⟩

theorem searchProgram_courses {s : Session R} (hfit : s.engine.Fit) : Courses s searchProgram s := by
  refine .bind calm_load fun _ l hload => .bind calm_configure fun _ c hconfigure => ?_
  refine .resume (Action.get_bind_run _ c) rfl ?_
  refine .bind (calm_log _) fun _ d hlog => .bind calm_abortRequested fun abort a habort => ?_
  cases abort with
  | true => exact .pure (.inr rfl)
  | false =>
    show Courses s (send .presolve >>= fun _ => optimize >>= conclude) a
    rcases Action.bind_cases (send .presolve) (fun _ => optimize >>= conclude) a with
      ⟨fault, t, hsend, hbind⟩ | ⟨_, x, hsend, hbind⟩
    · exact .of_error hbind (congrArg Core.tally ((keeps_send _).error hsend))
    · exact .search (.of_steps hfit hload hconfigure hlog habort hsend) hbind

theorem run_courses {s : Session R} (hfit : s.engine.Fit) : Courses s run s := by
  refine .resume (Action.get_bind_run _ s) rfl ?_
  refine .bind (.lift _) fun violated u hviolated => ?_
  obtain ⟨-, rfl⟩ := Action.lift_eq_ok.1 hviolated
  cases violated with
  | some r => exact .bind (calm_log _) fun _ _ _ => .pure (.inl rfl)
  | none => exact searchProgram_courses hfit

/-- Beside what its run leaves, a solve keeps the time that the run took, also when the run stopped with a fault. -/
theorem solve_after {s : Session R} (hdefect : s.engine.defects.solve = none) :
    (solve.after s).core.plain = (run.after s.begun).core.plain ∧
      (solve.after s).engine.results.elapsed = (solve.after s).host.clock - s.host.clock := by
  cases hrun : run s.begun with
  | error fault w =>
    rw [Action.after_error (solve_of_fault hdefect hrun), Action.after_error hrun]
    exact ⟨rfl, rfl⟩
  | ok v w =>
    obtain ⟨text, hsolve⟩ := solve_of_run hdefect hrun
    have hcore : (solve.after s).core = (w.ended v (w.host.clock - s.host.clock)).core := by
      rw [Action.after_eq, hsolve, ← Action.after_eq]
      exact ((keeps_log text).bind fun _ => .pure v) _
    have helapsed : (solve.after s).engine.results.elapsed = w.host.clock - s.host.clock :=
      congrArg (fun c => c.results.elapsed) hcore
    have hclock : (solve.after s).host.clock = w.host.clock := congrArg Core.clock hcore
    rw [Action.after_ok hrun, hcore, helapsed, hclock]
    exact ⟨rfl, rfl⟩

/-- The plan of a search is that of the engine before the solve. -/
theorem Begins.plan {s x : Session R} (h : Begins s x) : x.engine.plan x.host.clock = s.engine.plan s.host.clock := by
  have hclock : x.host.clock = s.host.clock := congrArg Core.clock h.core
  have hsettings : x.engine.settings = s.engine.settings := congrArg Core.settings h.core
  have hmixed : x.engine.isMixed = s.engine.isMixed :=
    congrArg (fun c : Core R => !c.sets.isEmpty || c.columns.any Column.integer) h.core
  unfold Engine.plan
  rw [hclock, hsettings, hmixed, h.poller]

section

variable {s x : Session R} (h : Begins s.begun x)
include h

/-- The search begins when the solve does. -/
theorem Begins.clock : x.host.clock = s.host.clock :=
  congrArg Core.clock h.core

/-- The outcomes to come are those of the script. -/
theorem Begins.outcomes {outs : List (Outcome R)} (hsource : s.host.source = .script outs) : x.core.outcomes = outs := by
  have hscript : x.core.source = .script outs := (congrArg Core.source h.core).trans hsource
  rw [Core.outcomes, hscript]
  rfl

/-- The calls since the beginning of the solve are those of the search. -/
theorem Begins.callsSince {plan : Plan R} {slice : R} {outs : List (Outcome R)} {calls : List (Request R)}
    {res : EStateM.Result Fault (Session R) Verdict} (hslicing : Slicing plan slice outs x calls res) {t : Session R}
    (htally : t.core.tally = (Action.stateOf res).core.tally) : s.callsSince t = calls := by
  have hcalled : x.host.requests = s.host.requests := congrArg Core.requests h.core
  have hrequests : t.host.requests = (Action.stateOf res).host.requests := congrArg (fun tally => tally.2.2) htally
  rw [← hslicing.callsSince, Session.callsSince, Session.callsSince, hrequests, hcalled]

end

/-- Every solve ends without a search, or it makes a search in slices and then there is nothing to come that has to do
with the clock, the outcomes, the calls or messages. -/
theorem solve_course {s : Session R} (hfit : s.engine.Fit) :
    ((solve.after s).core.tally = s.core.tally ∧
      ∀ v t, solve s = .ok v t → (v = .infeasible ∨ v = .userAbort) ∧ t.calm = s.begun.calm) ∨
    ∃ plan x calls res, s.engine.plan s.host.clock = .ok plan ∧ Begins s.begun x ∧
      Slicing plan Scalar.one x.core.outcomes x calls res ∧
      (solve.after s).core.tally = (Action.stateOf res).core.tally ∧
      ∀ v t, solve s = .ok v t →
        ∃ y, res = .ok v y ∧ t.listening = y.listening ∧ t.core.plain = y.core.store.plain := by
  have hdefect : s.engine.defects.solve = none := by
    rw [hfit.defects]
    rfl
  have hafter : (solve.after s).core.tally = (run.after s.begun).core.tally := by
    have hplain := congrArg Core.tally (solve_after hdefect).1
    exact hplain
  -- the end of the solve is quiet
  have hend {v : Verdict} {t : Session R} (hsolve : solve s = .ok v t) :
      ∃ w, run s.begun = .ok v w ∧ t.core.plain = w.core.plain ∧ t.listening = w.listening := by
    obtain ⟨w, text, hrun, hlog⟩ := solve_steps hsolve
    refine ⟨w, hrun, ?_, ?_⟩
    · rw [(keeps_log text).ok hlog]
      rfl
    · rw [(listening_log text).ok hlog]
      rfl
  rw [hafter]
  have hfit' : s.begun.engine.Fit := ⟨hfit.defects, hfit.search⟩
  rcases run_courses hfit' with ⟨htally, hok⟩ | ⟨x, hbegins, htally, hok⟩
  · refine .inl ⟨htally, fun v t hsolve => ?_⟩
    obtain ⟨w, hrun, hplain, hlistening⟩ := hend hsolve
    obtain ⟨hv, hcalm⟩ := hok v w hrun
    have hcounts : t.core.counts = w.core.counts := by
      have hplain := congrArg Core.counts hplain
      exact hplain
    exact ⟨hv, (Prod.ext hcounts hlistening : t.calm = w.calm).trans hcalm⟩
  · have hplan := hbegins.plan
    cases hplanned : s.engine.plan s.host.clock with
    | error fault =>
      have hoptimize : optimize x = .error fault x := by
        unfold optimize
        rw [Action.get_bind_run, hplan.trans hplanned]
        rfl
      rw [htally, Action.after_error hoptimize, hbegins.core]
      refine .inl ⟨rfl, fun v t hsolve => ?_⟩
      obtain ⟨w, hrun, -, -⟩ := hend hsolve
      obtain ⟨y, hy, -, -⟩ := hok v w hrun
      rw [hoptimize] at hy
      cases hy
    | ok plan =>
      have hoptimize : optimize x = slices plan Scalar.one x.core.outcomes x := by
        unfold optimize
        rw [Action.get_bind_run, hplan.trans hplanned]
        rfl
      obtain ⟨calls, hslicing⟩ := slices_slicing plan Scalar.one x.core.outcomes hbegins.search
      refine .inr ⟨plan, x, calls, _, rfl, hbegins, hslicing, ?_, fun v t hsolve => ?_⟩
      · rw [htally, Action.after_eq, hoptimize]
      · obtain ⟨w, hrun, hplain, hlistening⟩ := hend hsolve
        obtain ⟨y, hy, hlast, hstored⟩ := hok v w hrun
        exact ⟨y, hoptimize ▸ hy, hlistening.trans hlast, hplain.trans hstored⟩

/-! ### A small engine to solve with -/

/-- An engine with one column, which is integer and to be minimised. -/
def singleEngine : Engine Extended :=
  (new 1 .none ⟨1, .empty, Search.Knobs.start, none⟩).performed [
    .setInteger 1 (.flag true), .setObjective [.integer 1] [1]]

theorem singleEngine_built : Built singleEngine :=
  (Built.new 1 ⟨1, .empty, Search.Knobs.start, none⟩).performed (by simp [Call.Even])

/-- Surroundings in which these are the outcomes to come. -/
def offering (outs : List (Outcome Extended)) : Host Extended :=
  { (Host.start (.script outs) Exact.ranging : Host Extended) with searches := 1 }

/-- The small engine after these calls, somebody who gives these answers to the question whether to abort, and these
outcomes to come. -/
def asking (polls : List (Poll Extended)) (calls : List (Call Extended)) (outs : List (Outcome Extended)) :
    Session Extended :=
  ⟨((Operation.setPoller (some ⟨polls, false⟩)).perform.after ⟨singleEngine.performed calls, offering outs⟩).engine,
    offering outs⟩

theorem asking_used (polls : List (Poll Extended)) {calls : List (Call Extended)} (heven : ∀ c ∈ calls, c.Even)
    (outs : List (Outcome Extended)) : Used (asking polls calls outs).engine :=
  .operated _ _ (.built (singleEngine_built.performed heven))

end Engine

end Optima
