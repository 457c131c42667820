import Optima.Proofs.Engine.Course

/-!
# Results that are backed by points

What an engine's results say is backed (`Backed`): without a best point there is no solution and the objective is zero,
a best point is that of a complete outcome and the objective is the one there, and a solution is the one at the best
point.

A solve leaves backed results wherever it ends, also when it is stopped by a fault (`solve_backed`).  Until the solution
is stored there is none, and each step of the search keeps what is there backed (`Pending`); from then on the point and
the objective do not change.  So only a solve that was stopped leaves a best point without a solution
(`solve_stored`).
-/

namespace Optima

namespace Search.Source

variable {R : Type}

/-- The source has this outcome for some program. -/
def Gives (source : Source R) (o : Outcome R) : Prop :=
  ∃ program, o ∈ source.outcomes program

theorem Gives.of_next {source : Source R} {o : Outcome R} (h : source.next.Gives o) : source.Gives o := by
  obtain ⟨program, ho⟩ := h
  cases source with
  | script outs => exact ⟨program, List.mem_of_mem_tail ho⟩
  | solver answer => exact ⟨program, ho⟩

end Search.Source

namespace Engine

variable {R : Type} [Scalar R]

open Search (Outcome Source)
open Optima.Action (Preserves Keeps)

/-- The results of an engine that solved with this source of outcomes are backed by its outcomes. -/
structure Backed (e : Engine R) (source : Source R) (r : Results R) : Prop where
  nothing : r.incumbent = none → r.objective = .scalar Scalar.zero ∧ r.solution = none
  point : ∀ x, r.incumbent = some x →
    (∃ o, source.Gives o ∧ o.found? e.columns.length = some x) ∧ r.objective = activity e.objective x
  solution : ∀ v, r.solution = some v → ∃ x, r.incumbent = some x ∧
    v = r.objective :: e.rows.map (fun row => activity row.entries x) ++ x.map .scalar

/-- Results without a point and without anything that would need one. -/
def Results.Blank (r : Results R) : Prop :=
  r.incumbent = none ∧ r.objective = .scalar Scalar.zero ∧ r.solution = none

theorem Results.blank_start (maximize : Bool) (sentinel : R) : (Results.start maximize sentinel).Blank :=
  ⟨rfl, rfl, rfl⟩

theorem Results.Blank.backed {r : Results R} (h : r.Blank) (e : Engine R) (source : Source R) : Backed e source r := by
  obtain ⟨hincumbent, hobjective, hsolution⟩ := h
  refine ⟨fun _ => ⟨hobjective, hsolution⟩, fun x hx => ?_, fun v hv => ?_⟩
  · rw [hincumbent] at hx
    cases hx
  · rw [hsolution] at hv
    cases hv

theorem Backed.congr {e e' : Engine R} {source : Source R} {r r' : Results R} (h : Backed e source r)
    (hengine : (e'.columns, e'.rows, e'.objective) = (e.columns, e.rows, e.objective))
    (hresults : (r'.incumbent, r'.objective, r'.solution) = (r.incumbent, r.objective, r.solution)) :
    Backed e' source r' := by
  simp only [Prod.mk.injEq] at hengine hresults
  obtain ⟨hcolumns, hrows, hobjective⟩ := hengine
  obtain ⟨hincumbent, hvalue, hsolution⟩ := hresults
  constructor <;> simp only [hcolumns, hrows, hobjective, hincumbent, hvalue, hsolution]
  · exact h.nothing
  · exact h.point
  · exact h.solution

/-- The search is going on: no solution has been stored, and the outcomes to come are some of those of the source at the
beginning. -/
structure Pending (e : Engine R) (source : Source R) (c : Core R) : Prop where
  program : (c.columns, c.rows, c.objective) = (e.columns, e.rows, e.objective)
  backed : Backed e source c.results
  unstored : c.results.solution = none
  later : ∀ o, c.source.Gives o → source.Gives o

section

variable {e : Engine R} {source : Source R}

/-- The search that the session is about is going on. -/
def Session.Pends (e : Engine R) (source : Source R) (s : Session R) : Prop := Pending e source s.core

/-- What the session's engine says is backed, and it still has its program. -/
def Session.Stands (e : Engine R) (source : Source R) (s : Session R) : Prop :=
  (s.core.columns, s.core.rows, s.core.objective) = (e.columns, e.rows, e.objective) ∧ Backed e source s.core.results

theorem stands_of_pends (s : Session R) (h : s.Pends e source) : s.Stands e source :=
  ⟨h.program, h.backed⟩

/-! ### Until the solution is stored -/

theorem pends_core {α : Type} {act : Work R α} (h : Keeps Session.core act) :
    Preserves (Session.Pends e source) act := by
  intro s hs
  rw [Session.Pends, h s]
  exact hs

theorem pends_load : Preserves (Session.Pends e source) (load : Work R Unit) := by
  intro s hs
  obtain ⟨t, hload, hcore⟩ := load_ok s
  rw [Action.after_ok hload, Session.Pends, hcore]
  exact ⟨hs.program, hs.backed, hs.unstored, hs.later⟩

theorem pends_noteBound (bound : Option R) : Preserves (Session.Pends e source) (noteBound bound) := by
  unfold noteBound
  split
  · exact .modify fun s hs => ⟨hs.program, hs.backed.congr rfl rfl, hs.unstored, hs.later⟩
  · exact .pure _

/-- A point of the source's outcomes may be looked at. -/
theorem pends_capture {o : Outcome R} (ho : source.Gives o) {point : List R}
    (hpoint : o.found? e.columns.length = some point) : Preserves (Session.Pends e source) (capture point) := by
  have hsend (m : Message) : Preserves (Session.Pends e source) (send m) := pends_core (keeps_send m)
  have hkeep (d : Engine R) (hd : d.objective = e.objective) : Preserves (Session.Pends e source)
      (if d.improves (activity d.objective point).value then do
        updateResults fun r => { r with
          incumbent := some point, objective := activity d.objective point, pointCount := r.pointCount + 1 }
        send (if d.isMixed then .milpBetter else .lpOptimal)
      else pure () : Work R Unit) := by
    split
    · refine Preserves.bind (.modify fun s hs => ⟨hs.program, ⟨nofun, ?_, ?_⟩, hs.unstored, hs.later⟩) fun _ => hsend _
      · rintro x ⟨⟩
        exact ⟨⟨o, ho, hpoint⟩, congrArg (activity · point) hd⟩
      · intro v hv
        have hnone : s.engine.results.solution = none := hs.unstored
        cases hnone.symm.trans hv
    · exact .pure _
  refine .get_bind fun s hs => ?_
  have hobjective : s.engine.objective = e.objective := congrArg (fun program => program.2.2) hs.program
  simp only
  split
  · exact (hsend _).bind (fun _ => hkeep s.engine hobjective) s hs
  · exact hkeep s.engine hobjective s hs

theorem pends_takeOutcome {o : Outcome R} (ho : source.Gives o) :
    Preserves (Session.Pends e source) (takeOutcome o) := by
  have hspend : Preserves (Session.Pends e source) (outside (modify fun h : Host R =>
      { h with clock := h.clock + o.seconds, source := h.source.next })) :=
    fun s hs => ⟨hs.program, hs.backed, hs.unstored, fun o' ho' => hs.later o' ho'.of_next⟩
  refine hspend.bind fun _ => ?_
  split
  · exact .throw _
  · split
    · next hstatus =>
      refine .get_bind fun s hs => ?_
      have hcolumns : s.engine.columns = e.columns := congrArg (fun program => program.1) hs.program
      rw [hcolumns]
      cases hvalues : o.values? e.columns.length with
      | none => exact pends_noteBound o.bound s hs
      | some point =>
        have hpoint : o.found? e.columns.length = some point := (if_pos hstatus).trans hvalues
        exact (pends_capture ho hpoint).bind (fun _ => pends_noteBound o.bound) s hs
    · exact pends_noteBound o.bound

theorem pends_beginSlice (plan : Plan R) (slice : R) : Preserves (Session.Pends e source) (beginSlice plan slice) := by
  have hrequest (budget : R) : Preserves (Session.Pends e source) (request budget plan.pointLimit) := by
    refine Preserves.get.bind fun s => ?_
    split
    · exact .pure _
    · exact fun s hs => ⟨hs.program, hs.backed, hs.unstored, hs.later⟩
  refine Preserves.get.bind fun s => ?_
  simp only
  split
  · exact .pure _
  · exact (hrequest _).bind fun _ => .pure _

theorem pends_slices (plan : Plan R) (slice : R) {outs : List (Outcome R)} (houts : ∀ o ∈ outs, source.Gives o) :
    Preserves (Session.Pends e source) (slices plan slice outs) := by
  induction outs generalizing slice with
  | nil =>
    refine (pends_beginSlice plan slice).bind fun verdict => ?_
    split
    · exact .pure _
    · exact .throw _
  | cons o outs ih =>
    obtain ⟨ho, houts⟩ := List.forall_mem_cons.1 houts
    refine (pends_beginSlice plan slice).bind fun verdict => ?_
    split
    · exact .pure _
    · refine (pends_takeOutcome ho).bind fun _ => ?_
      split
      · exact .pure _
      · refine (pends_core keeps_abortRequested).bind fun abort => ?_
        split
        · exact .pure _
        · exact (pends_core keeps_restart).bind fun _ => ih _ houts

theorem pends_optimize : Preserves (Session.Pends e source) (optimize : Work R Verdict) := by
  refine .get_bind fun s hs => ?_
  refine Preserves.bind (.lift _) (fun plan => pends_slices plan _ ?_) s hs
  exact fun o ho => hs.later o ⟨_, ho⟩

/-! ### From then on -/

theorem stands_plain {α : Type} {act : Work R α} (h : Keeps (fun s => s.core.plain) act) :
    Preserves (Session.Stands e source) act := by
  intro s hs
  have hprogram := congrArg (fun c : Core R => (c.columns, c.rows, c.objective)) (h s)
  have hresults := congrArg (fun c : Core R => (c.results.incumbent, c.results.objective, c.results.solution)) (h s)
  exact ⟨hprogram.trans hs.1, hs.2.congr rfl hresults⟩

/-- The solution at the best point may be stored. -/
theorem Session.Pends.store {s : Session R} (h : s.Pends e source) : Backed e source s.core.store.results := by
  unfold Core.store
  split
  · exact h.backed
  · next point hpoint =>
    refine ⟨fun hnone => ?_, h.backed.point, ?_⟩
    · cases hpoint.symm.trans hnone
    · rintro v ⟨⟩
      exact ⟨point, hpoint, congrArg (fun rows : List (Row R) =>
        s.core.results.objective :: rows.map (fun row => activity row.entries point) ++ point.map .scalar)
        (congrArg (fun program => program.2.1) h.program)⟩

theorem stands_storeSolution (s : Session R) (hs : s.Pends e source) :
    Session.Stands e source (storeSolution.after s) := by
  unfold Session.Stands
  rw [storeSolution_core]
  refine ⟨Eq.trans ?_ hs.program, hs.store⟩
  unfold Core.store
  split <;> rfl

theorem stands_conclude (verdict : Verdict) (s : Session R) (hs : s.Pends e source) :
    Session.Stands e source ((conclude verdict).after s) := by
  refine Preserves.bind_first (stands_storeSolution s hs) fun _ => Preserves.get.bind fun t => ?_
  split
  · exact (stands_plain keeps_rangeSolution).bind fun _ => .pure _
  · exact .pure _

theorem stands_searchProgram (s : Session R) (hs : s.Pends e source) :
    Session.Stands e source (searchProgram.after s) := by
  refine pends_load.bind_last stands_of_pends (fun _ => ?_) s hs
  refine (pends_core keeps_configure).bind_last stands_of_pends fun _ => ?_
  refine Preserves.bind_last .get stands_of_pends fun t => ?_
  refine (pends_core (keeps_log _)).bind_last stands_of_pends fun _ => ?_
  refine (pends_core keeps_abortRequested).bind_last stands_of_pends fun abort u hu => ?_
  split
  · exact stands_of_pends u hu
  · refine (pends_core (keeps_send _)).bind_last stands_of_pends (fun _ => ?_) u hu
    exact pends_optimize.bind_last stands_of_pends stands_conclude

theorem stands_run (s : Session R) (hs : s.Pends e source) : Session.Stands e source (run.after s) := by
  refine Preserves.bind_last .get stands_of_pends (fun t => ?_) s hs
  refine Preserves.bind_last (.lift _) stands_of_pends fun violated u hu => ?_
  split
  · have hlog (line : String) : Preserves (Session.Pends e source) (do log line; pure .infeasible : Work R Verdict) :=
      (pends_core (keeps_log line)).bind fun _ => .pure _
    exact stands_of_pends _ (hlog _ u hu)
  · exact stands_searchProgram u hu

end

/-- A solve leaves its engine with its program and with results that are backed by the outcomes, wherever it ends. -/
theorem solve_backed {s : Session R} (h : s.engine.results.Blank) :
    (((solve.after s).engine.columns, (solve.after s).engine.rows, (solve.after s).engine.objective) =
      (s.engine.columns, s.engine.rows, s.engine.objective)) ∧
    Backed s.engine s.host.source (solve.after s).engine.results := by
  cases hdefect : s.engine.defects.solve with
  | some text =>
    have hsame : solve.after s = s := by
      unfold solve
      rw [Action.after_get_bind, hdefect]
      rfl
    rw [hsame]
    exact ⟨rfl, h.backed _ _⟩
  | none =>
    have hbegun : s.begun.Pends s.engine s.host.source :=
      ⟨rfl, (Results.blank_start _ _).backed _ _, rfl, fun _ ho => ho⟩
    have hrun := stands_run _ hbegun
    have hplain := (solve_after hdefect).1
    exact ⟨(congrArg (fun c : Core R => (c.columns, c.rows, c.objective)) hplain).trans hrun.1,
      hrun.2.congr rfl
        (congrArg (fun c : Core R => (c.results.incumbent, c.results.objective, c.results.solution)) hplain)⟩

/-- What is stored is there when there is a best point, and only then. -/
theorem Core.store_iff {c : Core R} (h : c.results.solution = none) :
    c.store.results.incumbent = none ↔ c.store.results.solution = none := by
  unfold store
  cases hpoint : c.results.incumbent with
  | none => exact iff_of_true hpoint h
  | some point => exact iff_of_false (by simp [hpoint]) (by simp)

/-- A solve that goes through has stored the solution if it has found a point. -/
theorem solve_stored {s t : Session R} {v : Verdict} (h : solve s = .ok v t) :
    t.engine.results.incumbent = none ↔ t.engine.results.solution = none := by
  rcases solve_ok h with ⟨r, -, -, hplain⟩ | ⟨-, used, rest, more, -, hplain, -⟩
  · have hincumbent : t.engine.results.incumbent = none := congrArg (fun c => c.results.incumbent) hplain
    have hsolution : t.engine.results.solution = none := congrArg (fun c => c.results.solution) hplain
    exact iff_of_true hincumbent hsolution
  · have hstored := Core.store_iff (Core.foldl_take_solution used s.begun.loadedCore)
    generalize (used.foldl Core.take s.begun.loadedCore).store = stored at hstored hplain
    have hincumbent : t.engine.results.incumbent = stored.results.incumbent :=
      congrArg (fun c => c.results.incumbent) hplain
    have hsolution : t.engine.results.solution = stored.results.solution :=
      congrArg (fun c => c.results.solution) hplain
    rw [hincumbent, hsolution, hstored]

end Engine

end Optima
