import Optima.Exact.Ranging
import Optima.Proofs.Engine.Ranging
import Optima.Proofs.Report.Sensitivity
import Optima.Proofs.Solver.Steps
import Optima.Report.Details

/-!
# The sensitivity report of a solve

When ranging is wanted of a solve that ends well, the ranging pass is handed the linear program of the best point, and
its answer is kept by the engine that holds the model.  Nothing that the solve does afterwards touches the two, so the
report that the solver then gives speaks of the vids of the model as the answer does (`solve_reports`).
-/

namespace Optima.Solver

variable {R : Type} [Scalar R]

/-- After its search an engine that was encoded from a model still holds it, with the same sentinel. -/
theorem held_of_solve {m : Model R} {p : Params R} {settings : Settings R} {h : Search.Model R} {host : Host R}
    {v : Verdict} {w : Engine.Session R}
    (hsolve : Engine.solve ⟨told p (Encoding.described m settings.sentinel h) settings, host⟩ = .ok v w) :
    Encoding.Held m w.engine ∧ w.engine.sentinel = settings.sentinel := by
  have hgiven := Engine.solve_given hsolve
  simp only [Engine.Core.given, Prod.mk.injEq] at hgiven
  obtain ⟨hcolumns, hrows, hobjective, -, -, hsettings⟩ := hgiven
  have hsentinel : w.engine.sentinel = settings.sentinel := congrArg Settings.sentinel hsettings
  refine ⟨⟨?_, ?_, hobjective⟩, hsentinel⟩
  · rw [hsentinel]
    exact hcolumns
  · rw [hsentinel]
    exact hrows

/-- A solve that ends well and of which ranging is wanted is reported on: the ranging pass has been handed the linear
program of the best point, and if its answer is an optimal one of the right size, the report speaks of the vids of the
model as the answer does. -/
theorem solve_reports {s t : Session R} {p : Params R} (hm : s.model.Reachable)
    (hfactory : s.solver.factory = .standard) (hphase : s.phase = .start) (hwants : p.sensitivity.truth = true)
    (hsolve : solve p s = .ok ⟨⟩ t) (hverdict : t.solver.verdict = .optimal) :
    ∃ report, t.sensitivityReport? = .ok (some report) ∧ ∀ x, report.engine.results.incumbent = some x →
      t.host.rangingCalls = s.host.rangingCalls ++ .silence :: (report.engine.rangingProblem x).calls ∧
      ∀ answer, s.host.ranging (report.engine.rangingProblem x) = answer → answer.status = .optimal →
        answer.Fits (report.engine.rangingProblem x) →
          report.Speaks s.model (report.engine.rangingProblem x) answer := by
  obtain ⟨u, line, hrun, rfl⟩ := solve_ok hphase hsolve
  obtain ⟨⟨⟩, b, hsearch, hextract⟩ := Action.bind_eq_ok.1 hrun
  have haside : aside u = aside b := keeps_extract.ok hextract
  obtain ⟨settings, journal, v, w, -, hsearched, rfl⟩ := search_steps (s := claimed s) hm.proper hfactory hsearch
  have hsolver : u.solver = ⟨s.solver.factory, some ⟨w.engine, Encoding.namingOf s.model settings.sentinel⟩, v,
    p.sensitivity⟩ := congrArg Prod.fst haside
  have hcalls : u.host.rangingCalls = w.host.rangingCalls := by
    have hhost := congrArg (fun q : Solver R × Host R => q.2.rangingCalls) haside
    exact hhost
  obtain rfl : v = .optimal := by
    rw [← hverdict]
    exact (congrArg Solver.verdict hsolver).symm
  obtain ⟨hheld, hsentinel⟩ := held_of_solve hsearched
  obtain ⟨hproblem, hanswers⟩ := Engine.solve_problems hsearched
  refine ⟨⟨w.engine, Encoding.namingOf s.model settings.sentinel⟩, ?_, fun x hbest => ?_⟩
  · have hreported : (settled u line).solver = u.solver := rfl
    simp only [Session.sensitivityReport?, hreported, hsolver, hwants, ↓reduceIte]
  · have hranged := Engine.solve_ranges hsearched hwants hbest
    have hproblemAt := congrFun hproblem x
    refine ⟨?_, fun answer hanswer hoptimal hfits => ?_⟩
    · rw [hproblemAt]
      exact hcalls.trans hranged.calls
    · have hsensitivity := hranged.sensitivity
      rw [← hproblem, ← hanswers] at hsensitivity
      subst hanswer
      rw [← hsentinel]
      exact SensitivityReport.speaks hheld rfl hfits (hsensitivity hoptimal)

/-- A solver of a model with rows of all kinds, with one outcome that has all values. -/
def rangedSession : Session Extended :=
  ⟨.new .standard, .performed Model.mixture,
    .start (.script [⟨.rat 1, none, .optimal, [some (.rat 3), some (.rat 2)], none⟩]) Exact.ranging⟩

def rangedParams : Params Extended :=
  { Params.start with sensitivity := .flag true }

/-- Whether a solve ended well, with a point whose linear program the ranging pass answers. -/
def endsRanged (result : EStateM.Result Fault (Session Extended) Unit) : Bool :=
  match result with
  | .error _ _ => false
  | .ok _ t => t.solver.verdict = .optimal && t.solver.encoding.any fun encoding =>
    encoding.engine.results.incumbent.any fun x =>
      let answer := rangedSession.host.ranging (encoding.engine.rangingProblem x)
      answer.status = .optimal && decide (answer.Fits (encoding.engine.rangingProblem x))

theorem solve_reports_mixture :
    rangedSession.model.Reachable ∧ rangedSession.solver.factory = .standard ∧ rangedSession.phase = .start ∧
      rangedParams.sensitivity.truth = true ∧ ∃ t report x, solve rangedParams rangedSession = .ok ⟨⟩ t ∧
        t.solver.verdict = .optimal ∧ t.sensitivityReport? = .ok (some report) ∧
        report.engine.results.incumbent = some x ∧
        t.host.rangingCalls = .silence :: (report.engine.rangingProblem x).calls ∧
        report.Speaks rangedSession.model (report.engine.rangingProblem x)
          (Exact.ranging (report.engine.rangingProblem x)) := by
  have hm : rangedSession.model.Reachable := Model.reachable_performed _
  have hfactory : rangedSession.solver.factory = .standard := rfl
  have hphase : rangedSession.phase = .start := rfl
  have hwants : rangedParams.sensitivity.truth = true := rfl
  have hends : endsRanged (solve rangedParams rangedSession) = true := by decide +kernel
  refine ⟨hm, hfactory, hphase, hwants, ?_⟩
  cases hsolve : solve rangedParams rangedSession with
  | error fault t =>
    rw [hsolve] at hends
    cases hends
  | ok u t =>
    rw [hsolve] at hends
    simp only [endsRanged, Bool.and_eq_true, decide_eq_true_eq, Option.any_eq_true] at hends
    obtain ⟨hverdict, encoding, hencoding, x, hbest, hoptimal, hfits⟩ := hends
    obtain ⟨report, hreport, hspeaks⟩ := solve_reports hm hfactory hphase hwants hsolve hverdict
    have hengine : report.engine = encoding.engine := by
      simp only [Session.sensitivityReport?, hencoding, Except.ok.injEq] at hreport
      split at hreport
      · rw [← Option.some.inj hreport]
      · cases hreport
    rw [← hengine] at hbest hoptimal hfits
    obtain ⟨hcalls, hanswer⟩ := hspeaks x hbest
    exact ⟨t, report, x, rfl, hverdict, hreport, hbest, hcalls, hanswer _ rfl hoptimal hfits⟩

end Optima.Solver
