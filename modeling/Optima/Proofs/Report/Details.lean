import Optima.Proofs.Solver.Histories
import Optima.Report.Details

/-!
# When there is a report

Details of a solve can be had as long as the solve is over and its engine is there.  Whether the engine has found a
solution does not matter: an engine that has none reports the goal value it has, which is that of its best point if it
was stopped after it had found one, and zero otherwise.

So after any calls of a new solver either nothing can be had, because the first call was no solve, the model could not
be encoded, or the solver has been shut down; or everything can be had that the settings allow, and what is said of the
goal is what the engine's results say (`report_account`).
-/

namespace Optima.Solver

variable {R : Type} [Scalar R]

/-- There is nothing to report on. -/
structure Session.Silent (s : Session R) : Prop where
  iterations : s.reportedIterations = .error .nothingToReport
  presolveLoops : s.reportedPresolveLoops = .error .nothingToReport
  nodes : s.reportedNodes = .error .nothingToReport
  pivots : s.reportedPivots = .error .nothingToReport
  details : s.details = .error .nothingToReport

/-- The reports are about this engine.  Only settings of the wrong kind can keep the details from being given. -/
structure Session.Reports (s : Session R) (e : Engine R) : Prop where
  iterations : s.reportedIterations = .ok e.results.iterations
  presolveLoops : s.reportedPresolveLoops = (e.settings.get .presolveLoops).toInteger
  nodes : s.reportedNodes = .ok 0
  pivots : s.reportedPivots = (e.settings.get .maxPivot).toInteger
  details_iff : (∃ text, s.details = .ok text) ↔ (∃ n, (e.settings.get .presolveLoops).toInteger = .ok n) ∧
    (s.model.isMixed = true ∨ ∃ n, (e.settings.get .maxPivot).toInteger = .ok n) ∧
    ∃ simplex, e.settings.simplexType = .ok simplex
  goal : ∀ text, s.details = .ok text →
    ∃ front, text = front ++ "\n" ++ ("Goal value:" ++ e.results.objective.text) ++ "\n"

theorem silent_of_not_hasSolution {s : Session R} (h : s.hasSolution = false) : s.Silent := by
  have hmust : s.mustHaveSolution = .error .nothingToReport := by
    unfold Session.mustHaveSolution
    rw [h]
    rfl
  constructor
  · unfold Session.reportedIterations
    rw [hmust]
    rfl
  · unfold Session.reportedPresolveLoops
    rw [hmust]
    rfl
  · unfold Session.reportedNodes
    rw [hmust]
    rfl
  · unfold Session.reportedPivots
    rw [hmust]
    rfl
  · unfold Session.details Session.detailLines
    rw [hmust]
    rfl

section

variable {s : Session R} {enc : Encoding R} (henc : s.solver.encoding = some enc)
include henc

omit [Scalar R] in
theorem engine_eq : s.engine = .ok enc.engine := by
  unfold Session.engine
  rw [henc]

omit [Scalar R] in
theorem goalValue_eq : s.goalValue = .ok enc.engine.results.objective := by
  unfold Session.goalValue
  rw [engine_eq henc]
  rfl

/-- The result has a class if the simplex algorithms that are set are known. -/
theorem result_isOk : (∃ r, s.result = .ok r) ↔ ∃ simplex, enc.engine.settings.simplexType = .ok simplex := by
  unfold Session.result Session.linearResult
  rw [engine_eq henc]
  simp only [except_bind_eq_ok]
  constructor
  · rintro ⟨r, e, ⟨⟩, simplex, hsimplex, -⟩
    exact ⟨simplex, hsimplex⟩
  · rintro ⟨simplex, hsimplex⟩
    exact ⟨_, _, rfl, simplex, hsimplex, rfl⟩

/-- What the details need, and the line they end with. -/
theorem details_eq_ok {text : String} (htext : s.details = .ok text) :
    (∃ n, s.reportedPresolveLoops = .ok n) ∧ (s.model.isMixed = true ∨ ∃ n, s.reportedPivots = .ok n) ∧
      (∃ r, s.result = .ok r) ∧
      ∃ front, text = front ++ "\n" ++ ("Goal value:" ++ enc.engine.results.objective.text) ++ "\n" := by
  unfold Session.details Session.detailLines at htext
  rw [goalValue_eq henc] at htext
  obtain ⟨lines, hlines, htext⟩ := except_bind_eq_ok.1 htext
  cases htext
  obtain ⟨-, -, hlines⟩ := except_bind_eq_ok.1 hlines
  obtain ⟨iterations, -, hlines⟩ := except_bind_eq_ok.1 hlines
  obtain ⟨loops, hloops, hlines⟩ := except_bind_eq_ok.1 hlines
  refine ⟨⟨loops, hloops⟩, ?_⟩
  dsimp only at hlines
  split at hlines
  · next hmixed =>
    obtain ⟨effort, -, hlines⟩ := except_bind_eq_ok.1 hlines
    obtain ⟨r, hr, hlines⟩ := except_bind_eq_ok.1 hlines
    cases hlines
    exact ⟨.inl hmixed, ⟨r, hr⟩, _, rfl⟩
  · obtain ⟨effort, heffort, hlines⟩ := except_bind_eq_ok.1 hlines
    obtain ⟨r, hr, hlines⟩ := except_bind_eq_ok.1 hlines
    cases hlines
    refine ⟨.inr ?_, ⟨r, hr⟩, _, rfl⟩
    cases hpivots : s.reportedPivots with
    | ok n => exact ⟨n, rfl⟩
    | error fault =>
      rw [hpivots] at heffort
      cases heffort

variable (h : s.hasSolution = true)
include h

omit [Scalar R] in
theorem reportedIterations_eq : s.reportedIterations = .ok enc.engine.results.iterations := by
  unfold Session.reportedIterations Session.iterations Session.mustHaveSolution
  rw [if_pos h, engine_eq henc]
  rfl

theorem reportedPresolveLoops_eq : s.reportedPresolveLoops = (enc.engine.settings.get .presolveLoops).toInteger := by
  unfold Session.reportedPresolveLoops Session.setting Session.mustHaveSolution
  rw [if_pos h, engine_eq henc]
  rfl

omit [Scalar R] in
theorem reportedNodes_eq : s.reportedNodes = .ok 0 := by
  unfold Session.reportedNodes Session.nodes Session.mustHaveSolution
  rw [if_pos h, engine_eq henc]
  rfl

theorem reportedPivots_eq : s.reportedPivots = (enc.engine.settings.get .maxPivot).toInteger := by
  unfold Session.reportedPivots Session.setting Session.mustHaveSolution
  rw [if_pos h, engine_eq henc]
  rfl

/-- When there is what the details need, they are given. -/
theorem details_given {loops : Int} (hloops : s.reportedPresolveLoops = .ok loops)
    (hpivots : s.model.isMixed = true ∨ ∃ n, s.reportedPivots = .ok n) {r : LinearResult} (hr : s.result = .ok r) :
    ∃ text, s.details = .ok text := by
  have hmust : s.mustHaveSolution = .ok () := if_pos h
  unfold Session.details Session.detailLines
  rw [hmust, reportedIterations_eq henc h, hloops, reportedNodes_eq henc h, hr, goalValue_eq henc]
  cases hmixed : s.model.isMixed with
  | true => exact ⟨_, rfl⟩
  | false =>
    obtain ⟨n, hn⟩ := hpivots.resolve_left (by simp [hmixed])
    rw [hn]
    exact ⟨_, rfl⟩

theorem reports_of_hasSolution : s.Reports enc.engine where
  iterations := reportedIterations_eq henc h
  presolveLoops := reportedPresolveLoops_eq henc h
  nodes := reportedNodes_eq henc h
  pivots := reportedPivots_eq henc h
  details_iff := by
    rw [← reportedPresolveLoops_eq henc h, ← reportedPivots_eq henc h, ← result_isOk henc]
    constructor
    · rintro ⟨text, htext⟩
      obtain ⟨hloops, hpivots, hr, -⟩ := details_eq_ok henc htext
      exact ⟨hloops, hpivots, hr⟩
    · rintro ⟨⟨loops, hloops⟩, hpivots, r, hr⟩
      exact details_given henc h hloops hpivots hr
  goal text htext := (details_eq_ok henc htext).2.2.2

end

/-- What can be had of the reports on a new solver after these calls. -/
inductive Account (s : Session R) (calls : List (Call R)) : Prop where
  /-- Nothing was solved, the model could not be encoded, or the solver has been shut down. -/
  | silent (hgone : ∀ p, standing? calls = some p → ¬Encodes p (claimed s)) (hsilent : (performed s calls).Silent)
  /-- A solve is over, however it ended, and its engine is still there. -/
  | given {p : Params R} {enc : Encoding R} (hstanding : standing? calls = some p) (hencodes : Encodes p (claimed s))
      (hperformed : performed s calls = (solve p).after s) (hkept : (performed s calls).solver.encoding = some enc)
      (hreports : (performed s calls).Reports enc.engine)
      (hbacked : Engine.Backed enc.engine s.host.source enc.engine.results)
      (hstored : ∀ t, solve p s = .ok ⟨⟩ t →
        (enc.engine.results.incumbent = none ↔ enc.engine.results.solution = none))

/-- After any calls of a new solver there is a report exactly when the first call was a solve for which the model could
be encoded, and no call has shut the solver down.  It is about the engine of that solve, whether or not this has a
solution: the goal value is zero if the engine has no point, and otherwise the one at its best point. -/
theorem report_account {s : Session R} (hphase : s.phase = .start) (hnone : s.solver.encoding = none)
    (calls : List (Call R)) : Account s calls := by
  have hsilent {t : Session R} (ht : t.solver.encoding = none) : t.Silent :=
    silent_of_not_hasSolution (by simp [Session.hasSolution, ht])
  rcases performed_cases hphase hnone calls with ⟨p, hstanding, hperformed⟩ | ⟨hstanding, hgone⟩
  · rcases solve_leaves hphase hnone p with ⟨hrefused, hgone⟩ | ⟨hencodes, enc, henc, hbacked, hstored⟩
    · refine .silent (fun q hq => ?_) (hperformed ▸ hsilent hgone)
      cases hstanding.symm.trans hq
      exact hrefused
    · have hhas : ((solve p).after s).hasSolution = true := by
        simp [Session.hasSolution, henc, solve_finished hphase p]
      rw [← hperformed] at henc hhas
      exact .given hstanding hencodes hperformed henc (reports_of_hasSolution henc hhas) hbacked hstored
  · refine .silent (fun q hq => ?_) (hsilent hgone)
    rw [hstanding] at hq
    cases hq

theorem report_account_mixture : mixtureSession.phase = .start ∧ mixtureSession.solver.encoding = none ∧
    Account mixtureSession [.solve polledParams, .solve Params.start] :=
  ⟨rfl, rfl, report_account rfl rfl _⟩

/-- A solver of a program that has no point at all. -/
def hopelessSession : Session Extended :=
  { mixtureSession with host := { mixtureSession.host with
      source := .script [⟨.rat 1, none, .infeasible, [], none⟩] } }

/-- There is a report on a solve that has found no solution, and it names a goal value. -/
theorem reported_without_solution :
    ¬∀ s : Session Extended, s.phase = .start → s.solver.encoding = none → ∀ calls text,
      (performed s calls).details = .ok text →
        ∃ enc v, (performed s calls).solver.encoding = some enc ∧ enc.engine.results.solution = some v := by
  intro hclaim
  have hgiven : (match (performed hopelessSession [.solve Params.start]).details with
      | .ok _ => true
      | .error _ => false) = true := by
    decide +kernel
  have hunsolved : (match (performed hopelessSession [.solve Params.start]).solver.encoding with
      | some enc => enc.engine.results.solution.isNone
      | none => true) = true := by
    decide +kernel
  cases htext : (performed hopelessSession [.solve Params.start]).details with
  | error fault =>
    rw [htext] at hgiven
    cases hgiven
  | ok text =>
    obtain ⟨enc, v, henc, hv⟩ := hclaim hopelessSession rfl rfl _ text htext
    simp [henc, hv] at hunsolved

end Optima.Solver
