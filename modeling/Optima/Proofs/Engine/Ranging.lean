import Optima.Proofs.Engine.Outcomes

/-!
# The ranging pass of a solve

A solve that ends well, and of which ranging is wanted, hands the linear program of its best point over to the ranging
pass, and keeps the answer if that is an optimal one (`solve_ranges`).  What the ranging pass depends on apart from the
point is left alone by all that a solve does before (`Session.rangingView`), and what the solve does afterwards leaves
the answer alone.
-/

namespace Optima.Engine

variable {R : Type} [Scalar R]

open Optima.Action (Keeps)

/-- What the ranging pass depends on apart from the point, and what it has been handed so far. -/
def Session.rangingView (s : Session R) : Bool × (List R → Ranging.Problem R) × (Ranging.Answer R → Sensitivity R) ×
    (Ranging.Problem R → Ranging.Answer R) × List (Ranging.Call R) :=
  (s.engine.wantsSensitivity, s.engine.rangingProblem, s.engine.sensitivityOf, s.host.ranging, s.host.rangingCalls)

/-- The same, as it is read off a scene. -/
private def Scene.rangingView (c : Scene R) : Bool × (List R → Ranging.Problem R) ×
    (Ranging.Answer R → Sensitivity R) × (Ranging.Problem R → Ranging.Answer R) × List (Ranging.Call R) :=
  Session.rangingView ⟨c.engine, c.host⟩

private theorem ranging_of_frame {α : Type} {act : Work R α} (h : Keeps Session.frame act) :
    Keeps Session.rangingView act :=
  h.map Scene.rangingView

private theorem ranging_of_quiet {α : Type} {act : Work R α} (h : Keeps Session.scene act) :
    Keeps Session.rangingView act :=
  h.map Scene.rangingView

private theorem ranging_load : Keeps Session.rangingView (load : Work R Unit) := by
  intro s
  obtain ⟨t, hload, hscene⟩ := load_scene s
  have hview : t.rangingView = t.scene.rangingView := rfl
  rw [Action.after_ok hload, hview, hscene, Session.loadedScene]
  split <;> rfl

/-- What a ranging pass at a point has been handed, and what is kept of its answer. -/
structure Ranged (s : Session R) (x : List R) (t : Session R) : Prop where
  calls : t.host.rangingCalls = s.host.rangingCalls ++ .silence :: (s.engine.rangingProblem x).calls
  sensitivity : (s.host.ranging (s.engine.rangingProblem x)).status = .optimal →
    t.engine.results.sensitivity = some (s.engine.sensitivityOf (s.host.ranging (s.engine.rangingProblem x)))

theorem Ranged.of_view {s u t : Session R} {x : List R} (h : Ranged u x t) (hview : u.rangingView = s.rangingView) :
    Ranged s x t := by
  simp only [Session.rangingView, Prod.mk.injEq] at hview
  obtain ⟨-, hproblem, hanswer, hranging, hcalls⟩ := hview
  have hcalled := h.calls
  have hkept := h.sensitivity
  rw [hcalls, hproblem] at hcalled
  rw [hranging, hproblem, hanswer] at hkept
  exact ⟨hcalled, hkept⟩

/-- An answer that is kept is no failure, and if it is optimal its values are kept. -/
theorem takeAnswer_ok {e : Engine R} {answer : Ranging.Answer R} {s t : Session R}
    (h : e.takeAnswer answer s = .ok ⟨⟩ t) : t.host.rangingCalls = s.host.rangingCalls ∧
      t.engine.results.incumbent = s.engine.results.incumbent ∧
      (answer.status = .optimal → t.engine.results.sensitivity = some (e.sensitivityOf answer)) := by
  unfold takeAnswer at h
  cases hfailure : answer.failure with
  | some text =>
    rw [hfailure] at h
    cases h
  | none =>
    rw [hfailure] at h
    simp only at h
    split at h
    · obtain ⟨⟨⟩, u, hupdate, hlog⟩ := Action.bind_eq_ok.1 h
      cases hupdate
      have hscene := (quiet_log _).ok hlog
      have hcalls := congrArg (fun c : Scene R => c.host.rangingCalls) hscene
      have hincumbent := congrArg (fun c : Scene R => c.engine.results.incumbent) hscene
      have hsensitivity := congrArg (fun c : Scene R => c.engine.results.sensitivity) hscene
      exact ⟨hcalls, hincumbent, fun _ => hsensitivity⟩
    · next hother =>
      have hscene := (quiet_outside (unnoted_record _ _)).ok h
      have hcalls := congrArg (fun c : Scene R => c.host.rangingCalls) hscene
      have hincumbent := congrArg (fun c : Scene R => c.engine.results.incumbent) hscene
      exact ⟨hcalls, hincumbent, fun hoptimal => absurd hoptimal hother⟩

/-- The ranging pass is handed the linear program of the best point. -/
theorem rangeSolution_ok {s t : Session R} (h : rangeSolution s = .ok ⟨⟩ t) {x : List R}
    (hbest : s.engine.results.incumbent = some x) : Ranged s x t ∧ t.engine.results.incumbent = some x := by
  unfold rangeSolution at h
  rw [Action.get_bind_run] at h
  simp only [hbest, Option.isNone_some, Bool.false_and, Bool.false_eq_true, ↓reduceIte, Option.getD_some] at h
  obtain ⟨⟨⟩, u, hsilence, h⟩ := Action.bind_eq_ok.1 h
  cases hsilence
  obtain ⟨⟨⟩, v, hproblem, h⟩ := Action.bind_eq_ok.1 h
  cases hproblem
  rw [Action.get_bind_run] at h
  obtain ⟨hcalls, hincumbent, hsensitivity⟩ := takeAnswer_ok h
  exact ⟨⟨hcalls.trans (List.append_assoc ..), hsensitivity⟩, hincumbent.trans hbest⟩

theorem searchProgram_ranges {s t : Session R} (h : searchProgram s = .ok .optimal t)
    (hwants : s.engine.wantsSensitivity = true) {x : List R} (hbest : t.engine.results.incumbent = some x) :
    Ranged s x t := by
  unfold searchProgram at h
  obtain ⟨⟨⟩, l, hload, h⟩ := Action.bind_eq_ok.1 h
  obtain ⟨⟨⟩, c, hconfigure, h⟩ := Action.bind_eq_ok.1 h
  rw [Action.get_bind_run] at h
  obtain ⟨⟨⟩, d, hlog, h⟩ := Action.bind_eq_ok.1 h
  obtain ⟨abort, a, habort, h⟩ := Action.bind_eq_ok.1 h
  have ha : a.rangingView = s.rangingView :=
    ((ranging_of_quiet quiet_abortRequested).ok habort).trans <| ((ranging_of_quiet (quiet_log _)).ok hlog).trans <|
      ((ranging_of_quiet quiet_configure).ok hconfigure).trans (ranging_load.ok hload)
  split at h
  · cases h
  · obtain ⟨⟨⟩, y, hsend, h⟩ := Action.bind_eq_ok.1 h
    obtain ⟨verdict, z, hoptimize, h⟩ := Action.bind_eq_ok.1 h
    obtain ⟨⟨⟩, w, hstore, h⟩ := Action.bind_eq_ok.1 h
    have hw : w.rangingView = s.rangingView :=
      ((ranging_of_frame frame_storeSolution).ok hstore).trans <|
        ((ranging_of_frame frame_optimize).ok hoptimize).trans <|
          ((ranging_of_quiet (quiet_send _)).ok hsend).trans ha
    have hwants' : w.engine.wantsSensitivity = true := (congrArg Prod.fst hw).trans hwants
    rw [Action.get_bind_run] at h
    split at h
    · obtain ⟨⟨⟩, r, hrange, h⟩ := Action.bind_eq_ok.1 h
      cases h
      -- the point is the one that was there before the pass
      have hbefore : w.engine.results.incumbent = some x := by
        have hplain := keeps_rangeSolution.ok hrange
        exact (congrArg (fun c => c.results.incumbent) hplain).symm.trans hbest
      exact (rangeSolution_ok hrange hbefore).1.of_view hw
    · next hnot =>
      cases h
      simp [hwants'] at hnot

/-- A solve that ends well has the linear program of its best point ranged, if ranging is wanted of it. -/
theorem solve_ranges {s t : Session R} (h : solve s = .ok .optimal t) (hwants : s.engine.wantsSensitivity = true)
    {x : List R} (hbest : t.engine.results.incumbent = some x) : Ranged s x t := by
  obtain ⟨w, text, hrun, hlog⟩ := solve_steps h
  have hscene := (quiet_log _).ok hlog
  have hcalls : t.host.rangingCalls = w.host.rangingCalls := congrArg (fun c : Scene R => c.host.rangingCalls) hscene
  have hsensitivity : t.engine.results.sensitivity = w.engine.results.sensitivity :=
    congrArg (fun c : Scene R => c.engine.results.sensitivity) hscene
  have hincumbent : t.engine.results.incumbent = w.engine.results.incumbent :=
    congrArg (fun c : Scene R => c.engine.results.incumbent) hscene
  rcases run_ok hrun with ⟨r, -, hv, -⟩ | ⟨-, hsearch⟩
  · cases hv
  · have hranged := searchProgram_ranges hsearch hwants (hincumbent.symm.trans hbest)
    exact ⟨hcalls.trans hranged.calls, fun hoptimal => hsensitivity.trans (hranged.sensitivity hoptimal)⟩

/-- After a solve the engine still has the same linear programs, and reads answers in the same way. -/
theorem solve_problems {s t : Session R} {v : Verdict} (h : solve s = .ok v t) :
    t.engine.rangingProblem = s.engine.rangingProblem ∧ t.engine.sensitivityOf = s.engine.sensitivityOf := by
  have hgiven := solve_given h
  have hcolumns : t.engine.columns = s.engine.columns := congrArg Prod.fst hgiven
  have hrows : t.engine.rows = s.engine.rows := congrArg (fun g => g.2.1) hgiven
  have hobjective : t.engine.objective = s.engine.objective := congrArg (fun g => g.2.2.1) hgiven
  have hmaximize : t.engine.maximize = s.engine.maximize := congrArg (fun g => g.2.2.2.1) hgiven
  have hsets : t.engine.sets = s.engine.sets := congrArg (fun g => g.2.2.2.2.1) hgiven
  have hsettings : t.engine.settings = s.engine.settings := congrArg (fun g => g.2.2.2.2.2) hgiven
  constructor
  · funext x
    have hfixed : t.engine.fixedColumns x = s.engine.fixedColumns x := by
      rw [fixedColumns, fixedColumns, zeroSetColumns, zeroSetColumns, hcolumns, hsets]
    have hcolumn : t.engine.rangingColumn = s.engine.rangingColumn := by
      unfold rangingColumn
      rw [hobjective]
    rw [rangingProblem, rangingProblem, hcolumns, hrows, hmaximize, hfixed, hcolumn]
  · have houter : t.engine.outer = s.engine.outer := by
      funext x
      rw [outer, outer, isInfinite, isInfinite, sentinel, sentinel, hsettings]
    funext a
    simp only [sensitivityOf, outerValues, houter]

end Optima.Engine
