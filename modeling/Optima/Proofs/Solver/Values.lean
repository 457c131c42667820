import Optima.Exact.Ranging
import Optima.Proofs.Encoding.Extraction
import Optima.Proofs.Engine.Outcomes
import Optima.Proofs.Solver.Steps

/-!
# What a solve writes into its model

Up to the moment when the solution is taken back, a solve leaves its model alone.  If one of the outcomes it used was
complete, the engine has kept the best point, and taking it back goes through and leaves a model that holds the point;
otherwise there is nothing to take back.  So a solve either writes all values or none (`solve_writes`).
-/

namespace Optima.Solver

variable {R : Type} [Scalar R]

open Optima.Action (Keeps)

/-! ### The model -/

omit [Scalar R] in
private theorem keeps_onHost {α : Type} (act : Action (Host R) α) : Keeps Session.model (onHost act) :=
  fun s => by
    simp only [Action.after, onHost, Action.on]
    cases act s.host <;> rfl

omit [Scalar R] in
private theorem keeps_updateSolver (f : Solver R → Solver R) : Keeps Session.model (updateSolver f) :=
  .modify fun _ => rfl

omit [Scalar R] in
private theorem keeps_onEngine {α : Type} (act : Engine.Work R α) : Keeps Session.model (onEngine act) := by
  intro s
  simp only [Action.after, onEngine]
  cases s.solver.encoding with
  | none => rfl
  | some t =>
    simp only
    cases act ⟨t.engine, s.host⟩ <;> rfl

private theorem keeps_encode (p : Params R) : Keeps Session.model (encode p) :=
  Keeps.get.bind fun _ => (keeps_onHost _).bind fun _ => keeps_updateSolver _

theorem keeps_search (p : Params R) : Keeps Session.model (search p) :=
  (keeps_updateSolver _).bind fun _ => (keeps_encode p).bind fun _ => (keeps_onEngine _).bind fun _ =>
    Keeps.get.bind fun _ => (Keeps.lift _).bind fun _ => (keeps_onHost _).bind fun _ =>
      (keeps_onEngine _).bind fun _ => keeps_updateSolver _

/-! ### The engine -/

/-- After a search the engine still holds the model, and it has found what the outcomes it used had to show. -/
theorem search_ok {p : Params R} {s t : Session R} (hm : s.model.Proper) (hfactory : s.solver.factory = .standard)
    {outs : List (Search.Outcome R)} (hsource : s.host.source = .script outs) (h : search p s = .ok ⟨⟩ t) :
    ∃ sentinel e used rest, t.solver.encoding = some ⟨e, Encoding.namingOf s.model sentinel⟩ ∧
      outs = used ++ rest ∧ t.host.source = .script rest ∧
      e.rows = (Encoding.ordinaryRows s.model).mapIdx (Encoding.rowAt s.model sentinel) ∧
      ∃ search, Engine.Found (Encoding.described s.model sentinel search) used e.results := by
  obtain ⟨settings, journal, verdict, w, -, hsolve, rfl⟩ := search_steps hm hfactory h
  obtain ⟨used, rest, houts, hrest, hrows, hfound⟩ := Engine.solve_found hsolve hsource
  exact ⟨settings.sentinel, w.engine, used, rest, rfl, houts, hrest, hrows, Encoding.searchFor s.host, hfound⟩

/-! ### Taking the solution back -/

/-- What a solver that used these outcomes made of its model: `m'` is the model afterwards. -/
inductive Written (m : Model R) (used : List (Search.Outcome R)) (solver : Solver R) (m' : Model R) : Prop where
  /-- No outcome was complete, and nothing was written. -/
  | nothing (hnone : ∀ o ∈ used, o.found? m.variableVids.length = none) (hmodel : m' = m)
  /-- The engine's best point was written, which is the point of a complete outcome. -/
  | point (x : List R) (t : Encoding R) (hsome : ∃ o ∈ used, o.found? m.variableVids.length = some x)
      (hengine : solver.encoding = some t) (hbest : t.engine.results.incumbent = some x)
      (hmodel : Encoding.Holds m m' x)

private theorem described_activities (m : Model R) (sentinel : R) (search : Search.Model R) (x : List R) :
    (Encoding.described m sentinel search).rows.map (fun row => Engine.activity row.entries x) =
      (Encoding.ordinaryRows m).map fun row => Engine.activity (Encoding.terms m row) x := by
  apply List.ext_getElem?
  intro i
  simp only [Encoding.described, List.getElem?_map, List.getElem?_mapIdx, Option.map_map]
  rfl

/-- After a search, taking the solution back goes through. -/
theorem extract_written {s u : Session R} (hm : s.model.Proper) (hmodel : u.model = s.model) {sentinel : R}
    {e : Engine R} (hencoding : u.solver.encoding = some ⟨e, Encoding.namingOf s.model sentinel⟩)
    (hrows : e.rows = (Encoding.ordinaryRows s.model).mapIdx (Encoding.rowAt s.model sentinel))
    {used : List (Search.Outcome R)} {search : Search.Model R}
    (hfound : Engine.Found (Encoding.described s.model sentinel search) used e.results) :
    ∃ t, extract u = .ok ⟨⟩ t ∧ t.host.source = u.host.source ∧ Written s.model used t.solver t.model := by
  have hcount : (Encoding.described s.model sentinel search).columns.length = s.model.variableVids.length := by
    simp [Encoding.described]
  unfold extract
  rw [Action.get_bind_run, hencoding]
  simp only
  rcases hfound with ⟨hnone, hsolution⟩ | ⟨x, hsome, hbest, hobjective, hsolution⟩
  · rw [hcount] at hnone
    have hextract : onModel (Encoding.extract e (Encoding.namingOf s.model sentinel)) u = .ok false u := by
      unfold onModel Action.on Encoding.extract
      simp only [hsolution]
      rfl
    rw [Action.bind_ok hextract]
    exact ⟨_, rfl, rfl, .nothing hnone hmodel⟩
  · rw [hcount] at hsome
    rw [described_activities] at hsolution
    have hx : x.length = s.model.variableVids.length := by
      obtain ⟨o, -, hfound⟩ := hsome
      exact Search.Outcome.found?_length hfound
    obtain ⟨m', hwrite, hholds⟩ := Encoding.extract_run hm hx hrows hobjective hsolution
    have hextract : onModel (Encoding.extract e (Encoding.namingOf s.model sentinel)) u =
        .ok true { u with model := m' } := by
      unfold onModel Action.on
      rw [hmodel, hwrite]
    rw [Action.bind_ok hextract]
    exact ⟨_, rfl, rfl, .point x _ hsome hencoding hbest hholds⟩

theorem run_ok {p : Params R} {s t : Session R} (hm : s.model.Proper) (hfactory : s.solver.factory = .standard)
    {outs : List (Search.Outcome R)} (hsource : s.host.source = .script outs) (h : run p s = .ok ⟨⟩ t) :
    ∃ used rest, outs = used ++ rest ∧ t.host.source = .script rest ∧ Written s.model used t.solver t.model := by
  obtain ⟨⟨⟩, u, hsearch, hextract⟩ := Action.bind_eq_ok.1 h
  obtain ⟨sentinel, e, used, rest, hencoding, houts, hrest, hrows, search, hfound⟩ :=
    search_ok hm hfactory hsource hsearch
  obtain ⟨t', hrun, hsame, hwritten⟩ :=
    extract_written hm ((keeps_search p).ok hsearch) hencoding hrows hfound
  cases hrun.symm.trans hextract
  exact ⟨used, rest, houts, hsame.trans hrest, hwritten⟩

theorem run_error {p : Params R} {s t : Session R} (hm : s.model.Proper) (hfactory : s.solver.factory = .standard)
    {outs : List (Search.Outcome R)} (hsource : s.host.source = .script outs) {fault : Fault}
    (h : run p s = .error fault t) : t.model = s.model := by
  rcases Action.bind_eq_error.1 h with hsearch | ⟨⟨⟩, u, hsearch, hextract⟩
  · exact (keeps_search p).error hsearch
  · obtain ⟨sentinel, e, used, rest, hencoding, -, -, hrows, search, hfound⟩ :=
      search_ok hm hfactory hsource hsearch
    -- taking the solution back does not stop with a fault
    obtain ⟨t', hrun, -, -⟩ := extract_written hm ((keeps_search p).ok hsearch) hencoding hrows hfound
    cases hrun.symm.trans hextract

/-- A solve writes the best point into its model when one of the outcomes it used was complete; otherwise, and when it
stops with a fault, it leaves the model as it is. -/
theorem solve_writes {s : Session R} (hm : s.model.Reachable) (hfactory : s.solver.factory = .standard)
    {outs : List (Search.Outcome R)} (hsource : s.host.source = .script outs) (p : Params R) :
    (∀ t, solve p s = .ok ⟨⟩ t → ∃ used rest, outs = used ++ rest ∧ t.host.source = .script rest ∧
      Written s.model used t.solver t.model) ∧
    ∀ fault t, solve p s = .error fault t → t.model = s.model := by
  unfold solve
  rw [Action.get_bind_run]
  cases hclaim : s.phase.claim? with
  | none =>
    refine ⟨?_, ?_⟩
    · rintro t ⟨⟩
      exact ⟨[], outs, rfl, hsource, .nothing (by simp) rfl⟩
    · rintro fault t ⟨⟩
  | some claimed =>
    let begun : Session R := { s with host := { s.host with phase := some claimed } }
    have hphase : setPhase claimed s = .ok ⟨⟩ begun := rfl
    simp only
    rw [Action.bind_ok hphase]
    cases hguarded : runGuarded p begun with
    | ok a u =>
      have hdone := run_ok (s := begun) hm.proper hfactory hsource (runGuarded_ok hguarded)
      rw [Action.bind_ok hguarded]
      refine ⟨?_, ?_⟩
      · rintro t ⟨⟩
        exact hdone
      · rintro fault t ⟨⟩
    | error fault u =>
      rw [Action.bind_error hguarded]
      refine ⟨?_, ?_⟩
      · rintro t ⟨⟩
      · rintro fault t ⟨⟩
        obtain ⟨v, hrun, rfl⟩ := runGuarded_error hguarded
        have hmodel : v.model = s.model := run_error (s := begun) hm.proper hfactory hsource hrun
        exact hmodel

/-- Two outcomes for two columns: the first one misses a value, the second one has them all. -/
def mixtureOutcomes : List (Search.Outcome Extended) := [
  ⟨.rat 1, none, .feasible, [some (.rat 7), none], none⟩,
  ⟨.rat 1, none, .optimal, [some (.rat 3), some (.rat 2)], none⟩]

/-- A solver of a model with rows of all kinds. -/
def mixtureSession : Session Extended :=
  ⟨.new .standard, .performed Model.mixture, .start (.script mixtureOutcomes) Exact.ranging⟩

/-- Parameters of a solve that is polled, and so runs in slices. -/
def polledParams : Params Extended :=
  { Params.start with polls := some [.answers (.flag false)] }

/-- Whoever reads the log fails at its last line, when the engine has solved but the model has not got the solution. -/
def choosyParams : Params Extended :=
  { polledParams with log := some ⟨[.notes, .fails "no more lines"]⟩ }

theorem solve_writes_mixture :
    mixtureSession.model.Reachable ∧ mixtureSession.solver.factory = .standard ∧
      mixtureSession.host.source = .script mixtureOutcomes ∧
      (∃ t, solve polledParams mixtureSession = .ok ⟨⟩ t ∧ t.host.source = .script [] ∧
        Encoding.Holds mixtureSession.model t.model [.rat 3, .rat 2]) ∧
      ∃ t, solve choosyParams mixtureSession = .error (.failed "no more lines") t ∧ t.model = mixtureSession.model := by
  have hm : mixtureSession.model.Reachable := Model.reachable_performed _
  have hfactory : mixtureSession.solver.factory = .standard := rfl
  have hsource : mixtureSession.host.source = .script mixtureOutcomes := rfl
  refine ⟨hm, hfactory, hsource, ?_, ?_⟩
  · have hsolve := Action.ok_of_answerOf? (show Action.answerOf? (solve polledParams mixtureSession) = some ⟨⟩ by
      decide +kernel)
    obtain ⟨used, rest, houts, hrest, hwritten⟩ := (solve_writes hm hfactory hsource polledParams).1 _ hsolve
    -- both outcomes were used
    have hempty : (match ((solve polledParams).after mixtureSession).host.source with
        | .script outs => outs.isEmpty
        | .solver _ => false) = true := by decide +kernel
    rw [hrest] at hempty
    obtain rfl : rest = [] := List.isEmpty_iff.1 hempty
    obtain rfl : used = mixtureOutcomes := by rw [houts, List.append_nil]
    have hcount : mixtureSession.model.variableVids.length = 2 := by decide +kernel
    refine ⟨_, hsolve, hrest, ?_⟩
    cases hwritten with
    | nothing hnone hmodel =>
      rw [hcount] at hnone
      exact absurd (hnone _ (List.mem_cons_of_mem _ (List.mem_singleton_self _))) (by decide)
    | point x t hsome hengine hbest hmodel =>
      rw [hcount] at hsome
      obtain rfl : x = [.rat 3, .rat 2] := by
        obtain ⟨o, ho, hfound⟩ := hsome
        rcases List.mem_cons.1 ho with rfl | ho
        · cases hfound
        · obtain rfl := List.mem_singleton.1 ho
          cases hfound
          rfl
      exact hmodel
  · have hsolve := Action.error_of_faultOf? (show Action.faultOf? (solve choosyParams mixtureSession) =
      some (.failed "no more lines") by decide +kernel)
    exact ⟨_, hsolve, (solve_writes hm hfactory hsource choosyParams).2 _ _ hsolve⟩

end Optima.Solver
