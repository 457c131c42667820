import Optima.Proofs.Encoding.Script
import Optima.Proofs.Engine.Backed
import Optima.Proofs.Solver.Endings

/-!
# Histories of a solver

Of all calls of `solve` and `shutdown` on a solver it is the first one that matters, and whether there is a `shutdown`
after it (`performed_cases`): when the first call solves and no later one shuts the solver down, everything is as that
solve left it, and otherwise there is no engine.

A solve leaves an engine if and only if the model could be encoded.  What the results of the engine say is backed then,
wherever the solve was stopped, and after a solve that went through the solution is there if there is a point
(`solve_leaves`).
-/

namespace Optima

namespace Engine

variable {R : Type} [Scalar R]

open Optima.Action (Keeps)

/-- No building call changes the results. -/
theorem keeps_results (c : Call R) : Keeps (fun e : Engine R => e.results) c.perform := by
  intro e
  rcases c.after_cases e with hedited | ⟨s, -, -, hafter⟩
  · exact hedited.results
  · rw [hafter]

end Engine

namespace Encoding

variable {R : Type} [Scalar R]

/-- The engine that a model has been encoded in has not solved yet. -/
theorem ofModel_blank {m : Model R} {factory : Factory} {infinite : Value R} {h h' : Host R} {t : Encoding R}
    (hrun : ofModel m factory infinite h = .ok t h') : t.engine.results.Blank := by
  unfold ofModel at hrun
  by_cases hempty : m.variableVids.isEmpty = true
  · simp only [hempty, ↓reduceIte] at hrun
    cases hrun
  · simp only [hempty, Bool.false_eq_true, ↓reduceIte] at hrun
    obtain ⟨e, h₁, hmake, hrun⟩ := Action.bind_eq_ok.1 hrun
    have hblank : e.results.Blank := by
      cases factory with
      | makes defects =>
        obtain ⟨search, h₂, -, hpure⟩ := Action.bind_eq_ok.1 hmake
        cases hpure
        exact Engine.Results.blank_start _ _
      | makesNone => cases hmake
      | fails reason => cases hmake
    rw [loadModel_script m infinite (makeEngine_rows hmake)] at hrun
    have hkeeps : Action.Keeps (fun e : Engine R => e.results) (makeAll (script m infinite e.sentinel)) :=
      .forM fun c _ => Engine.keeps_results c
    cases hcalls : makeAll (script m infinite e.sentinel) e with
    | error fault d =>
      rw [Action.bind_error hcalls] at hrun
      cases hrun
    | ok a d =>
      rw [Action.bind_ok hcalls] at hrun
      cases hrun
      rwa [← show d.results = e.results from hkeeps.ok hcalls] at hblank

end Encoding

namespace Solver

variable {R : Type} [Scalar R]

open Search (Source)
open Optima.Action (Preserves Keeps)

/-! ### Calls -/

/-- A call of a solver that changes it. -/
inductive Call (R : Type) where
  | solve (p : Params R)
  | shutdown

namespace Call

def perform : Call R → Work R Unit
  | solve p => Solver.solve p
  | shutdown => Solver.shutdown

omit [Scalar R] in
/-- Whether the call releases the engine. -/
def closes : Call R → Bool
  | solve _ => false
  | shutdown => true

end Call

/-- The session after calls, each of which may have stopped with a fault. -/
def performed (s : Session R) (calls : List (Call R)) : Session R :=
  calls.foldl (fun t c => c.perform.after t) s

omit [Scalar R] in
/-- The parameters of the solve whose engine is kept: those of the first call, unless a later one shuts the solver
down. -/
def standing? : List (Call R) → Option (Params R)
  | .solve p :: later => if later.any Call.closes then none else some p
  | _ => none

/-- The solver has been disposed of. -/
def Closed (s : Session R) : Prop :=
  s.solver.encoding = none ∧ s.phase = .disposed

omit [Scalar R] in
theorem closed_shutdown {s : Session R} (h : s.phase.closing = .proceeds) :
    Closed ((shutdown : Work R Unit).after s) := by
  unfold shutdown
  rw [Action.after_get_bind, if_pos h]
  exact ⟨rfl, rfl⟩

/-- A solver that has been disposed of stays that way. -/
theorem Closed.call {s : Session R} (h : Closed s) (c : Call R) : c.perform.after s = s := by
  cases c with
  | solve p => exact Action.after_ok (solve_again (by simp [h.2]))
  | shutdown =>
    show (shutdown : Work R Unit).after s = s
    unfold shutdown
    rw [Action.after_get_bind, if_neg (by simp [h.2, Phase.closing])]
    rfl

theorem Closed.performed {s : Session R} (h : Closed s) (calls : List (Call R)) : performed s calls = s := by
  induction calls with
  | nil => rfl
  | cons c calls ih =>
    show Solver.performed (c.perform.after s) calls = s
    rw [h.call c, ih]

/-- When a solve is over, nothing happens until the solver is shut down. -/
theorem performed_finished {s : Session R} (h : s.phase.isFinished = true) (calls : List (Call R)) :
    if calls.any Call.closes then Closed (performed s calls) else performed s calls = s := by
  induction calls with
  | nil => rfl
  | cons c calls ih =>
    show if _ then Closed (performed (c.perform.after s) calls) else performed (c.perform.after s) calls = s
    cases c with
    | solve p =>
      have hsame : (Call.solve p).perform.after s = s :=
        Action.after_ok (solve_again fun hstart => by simp [hstart, Phase.isFinished] at h)
      rw [hsame]
      exact ih
    | shutdown =>
      have hclosing : s.phase.closing = .proceeds := by
        cases hphase : s.phase <;> first | rfl | simp [hphase, Phase.isFinished] at h
      have hclosed : Closed (Call.shutdown.perform.after s) := closed_shutdown hclosing
      simp only [List.any_cons, Call.closes, Bool.true_or, ↓reduceIte]
      rwa [hclosed.performed]

theorem solve_finished {s : Session R} (hphase : s.phase = .start) (p : Params R) :
    ((solve p).after s).phase.isFinished = true := by
  have hending := solve_ending hphase p
  cases hsolve : solve p s with
  | ok a t =>
    rw [hsolve] at hending
    rw [Action.after_ok hsolve]
    cases hending with
    | aborted hsince hpolls hgranted hdone => simp [hdone, Phase.isFinished]
    | solved hsince hpolls hdenied hdone => simp [hdone, Phase.isFinished]
  | error fault t =>
    rw [hsolve] at hending
    rw [Action.after_error hsolve]
    cases hending with
    | stopped hsince hdone => simp [hdone, Phase.isFinished]

/-- What calls leave of a new solver: what its first call left, if that was a solve and no call has shut the solver down,
and otherwise no engine. -/
theorem performed_cases {s : Session R} (hphase : s.phase = .start) (hnone : s.solver.encoding = none)
    (calls : List (Call R)) :
    (∃ p, standing? calls = some p ∧ performed s calls = (solve p).after s) ∨
      standing? calls = none ∧ (performed s calls).solver.encoding = none := by
  cases calls with
  | nil => exact .inr ⟨rfl, hnone⟩
  | cons c later =>
    cases c with
    | shutdown =>
      have hclosed : Closed (Call.shutdown.perform.after s) := closed_shutdown (by rw [hphase]; rfl)
      refine .inr ⟨rfl, ?_⟩
      show (performed (Call.shutdown.perform.after s) later).solver.encoding = none
      rw [hclosed.performed]
      exact hclosed.1
    | solve p =>
      have hlater := performed_finished (solve_finished hphase p) later
      show (∃ q, (if later.any Call.closes then none else some p) = some q ∧ performed ((solve p).after s) later = _) ∨
        (if later.any Call.closes then none else some p) = none ∧
          (performed ((solve p).after s) later).solver.encoding = none
      split at hlater
      · next hcloses =>
        rw [if_pos hcloses]
        exact .inr ⟨rfl, hlater.1⟩
      · next hkeeps =>
        rw [if_neg hkeeps]
        exact .inl ⟨p, rfl, hlater⟩

/-! ### What a solve leaves -/

/-- The model can be encoded with these parameters. -/
def Encodes (p : Params R) (s : Session R) : Prop :=
  ∃ t h, Encoding.ofModel s.model s.solver.factory (p.settings .infinite) s.host = .ok t h

/-- The model has been encoded, and its engine has not solved yet. -/
def Session.Fresh (source : Source R) (s : Session R) : Prop :=
  ∃ t, s.solver.encoding = some t ∧ t.engine.results.Blank ∧ s.host.source = source

/-- There is an engine, and what its results say is backed by the outcomes of this source. -/
def Session.Holds (source : Source R) (s : Session R) : Prop :=
  ∃ t, s.solver.encoding = some t ∧ Engine.Backed t.engine source t.engine.results

/-- What is done in a run once the model has been encoded. -/
def proceed (p : Params R) : Work R Unit := do
  onEngine (Engine.inside (applyParams p))
  let e ← Action.lift (← get).engine
  onHost (Host.record .info
    ("Solving " ++ toString e.columns.length ++ " columns and " ++ toString e.rows.length ++ " rows"))
  let verdict ← onEngine Engine.solve
  updateSolver fun solver => { solver with verdict := verdict }
  extract

theorem run_eq (p : Params R) : run p = (do
    updateSolver fun solver => { solver with sensitivity := p.sensitivity }
    encode p
    proceed p) := by
  unfold run search proceed
  simp only [bind_assoc]

omit [Scalar R] in
theorem after_onEngine {α : Type} (act : Engine.Work R α) {s : Session R} {t : Encoding R}
    (ht : s.solver.encoding = some t) :
    (onEngine act).after s = s.withEngine t.naming (act.after ⟨t.engine, s.host⟩) := by
  simp only [Action.after, onEngine, ht]
  cases act ⟨t.engine, s.host⟩ <;> rfl

variable {source : Source R}

theorem Session.Fresh.holds {s : Session R} (h : s.Fresh source) : s.Holds source := by
  obtain ⟨t, ht, hblank, -⟩ := h
  exact ⟨t, ht, hblank.backed _ _⟩

theorem fresh_applyParams (p : Params R) :
    Preserves (Session.Fresh source) (onEngine (Engine.inside (applyParams p))) := by
  rintro s ⟨t, ht, hblank, hsource⟩
  have hput : Keeps (fun e : Engine R => e.results) (applyParams p) :=
    .bind (.forM fun x _ => fun e => (Engine.edits_putSetting x _ e (.refl e)).results) fun _ _ => rfl
  have hresults : ((applyParams p).after t.engine).results = t.engine.results := hput t.engine
  rw [← hresults] at hblank
  rw [after_onEngine _ ht, Engine.after_inside]
  exact ⟨_, rfl, hblank, hsource⟩

/-- The engine's solve is backed wherever it ends. -/
theorem holds_solve (s : Session R) (hs : s.Fresh source) : Session.Holds source ((onEngine Engine.solve).after s) := by
  obtain ⟨t, ht, hblank, rfl⟩ := hs
  obtain ⟨hprogram, hbacked⟩ := Engine.solve_backed (s := ⟨t.engine, s.host⟩) hblank
  rw [after_onEngine _ ht]
  exact ⟨_, rfl, hbacked.congr hprogram rfl⟩

theorem holds_proceed (p : Params R) (s : Session R) (hs : s.Fresh source) :
    Session.Holds source ((proceed p).after s) := by
  have holds (t : Session R) (ht : t.Fresh source) : t.Holds source := ht.holds
  have haside : Preserves (Session.Holds source) (extract : Work R Unit) := by
    rintro t ⟨enc, henc, hbacked⟩
    have hsolver : (extract.after t).solver = t.solver := congrArg Prod.fst (keeps_extract t)
    exact ⟨enc, hsolver ▸ henc, hbacked⟩
  have hrecord (line : String) : Preserves (Session.Fresh source) (onHost (Host.record .info line)) := fun t ht => ht
  refine (fresh_applyParams p).bind_last holds (fun _ => ?_) s hs
  refine Preserves.bind_last .get holds fun t => ?_
  refine Preserves.bind_last (.lift _) holds fun e => ?_
  refine (hrecord _).bind_last holds fun _ t ht => ?_
  exact Preserves.bind_first (holds_solve t ht) fun verdict =>
    Preserves.bind (.modify fun t ht => ht) fun _ => haside

/-- An encoding that goes through leaves a fresh engine and the outcomes to come. -/
theorem encode_fresh {p : Params R} {s t : Session R} (h : encode p s = .ok ⟨⟩ t) :
    Encodes p s ∧ t.Fresh s.host.source := by
  unfold encode at h
  rw [Action.get_bind_run] at h
  obtain ⟨enc, u, hof, hkeep⟩ := Action.bind_eq_ok.1 h
  obtain ⟨host, hrun, rfl⟩ := Action.on_eq_ok.1 hof
  cases hkeep
  have hsame := (untold_ofModel _ _ _).ok hrun
  have hsource : (Engine.untold host).source = (Engine.untold s.host).source :=
    congrArg (fun h : Host R => h.source) hsame
  exact ⟨⟨enc, host, hrun⟩, enc, rfl, Encoding.ofModel_blank hrun, hsource⟩

theorem encode_refused {p : Params R} {s t : Session R} {fault : Fault} (h : encode p s = .error fault t) :
    ¬Encodes p s ∧ t.solver = s.solver := by
  unfold encode at h
  rw [Action.get_bind_run] at h
  rcases Action.bind_eq_error.1 h with hof | ⟨enc, u, -, hkeep⟩
  · unfold onHost Action.on at hof
    cases hrun : Encoding.ofModel s.model s.solver.factory (p.settings .infinite) s.host with
    | ok enc host =>
      rw [hrun] at hof
      cases hof
    | error cause host =>
      rw [hrun] at hof
      cases hof
      refine ⟨?_, rfl⟩
      rintro ⟨enc, host', hok⟩
      cases hrun.symm.trans hok
  · cases hkeep

/-- A run leaves an engine if and only if the model could be encoded. -/
theorem run_leaves {s : Session R} (hnone : s.solver.encoding = none) (p : Params R) :
    (¬Encodes p s ∧ ((run p).after s).solver.encoding = none) ∨
      Encodes p s ∧ ((run p).after s).Holds s.host.source := by
  rw [run_eq]
  let ready : Session R := { s with solver := { s.solver with sensitivity := p.sensitivity } }
  show (_ ∧ ((encode p >>= fun _ => proceed p).after ready).solver.encoding = none) ∨
    _ ∧ Session.Holds _ ((encode p >>= fun _ => proceed p).after ready)
  cases hencode : encode p ready with
  | error fault t =>
    obtain ⟨hrefused, hsolver⟩ := encode_refused hencode
    rw [Action.after_error (Action.bind_error hencode _), hsolver]
    exact .inl ⟨hrefused, hnone⟩
  | ok a t =>
    obtain ⟨hencodes, hfresh⟩ := encode_fresh hencode
    rw [Action.after_bind_ok hencode]
    exact .inr ⟨hencodes, holds_proceed p t hfresh⟩

/-- After a run that goes through there is a solution if there is a point. -/
theorem run_stored {p : Params R} {s t : Session R} (h : run p s = .ok ⟨⟩ t) {enc : Encoding R}
    (henc : t.solver.encoding = some enc) :
    enc.engine.results.incumbent = none ↔ enc.engine.results.solution = none := by
  rw [run_eq] at h
  obtain ⟨⟨⟩, a, -, h⟩ := Action.bind_eq_ok.1 h
  obtain ⟨⟨⟩, b, hencode, h⟩ := Action.bind_eq_ok.1 h
  obtain ⟨-, hfresh⟩ := encode_fresh hencode
  obtain ⟨⟨⟩, c, hparams, h⟩ := Action.bind_eq_ok.1 h
  obtain ⟨t₀, hc, -, -⟩ := (fresh_applyParams p).ok hparams hfresh
  rw [Action.get_bind_run] at h
  obtain ⟨e, -, h⟩ := Action.lift_bind_eq_ok.1 h
  obtain ⟨⟨⟩, d, hrecord, h⟩ := Action.bind_eq_ok.1 h
  cases hrecord
  obtain ⟨verdict, f, hsolve, h⟩ := Action.bind_eq_ok.1 h
  obtain ⟨w, hw, rfl⟩ := (onEngine_eq_ok (t := t₀) (by exact hc)).1 hsolve
  obtain ⟨⟨⟩, g, hverdict, hextract⟩ := Action.bind_eq_ok.1 h
  cases hverdict
  -- taking the solution back changes the model only
  have hsolver := congrArg (fun aside : Solver R × Host R => aside.1.encoding) (keeps_extract.ok hextract)
  cases hsolver.symm.trans henc
  exact Engine.solve_stored hw

/-- What the first solve leaves of its solver is what its run leaves. -/
theorem solve_solver {s : Session R} (hphase : s.phase = .start) (p : Params R) :
    ((solve p).after s).solver = ((run p).after (claimed s)).solver := by
  cases hsolve : solve p s with
  | ok a t =>
    obtain ⟨u, line, hrun, rfl⟩ := solve_ok hphase hsolve
    rw [Action.after_ok hsolve, Action.after_ok hrun]
    rfl
  | error fault t =>
    obtain ⟨u, hrun, rfl⟩ := solve_error hphase hsolve
    rw [Action.after_error hsolve, Action.after_error hrun]
    rfl

/-- The first solve leaves an engine if and only if the model could be encoded.  Its results are backed then, and if the
solve went through, there is a solution if there is a point. -/
theorem solve_leaves {s : Session R} (hphase : s.phase = .start) (hnone : s.solver.encoding = none) (p : Params R) :
    (¬Encodes p (claimed s) ∧ ((solve p).after s).solver.encoding = none) ∨
      Encodes p (claimed s) ∧ ∃ enc, ((solve p).after s).solver.encoding = some enc ∧
        Engine.Backed enc.engine s.host.source enc.engine.results ∧
        ∀ t, solve p s = .ok ⟨⟩ t → (enc.engine.results.incumbent = none ↔ enc.engine.results.solution = none) := by
  have hsolver := solve_solver hphase p
  rcases run_leaves (s := claimed s) hnone p with ⟨hrefused, hgone⟩ | ⟨hencodes, enc, henc, hbacked⟩
  · exact .inl ⟨hrefused, hsolver ▸ hgone⟩
  · refine .inr ⟨hencodes, enc, hsolver ▸ henc, hbacked, fun t hok => ?_⟩
    obtain ⟨u, line, hrun, -⟩ := solve_ok hphase hok
    rw [Action.after_ok hrun] at henc
    exact run_stored hrun henc

end Solver

end Optima
