import Optima.Proofs.Engine.Observers
import Optima.Proofs.Solver.Values

/-!
# How the first solve ends

The first solve of a solver ends in one of three ways (`Ending`).  It is aborted, with the verdict of a user's abort,
and then the last poll said yes.  It is solved, with some other verdict, and then all polls said no.  Or it stops with
a fault, whatever the polls said: if the factory refused, or an observer, a search or the ranging pass failed, the fault
is that one, and nobody else has failed; otherwise it is a fault of the encoding or of the engine itself, and in any
case the one that the run stopped with.  Every later solve leaves everything as it is (`solve_ends`).

A search is told apart into what comes before the engine solves, which no observer is told of (`prepare`), and the
solve of the engine, which hears its observers out.
-/

namespace Optima

variable {R : Type}

/-- The fault of a factory that makes no engine. -/
def Factory.refusal? : Factory → Option Fault
  | .makes _ => none
  | .makesNone => some (.noEngineMade none)
  | .fails reason => some (.noEngineMade (some reason))

namespace Solver

open Optima.Action (Keeps)
open Optima.Engine (Agrees Denied Exchange Granted dealings untold)

/-- The refusal of the factory, if it is asked for an engine at all: a model without variables needs none. -/
def refused (s : Session R) : List Fault :=
  if s.model.variableVids.isEmpty then [] else s.solver.factory.refusal?.toList

variable [Scalar R]

/-- The faults of all who took part in a solve: of the factory, and of those whom its engine had to do with. -/
def raised (p : Params R) (s : Session R) (x : Exchange R) : List Fault :=
  refused s ++ (x.failures (hooksOf p) s.host.ranging).map .failed

/-- The ways in which the first solve ends, with what has passed between the engine and its surroundings. -/
inductive Ending (p : Params R) (s : Session R) : EStateM.Result Fault (Session R) Unit → Prop where
  | aborted {t : Session R} {x : Exchange R} {answers : List (Value R)} (hsince : x.Between s.host t.host)
      (hpolls : x.events.filterMap Event.answer? = answers.map some) (hgranted : Granted answers)
      (hphase : t.phase = .aborted) (hverdict : t.solver.verdict = .userAbort) (hraised : raised p s x = []) :
      Ending p s (.ok ⟨⟩ t)
  | solved {t : Session R} {x : Exchange R} {answers : List (Value R)} (hsince : x.Between s.host t.host)
      (hpolls : x.events.filterMap Event.answer? = answers.map some) (hdenied : Denied answers)
      (hphase : t.phase = .solved) (hverdict : t.solver.verdict ≠ .userAbort) (hraised : raised p s x = []) :
      Ending p s (.ok ⟨⟩ t)
  | stopped {fault : Fault} {t : Session R} {x : Exchange R} (hsince : x.Between s.host t.host)
      (hphase : t.phase = .aborted) (hraised : raised p s x = [] ∨ raised p s x = [fault])
      (hrun : ∃ u, run p (claimed s) = .error fault u) : Ending p s (.error fault t)

/-! ### Before the engine solves -/

/-- The surroundings without what no observer is told. -/
private def scenery (s : Session R) : Host R :=
  untold s.host

omit [Scalar R] in
private theorem scenery_onHost {α : Type} {act : Action (Host R) α} (h : Keeps untold act) :
    Keeps scenery (onHost act) := by
  intro s
  have hact := h s.host
  simp only [Action.after, onHost, Action.on] at hact ⊢
  cases hrun : act s.host with
  | ok a host =>
    rw [hrun] at hact
    exact hact
  | error fault host =>
    rw [hrun] at hact
    exact hact

omit [Scalar R] in
private theorem scenery_updateSolver (f : Solver R → Solver R) : Keeps scenery (updateSolver f) :=
  .modify fun _ => rfl

omit [Scalar R] in
private theorem scenery_inside {α : Type} (act : Engine.Build R α) :
    Keeps scenery (onEngine (Engine.inside act)) := by
  intro s
  simp only [Action.after, onEngine, Engine.inside, Action.on]
  cases s.solver.encoding with
  | none => rfl
  | some t =>
    simp only
    cases act t.engine <;> rfl

theorem untold_ofModel (m : Model R) (factory : Factory) (infinite : Value R) :
    Keeps untold (Encoding.ofModel m factory infinite) := by
  have hmake : Keeps untold (Encoding.makeEngine factory m.variableVids.length : Action (Host R) (Engine R)) := by
    cases factory with
    | makes defects => exact fun _ => rfl
    | makesNone => exact .throw _
    | fails reason => exact .throw _
  unfold Encoding.ofModel
  split
  · exact .throw _
  · refine hmake.bind fun engine => ?_
    cases Encoding.loadModel m infinite engine with
    | error fault e => exact .throw _
    | ok result e => exact (Engine.untold_record _ _).bind fun _ => .pure _

private theorem scenery_encode (p : Params R) : Keeps scenery (encode p) :=
  Keeps.get.bind fun _ => (scenery_onHost (untold_ofModel _ _ _)).bind fun _ => scenery_updateSolver _

/-- What a search does before the engine solves. -/
def prepare (p : Params R) : Work R Unit := do
  updateSolver fun solver => { solver with sensitivity := p.sensitivity }
  encode p
  onEngine (Engine.inside (applyParams p))
  let e ← Action.lift (← get).engine
  onHost (Host.record .info
    ("Solving " ++ toString e.columns.length ++ " columns and " ++ toString e.rows.length ++ " rows"))

theorem search_eq (p : Params R) : search p = (do
    prepare p
    let verdict ← onEngine Engine.solve
    updateSolver fun solver => { solver with verdict := verdict }) := by
  unfold search prepare
  simp only [bind_assoc]

private theorem scenery_prepare (p : Params R) : Keeps scenery (prepare p) :=
  (scenery_updateSolver _).bind fun _ => (scenery_encode p).bind fun _ => (scenery_inside _).bind fun _ =>
    Keeps.get.bind fun _ => (Keeps.lift _).bind fun _ => scenery_onHost (Engine.untold_record _ _)

/-- A factory that refuses stops the encoding with its refusal. -/
theorem refused_cases (s : Session R) : refused s = [] ∨ ∃ fault, refused s = [fault] ∧
    ∀ infinite h, Encoding.ofModel s.model s.solver.factory infinite h = .error fault h := by
  unfold refused
  cases hvar : s.model.variableVids.isEmpty with
  | true => exact .inl rfl
  | false =>
    have hmake (fault : Fault) (hrefuse : ∀ h : Host R, Encoding.makeEngine s.solver.factory
        s.model.variableVids.length h = .error fault h) (infinite : Value R) (h : Host R) :
        Encoding.ofModel s.model s.solver.factory infinite h = .error fault h := by
      unfold Encoding.ofModel
      simp only [hvar, Bool.false_eq_true, ↓reduceIte]
      exact Action.bind_error (hrefuse h) _
    cases hfactory : s.solver.factory with
    | makes defects => exact .inl rfl
    | makesNone =>
      rw [hfactory] at hmake
      exact .inr ⟨_, rfl, hmake _ fun _ => rfl⟩
    | fails reason =>
      rw [hfactory] at hmake
      exact .inr ⟨_, rfl, hmake _ fun _ => rfl⟩

theorem prepare_refused {p : Params R} {s : Session R} {fault : Fault} (h : refused s = [fault]) :
    ∃ t, prepare p s = .error fault t := by
  rcases refused_cases s with hnone | ⟨fault', hsome, hof⟩
  · rw [hnone] at h
    cases h
  · obtain rfl : fault' = fault := by simpa [hsome] using h
    let told : Session R := { s with solver := { s.solver with sensitivity := p.sensitivity } }
    have hencode : encode p told = .error fault' told := by
      unfold encode
      rw [Action.get_bind_run]
      refine Action.bind_error ?_ _
      unfold onHost Action.on
      rw [show Encoding.ofModel told.model told.solver.factory (p.settings .infinite) told.host = _ from hof _ _]
    exact ⟨told, Action.bind_error hencode _⟩

/-- When the engine is about to solve, it has the observers that the parameters brought along, and nobody refused. -/
theorem prepare_ok {p : Params R} {s b : Session R} (h : prepare p s = .ok ⟨⟩ b) :
    refused s = [] ∧ ∃ t, b.solver.encoding = some t ∧ t.engine.hooks = hooksOf p := by
  refine ⟨?_, ?_⟩
  · rcases refused_cases s with hnone | ⟨fault, hsome, -⟩
    · exact hnone
    · obtain ⟨t, hstop⟩ := prepare_refused (p := p) hsome
      cases hstop.symm.trans h
  · obtain ⟨⟨⟩, c, hc, h⟩ := Action.bind_eq_ok.1 h
    obtain ⟨⟨⟩, d, hencode, h⟩ := Action.bind_eq_ok.1 h
    unfold encode at hencode
    rw [Action.get_bind_run] at hencode
    obtain ⟨t, u, hof, hkeep⟩ := Action.bind_eq_ok.1 hencode
    cases hkeep
    obtain ⟨⟨⟩, v, hparams, h⟩ := Action.bind_eq_ok.1 h
    obtain ⟨w, hw, rfl⟩ := (onEngine_eq_ok rfl).1 hparams
    obtain ⟨e, he, rfl⟩ := Action.on_eq_ok.1 hw
    obtain ⟨he, -⟩ := applyParams_ok he
    rw [Action.get_bind_run] at h
    obtain ⟨f, -, h⟩ := Action.lift_bind_eq_ok.1 h
    cases h
    exact ⟨_, rfl, congrArg Engine.hooks he⟩

/-! ### A search -/

/-- A search that went through: nobody has failed, the phase follows the answers, and so does the verdict. -/
def Went (p : Params R) (s t : Session R) : Prop :=
  ∃ (x : Exchange R) (answers : List (Value R)), x.Between s.host t.host ∧
    x.events.filterMap Event.answer? = answers.map some ∧ raised p s x = [] ∧
    t.host.phase = (if answers.any Value.truth then s.host.phase.map (fun _ => .aborting) else s.host.phase) ∧
    Agrees (t.solver.verdict = .userAbort) answers

/-- A search or a run that a fault has stopped: nobody has failed with another one. -/
def Stopped (p : Params R) (s : Session R) (fault : Fault) (t : Session R) : Prop :=
  ∃ x : Exchange R, x.Between s.host t.host ∧ (raised p s x = [] ∨ raised p s x = [fault])

omit [Scalar R] in
theorem hooksOf_marks (p : Params R) : (hooksOf p).marks = true := by
  unfold hooksOf Engine.Hooks.marks
  cases p.polls <;> rfl

omit [Scalar R] in
/-- Where the scenery is the same, so is what an exchange has to do with. -/
private theorem of_scenery {s u : Session R} (h : scenery u = scenery s) :
    dealings u.host = dealings s.host ∧ u.host.phase = s.host.phase := by
  have hdealings := congrArg (fun host : Host R => dealings host) h
  have hphase := congrArg (fun host : Host R => host.phase) h
  exact ⟨hdealings, hphase⟩

/-- What stops before the engine solves is told to nobody. -/
private theorem stopped_prepare {p : Params R} {s t : Session R} {fault : Fault} (h : prepare p s = .error fault t) :
    Stopped p s fault t := by
  have hsame := (of_scenery ((scenery_prepare p).error h)).1
  refine ⟨.nothing, .of_dealings hsame, ?_⟩
  have hnobody : raised p s .nothing = refused s := List.append_nil _
  rw [hnobody]
  rcases refused_cases s with hnone | ⟨fault', hsome, -⟩
  · exact .inl hnone
  · obtain ⟨u, hrefused⟩ := prepare_refused (p := p) hsome
    cases hrefused.symm.trans h
    exact .inr hsome

theorem search_cases (p : Params R) (s : Session R) :
    match search p s with
    | .ok _ t => Went p s t
    | .error fault t => Stopped p s fault t := by
  rw [search_eq]
  cases hprepare : prepare p s with
  | error fault t =>
    rw [Action.bind_error hprepare]
    exact stopped_prepare hprepare
  | ok u b =>
    obtain ⟨hnone, t, hencoding, hhooks⟩ := prepare_ok hprepare
    obtain ⟨hsame, hphase⟩ := of_scenery ((scenery_prepare p).ok hprepare)
    have hbefore : Exchange.nothing.Between s.host b.host := .of_dealings hsame
    have hfailures (x : Exchange R) :
        raised p s x = (x.failures t.engine.hooks b.host.ranging).map .failed := by
      rw [raised, hnone, hhooks, hbefore.ranging, List.nil_append]
    have hears := Engine.hears_solve (R := R) ⟨t.engine, b.host⟩
    rw [Action.bind_ok hprepare]
    cases hsolve : Engine.solve ⟨t.engine, b.host⟩ with
    | error fault w =>
      have hengine : onEngine Engine.solve b = .error fault (b.withEngine t.naming w) := by
        unfold onEngine
        simp only [hencoding, hsolve]
      obtain ⟨x, hx, hblames⟩ := hears.error hsolve
      rw [Action.bind_error hengine]
      refine ⟨x, hbefore.trans hx, ?_⟩
      rcases hblames with hfine | ⟨text, htext, rfl⟩
      · exact .inl ((hfailures x).trans (congrArg _ hfine))
      · exact .inr ((hfailures x).trans (congrArg _ htext))
    | ok verdict w =>
      have hengine : onEngine Engine.solve b = .ok verdict (b.withEngine t.naming w) := by
        unfold onEngine
        simp only [hencoding, hsolve]
      obtain ⟨answers, ⟨⟨x, hx, hpolls, hfine, -⟩, hmark⟩, hagrees⟩ := hears.ok hsolve
      have hmark := hmark (hhooks ▸ hooksOf_marks p)
      simp only [hphase] at hmark
      rw [Action.bind_ok hengine]
      exact ⟨x, answers, hbefore.trans hx, hpolls, (hfailures x).trans (congrArg _ hfine), hmark, hagrees⟩

/-! ### A run -/

theorem run_cases (p : Params R) (s : Session R) :
    match run p s with
    | .ok _ t => Went p s t
    | .error fault t => Stopped p s fault t := by
  have hsearch := search_cases p s
  unfold run
  cases hrun : search p s with
  | error fault u =>
    rw [hrun] at hsearch
    rw [Action.bind_error hrun]
    exact hsearch
  | ok a u =>
    rw [hrun] at hsearch
    obtain ⟨x, answers, hx, hpolls, hraised, hphase, hagrees⟩ := hsearch
    rw [Action.bind_ok hrun]
    cases hextract : extract u with
    | ok b t =>
      have haside := keeps_extract.ok hextract
      obtain ⟨hdealings, hsame⟩ := of_scenery (s := u) (u := t) (congrArg Prod.snd haside)
      have hsolver : t.solver = u.solver := congrArg Prod.fst haside
      exact ⟨x, answers, hx.congr hdealings, hpolls, hraised, hsame.trans hphase, hsolver ▸ hagrees⟩
    | error fault t =>
      have hdealings := (of_scenery (s := u) (u := t) (congrArg Prod.snd (keeps_extract.error hextract))).1
      exact ⟨x, hx.congr hdealings, .inl hraised⟩

/-! ### A solve -/

/-- A solve of a solver that has been claimed does nothing. -/
theorem solve_again {q : Params R} {s : Session R} (h : s.phase ≠ .start) : solve q s = .ok ⟨⟩ s := by
  have hclaim : s.phase.claim? = none := by
    cases hphase : s.phase <;> first | rfl | exact absurd hphase h
  unfold solve
  rw [Action.get_bind_run, hclaim]
  rfl

theorem solve_ending {s : Session R} (hphase : s.phase = .start) (p : Params R) : Ending p s (solve p s) := by
  have hrun := run_cases p (claimed s)
  cases hsolve : solve p s with
  | ok a t =>
    obtain ⟨u, line, hu, rfl⟩ := solve_ok hphase hsolve
    rw [hu] at hrun
    obtain ⟨x, answers, hx, hpolls, hraised, hu, hagrees⟩ := hrun
    -- the solver takes no part in what passes between its engine and the surroundings
    have hx : x.Between s.host (settled u line).host := ⟨hx.events, hx.outcomes, hx.passes, hx.ranging⟩
    have hsettled : (settled u line).phase = u.phase.settle := rfl
    rcases hagrees.any with ⟨hverdict, hgranted, hany⟩ | ⟨hverdict, hdenied, hany⟩
    · have haborting : u.phase = .aborting := by
        rw [Session.phase, hu, hany]
        rfl
      refine .aborted hx hpolls hgranted ?_ hverdict hraised
      rw [hsettled, haborting]
      rfl
    · have hsolving : u.phase = .solving := by
        rw [Session.phase, hu, hany]
        rfl
      refine .solved hx hpolls hdenied ?_ hverdict hraised
      rw [hsettled, hsolving]
      rfl
  | error fault t =>
    obtain ⟨u, hu, rfl⟩ := solve_error hphase hsolve
    rw [hu] at hrun
    obtain ⟨x, hx, hraised⟩ := hrun
    exact .stopped ⟨hx.events, hx.outcomes, hx.passes, hx.ranging⟩ rfl hraised ⟨u, hu⟩

/-- The first solve of a solver ends in one of three ways, in which the phase, the verdict, the polls and the fault
agree, and all later solves leave everything as it is. -/
theorem solve_ends {s : Session R} (hphase : s.phase = .start) (p : Params R) :
    Ending p s (solve p s) ∧ ∀ q, solve q ((solve p).after s) = .ok ⟨⟩ ((solve p).after s) := by
  have hending := solve_ending hphase p
  refine ⟨hending, fun q => solve_again ?_⟩
  cases hsolve : solve p s with
  | ok a t =>
    rw [hsolve] at hending
    rw [Action.after_ok hsolve]
    cases hending with
    | aborted hsince hpolls hgranted hdone => simp [hdone]
    | solved hsince hpolls hdenied hdone => simp [hdone]
  | error fault t =>
    rw [hsolve] at hending
    rw [Action.after_error hsolve]
    cases hending with
    | stopped hsince hdone => simp [hdone]

/-- Parameters of a solve that is asked to abort after its first slice. -/
def abortingParams : Params Extended :=
  { Params.start with polls := some [.answers (.flag false), .answers (.flag true)] }

/-- The same, but whoever reads the log fails when the solve has been aborted. -/
def regrettedParams : Params Extended :=
  { abortingParams with log := choosyParams.log }

/-- A solve that goes through, one that is aborted, and one that stops with a fault after a poll has said yes. -/
theorem solve_ends_mixture : mixtureSession.phase = .start ∧
    (∀ p ∈ [polledParams, abortingParams, regrettedParams], Ending p mixtureSession (solve p mixtureSession) ∧
      ∀ q, solve q ((solve p).after mixtureSession) = .ok ⟨⟩ ((solve p).after mixtureSession)) ∧
    [polledParams, abortingParams, regrettedParams].map (fun p => ((solve p).after mixtureSession).phase) =
      [.solved, .aborted, .aborted] ∧
    ∃ t, solve regrettedParams mixtureSession = .error (.failed "no more lines") t ∧
      (t.host.events.filterMap Event.answer?).map (Option.map Value.truth) = [some false, some true] := by
  refine ⟨rfl, fun p _ => solve_ends rfl p, by decide +kernel, ?_⟩
  have hsolve := Action.error_of_faultOf? (show Action.faultOf? (solve regrettedParams mixtureSession) =
    some (.failed "no more lines") by decide +kernel)
  exact ⟨_, hsolve, by decide +kernel⟩

end Solver

end Optima
