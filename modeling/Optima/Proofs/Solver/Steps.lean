import Optima.Proofs.Encoding.Loading
import Optima.Proofs.Engine.Core
import Optima.Solver.Basic

/-!
# The steps of a solve

The first solve claims its solver, runs, and settles or aborts (`solve_ok`, `solve_error`).  A search that goes through
has encoded the model, told the engine its parameters, and had the engine solve (`search_steps`).  What the engine is
told is written down in `told`: observers, the log file and whether ranging is wanted are those of the parameters, and
the size from which on a number counts as infinite is the one that the encoding was made with.
-/

namespace Optima.Solver

variable {R : Type} [Scalar R]

open Optima.Action (Keeps)

/-! ### Parameters -/

/-- The observers that the parameters of a solve bring along. -/
def hooksOf (p : Params R) : Engine.Hooks R :=
  ⟨p.polls.map fun polls => ⟨polls, true⟩, p.log, p.message, p.progress, Message.mask messages⟩

/-- An engine that has been told the parameters of a solve, and then has these settings. -/
def told (p : Params R) (e : Engine R) (settings : Settings R) : Engine R :=
  { e with
    settings := settings
    wantsSensitivity := p.sensitivity.truth
    logFile := p.logFile
    hooks := hooksOf p }

/-- The sentinel is the one that is set, once it has been set. -/
private theorem set_sentinel {settings settings' : Settings R} {p : Params R} {x : Setting}
    (h : settings.set x (p.settings x) = .ok settings')
    (hx : x = .infinite ∨ (p.settings .infinite).toReal = .ok settings.sentinel) :
    (p.settings .infinite).toReal = .ok settings'.sentinel := by
  by_cases hinfinite : x = .infinite
  · subst hinfinite
    simp only [Settings.set] at h
    cases hreal : (p.settings .infinite).toReal with
    | ok y =>
      rw [hreal] at h
      cases h
      rfl
    | error fault =>
      rw [hreal] at h
      cases h
  · have hset : settings.set x (p.settings x) =
        .ok { settings with others := fun y => if y = x then p.settings x else settings.others y } := by
      cases x <;> first | rfl | exact absurd rfl hinfinite
    obtain rfl := Except.ok.inj (hset.symm.trans h)
    exact hx.resolve_left hinfinite

private theorem putSettings_ok {p : Params R} {l : List Setting} {e d : Engine R}
    (h : l.forM (fun x => Engine.putSetting x (p.settings x)) e = .ok ⟨⟩ d)
    (hl : .infinite ∈ l ∨ (p.settings .infinite).toReal = .ok e.settings.sentinel) :
    d = { e with settings := d.settings } ∧ (p.settings .infinite).toReal = .ok d.settings.sentinel := by
  induction l generalizing e with
  | nil =>
    cases h
    exact ⟨rfl, hl.resolve_left (by simp)⟩
  | cons x l ih =>
    obtain ⟨⟨⟩, u, hx, hrest⟩ :=
      Action.bind_eq_ok.1 (show (Engine.putSetting x (p.settings x) >>= fun _ =>
        l.forM fun x => Engine.putSetting x (p.settings x)) e = .ok ⟨⟩ d from h)
    obtain ⟨hu, hset⟩ := Engine.putSetting_ok hx
    have hnext : .infinite ∈ l ∨ (p.settings .infinite).toReal = .ok u.settings.sentinel := by
      rcases hl with hl | hl
      · rcases List.mem_cons.1 hl with hl | hl
        · exact .inr (set_sentinel hset (.inl hl.symm))
        · exact .inl hl
      · exact .inr (set_sentinel hset (.inr hl))
    obtain ⟨hd, hsentinel⟩ := ih hrest hnext
    rw [hu] at hd
    exact ⟨hd, hsentinel⟩

theorem applyParams_ok {p : Params R} {e d : Engine R} (h : applyParams p e = .ok ⟨⟩ d) :
    d = told p e d.settings ∧ (p.settings .infinite).toReal = .ok d.settings.sentinel := by
  obtain ⟨⟨⟩, u, hsettings, h⟩ := Action.bind_eq_ok.1 h
  obtain ⟨hu, hsentinel⟩ := putSettings_ok hsettings (.inl (by decide))
  -- what comes after the settings cannot stop with a fault
  have hrest : (do
      Engine.setSensitivity p.sensitivity
      Engine.setLogFile p.logFile
      Engine.setPoller (p.polls.map fun polls => ⟨polls, true⟩)
      Engine.setLog p.log
      Engine.setMessages p.message p.progress (.integer (Message.mask messages)) : Engine.Build R Unit) u =
      .ok ⟨⟩ (told p u u.settings) := rfl
  obtain rfl : told p u u.settings = d := by
    cases hrest.symm.trans h
    rfl
  refine ⟨?_, hsentinel⟩
  conv => lhs; rw [hu]
  rfl

/-! ### Encoding -/

/-- The surroundings when an engine has been made for a model and the journal has got a line. -/
def encodedHost (h : Host R) (journal : List (Level × String)) : Host R :=
  { h with searches := h.searches + 1, latest := some (Encoding.searchFor h), journal := journal }

theorem encode_ok {p : Params R} {s t : Session R} (hm : s.model.Proper) (hfactory : s.solver.factory = .standard)
    (h : encode p s = .ok ⟨⟩ t) : ∃ sentinel journal, Encoding.sentinelOf (p.settings .infinite) = .ok sentinel ∧
      t = ⟨⟨s.solver.factory, some ⟨Encoding.described s.model sentinel (Encoding.searchFor s.host),
          Encoding.namingOf s.model sentinel⟩, s.solver.verdict, s.solver.sensitivity⟩,
        s.model, encodedHost s.host journal⟩ := by
  unfold encode at h
  rw [Action.get_bind_run] at h
  obtain ⟨e, u, hof, hkeep⟩ := Action.bind_eq_ok.1 h
  cases hkeep
  obtain ⟨host, hencode, rfl⟩ := Action.on_eq_ok.1 hof
  rw [hfactory] at hencode
  obtain ⟨hvar, sentinel, hsentinel⟩ := Encoding.ofModel_eq_ok hencode
  obtain ⟨journal, hrun⟩ := Encoding.ofModel_run hm hvar hsentinel s.host
  cases hrun.symm.trans hencode
  exact ⟨sentinel, journal, hsentinel, rfl⟩

/-! ### Searching -/

omit [Scalar R] in
theorem onEngine_eq_ok {α : Type} {act : Engine.Work R α} {s s' : Session R} {a : α} {t : Encoding R}
    (ht : s.solver.encoding = some t) :
    onEngine act s = .ok a s' ↔ ∃ w, act ⟨t.engine, s.host⟩ = .ok a w ∧ s' = s.withEngine t.naming w := by
  unfold onEngine
  simp only [ht]
  cases act ⟨t.engine, s.host⟩ with
  | ok b w =>
    constructor
    · rintro ⟨rfl, rfl⟩
      exact ⟨w, rfl, rfl⟩
    · rintro ⟨_, ⟨rfl, rfl⟩, rfl⟩
      rfl
  | error fault w => simp

/-- A search that goes through: the engine that holds the model is told the parameters and solves, and the solver keeps
it with its verdict. -/
theorem search_steps {p : Params R} {s t : Session R} (hm : s.model.Proper)
    (hfactory : s.solver.factory = .standard) (h : search p s = .ok ⟨⟩ t) :
    ∃ settings journal v w, (p.settings .infinite).toReal = .ok settings.sentinel ∧
      Engine.solve
        ⟨told p (Encoding.described s.model settings.sentinel (Encoding.searchFor s.host)) settings,
          encodedHost s.host journal⟩ = .ok v w ∧
      t = ⟨⟨s.solver.factory, some ⟨w.engine, Encoding.namingOf s.model settings.sentinel⟩, v, p.sensitivity⟩,
        s.model, w.host⟩ := by
  unfold search at h
  obtain ⟨⟨⟩, a, ha, h⟩ := Action.bind_eq_ok.1 h
  cases ha
  obtain ⟨⟨⟩, b, hencode, h⟩ := Action.bind_eq_ok.1 h
  obtain ⟨sentinel, journal, hsentinel, rfl⟩ :=
    encode_ok (s := { s with solver := { s.solver with sensitivity := p.sensitivity } }) hm hfactory hencode
  obtain ⟨⟨⟩, c, hparams, h⟩ := Action.bind_eq_ok.1 h
  obtain ⟨w, hw, rfl⟩ := (onEngine_eq_ok rfl).1 hparams
  obtain ⟨d, hd, rfl⟩ := Action.on_eq_ok.1 hw
  obtain ⟨hd, hinfinite⟩ := applyParams_ok hd
  -- the sentinel of the encoding is a number, so the engine was told the same one
  obtain rfl : sentinel = d.settings.sentinel := by
    cases hvalue : p.settings .infinite with
    | nothing =>
      rw [hvalue] at hinfinite
      cases hinfinite
    | _ =>
      rw [hvalue] at hsentinel hinfinite
      exact Except.ok.inj (hsentinel.symm.trans hinfinite)
  rw [Action.get_bind_run] at h
  obtain ⟨e, he, h⟩ := Action.lift_bind_eq_ok.1 h
  obtain ⟨⟨⟩, g, hrecord, h⟩ := Action.bind_eq_ok.1 h
  cases hrecord
  obtain ⟨verdict, k, hsolve, h⟩ := Action.bind_eq_ok.1 h
  obtain ⟨x, hx, rfl⟩ := (onEngine_eq_ok rfl).1 hsolve
  cases h
  obtain ⟨journal', hsolved⟩ : ∃ journal', Engine.solve ⟨d, encodedHost s.host journal'⟩ = .ok verdict x := ⟨_, hx⟩
  rw [hd] at hsolved
  exact ⟨d.settings, journal', verdict, x, hinfinite, hsolved, rfl⟩

/-! ### Taking the solution back -/

/-- What taking the solution back leaves alone: the solver, and the surroundings but for the journal. -/
def aside (s : Session R) : Solver R × Host R :=
  (s.solver, Engine.untold s.host)

theorem keeps_extract : Keeps aside (extract : Work R Unit) := by
  have hmodel (act : Model.Edit R Bool) : Keeps aside (onModel act) := fun s => by
    simp only [Action.after, onModel, Action.on]
    cases act s.model <;> rfl
  have hrecord (text : String) : Keeps aside (onHost (Host.record .debug text) : Work R Unit) := fun _ => rfl
  refine Keeps.get_bind fun s => ?_
  cases s.solver.encoding with
  | none => rfl
  | some t =>
    refine (hmodel _).bind (fun found => ?_) s
    cases found
    · exact hrecord _
    · exact .pure _

/-! ### Solving -/

/-- The session when a solve has claimed its solver. -/
def claimed (s : Session R) : Session R :=
  { s with host := { s.host with phase := some .solving } }

/-- The session when a solve that went through has settled; `line` is what the journal has got. -/
def settled (s : Session R) (line : String) : Session R :=
  { s with host := { s.host with phase := some s.phase.settle, journal := s.host.journal ++ [(.info, line)] } }

/-- The session when a fault has stopped a solve. -/
def aborted (s : Session R) : Session R :=
  { s with host :=
      { s.host with phase := some .aborted, journal := s.host.journal ++ [(.error, "Solve aborted by an error")] } }

theorem runGuarded_ok {p : Params R} {s t : Session R} (h : runGuarded p s = .ok ⟨⟩ t) : run p s = .ok ⟨⟩ t := by
  unfold runGuarded at h
  rw [Action.tryCatch_eq] at h
  cases hrun : run p s with
  | ok a u =>
    rw [hrun] at h
    exact h
  | error fault u =>
    rw [hrun] at h
    cases h

theorem runGuarded_error {p : Params R} {s t : Session R} {fault : Fault} (h : runGuarded p s = .error fault t) :
    ∃ u, run p s = .error fault u ∧ t = aborted u := by
  unfold runGuarded at h
  rw [Action.tryCatch_eq] at h
  cases hrun : run p s with
  | ok a u =>
    rw [hrun] at h
    cases h
  | error cause u =>
    rw [hrun] at h
    cases h
    exact ⟨u, rfl, rfl⟩

/-- The first solve runs, and settles if that went through. -/
theorem solve_ok {p : Params R} {s t : Session R} (hphase : s.phase = .start) (h : solve p s = .ok ⟨⟩ t) :
    ∃ u line, run p (claimed s) = .ok ⟨⟩ u ∧ t = settled u line := by
  unfold solve at h
  rw [Action.get_bind_run, hphase] at h
  obtain ⟨⟨⟩, b, hclaim, h⟩ := Action.bind_eq_ok.1 h
  obtain rfl : claimed s = b := by
    cases hclaim
    rfl
  obtain ⟨⟨⟩, u, hrun, h⟩ := Action.bind_eq_ok.1 h
  cases h
  exact ⟨u, _, runGuarded_ok hrun, rfl⟩

/-- A fault of the first solve is one of its run. -/
theorem solve_error {p : Params R} {s t : Session R} (hphase : s.phase = .start) {fault : Fault}
    (h : solve p s = .error fault t) : ∃ u, run p (claimed s) = .error fault u ∧ t = aborted u := by
  unfold solve at h
  rw [Action.get_bind_run, hphase] at h
  rcases Action.bind_eq_error.1 h with hclaim | ⟨⟨⟩, b, hclaim, h⟩
  · cases hclaim
  obtain rfl : claimed s = b := by
    cases hclaim
    rfl
  rcases Action.bind_eq_error.1 h with hrun | ⟨⟨⟩, u, hrun, h⟩
  · exact runGuarded_error hrun
  · cases h

end Optima.Solver
