import Mathlib.Algebra.GroupWithZero.Nat
import Optima.Proofs.Lifecycle.Invariant
import Optima.Workspace.Race

/-!
# What calls side by side may rely on

Any number of calls of `solve` and `shutdown` on one solver, in any order of their steps.  `run_safe` collects what
holds in every configuration that such a run reaches: one engine is made and told to solve at most once, no call of
`shutdown` releases it under a solve, the phase moves along `Phase.successors` only, calls return in the phases they
wait for, and in the end every engine has been released exactly once.

The facts about engines are read off the invariant of `Config.Inv`.  Those about calls need a second one, kept along:
every call stays at stages of its own kind, and when it is over, the phase is one in which it may be
(`Config.Kept`).
-/

namespace Optima

/-- The phases that may follow on a phase. -/
def Phase.successors : Phase → List Phase
  | start => [solving, disposing]
  | solving => [aborting, solved, aborted]
  | aborting => [aborting, aborted]
  | solved | aborted => [disposing]
  | disposing => [disposed]
  | disposed => []

namespace Lifecycle

open Workspace (Call)

namespace Stage

/-- Whether a call at a stage is encoding the model, has the engine solve, or takes the solution back. -/
def isSolving : Stage → Bool
  | checking | making | loading _ | dropping _ | keeping _ | preparing _ | solving _ | extracting _ => true
  | _ => false

/-- Whether a call of a kind can be at a stage. -/
def belongsTo : Stage → Call → Bool
  | returned, _ => true
  | entering, .solve | claiming, .solve | awaiting, .solve | checking, .solve | making, .solve | loading _, .solve
  | dropping _, .solve | keeping _, .solve | preparing _, .solve | solving _, .solve | extracting _, .solve
  | settling, .solve | failing, .solve | raised, .solve => true
  | closing, .shutdown | joining, .shutdown | draining, .shutdown | releasing, .shutdown | deleting _, .shutdown
  | clearing, .shutdown | finishing, .shutdown => true
  | _, _ => false

theorem isActive_of_isSolving {a : Stage} (h : a.isSolving = true) : a.isActive = true := by
  cases a <;> simp [isSolving, isActive] at h ⊢

end Stage

/-- Whether a call of a kind may be over in a phase. -/
def endsIn : Call → Phase → Prop
  | .solve, p => p ∈ [Phase.solved, .aborted, .disposing, .disposed]
  | .shutdown, p => p = .disposed

/-- A phase in which a call may be over is followed by such phases only. -/
theorem endsIn.mono {k : Call} {p q : Phase} (h : endsIn k p) (hq : q = p ∨ q ∈ p.successors) : endsIn k q := by
  rcases hq with rfl | hq
  · exact h
  · cases k <;> cases p <;> simp [endsIn] at h <;> simp [Phase.successors] at hq <;> simp [endsIn, hq]

namespace Shared

/-- The phase stays or moves to a successor. -/
theorem step_phase {s t : Shared} {a b : Stage} {choice : Choice} (h : s.step a choice = some (t, b))
    (hf : a.isActive = true → s.Fits (some a)) : t.phase = s.phase ∨ t.phase ∈ s.phase.successors := by
  cases a <;> simp only [Stage.isActive, Fits, forall_const, Bool.false_eq_true, false_implies] at hf
  case claiming | closing =>
    -- what these do depends on the phase they find
    cases hp : s.phase <;> simp only [step, hp, Phase.claim?, Phase.closing] at h <;>
      obtain ⟨rfl, rfl⟩ := Prod.mk.inj (Option.some.inj h) <;> simp [setPhase, hp, Phase.successors]
  case solving e =>
    cases choice <;> obtain ⟨rfl, rfl⟩ := Prod.mk.inj (Option.some.inj h)
    case aborts => rcases hf.1 with hp | hp <;> simp [setPhase, hp, Phase.successors]
    all_goals exact .inl rfl
  case settling | failing =>
    obtain ⟨rfl, rfl⟩ := Prod.mk.inj (Option.some.inj h)
    rcases hf.1 with hp | hp <;> simp [setPhase, hp, Phase.settle, Phase.successors]
  case draining =>
    cases hp : s.phase <;> simp [step, hp, Phase.isFinished] at h <;> obtain ⟨rfl, rfl⟩ := h <;>
      simp [setPhase, Phase.successors]
  case finishing =>
    obtain ⟨rfl, rfl⟩ := Prod.mk.inj (Option.some.inj h)
    simp [setPhase, hf.1, Phase.successors]
  case awaiting | joining =>
    simp only [step, Option.ite_none_right_eq_some] at h
    obtain ⟨rfl, rfl⟩ := Prod.mk.inj (Option.some.inj h.2)
    exact .inl rfl
  case releasing =>
    cases he : s.encoding <;> simp only [step, he] at h <;> obtain ⟨rfl, rfl⟩ := Prod.mk.inj (Option.some.inj h) <;>
      exact .inl rfl
  case returned | raised => cases h
  all_goals
    cases choice <;> obtain ⟨rfl, rfl⟩ := Prod.mk.inj (Option.some.inj h) <;> exact .inl rfl

/-- A step of a call keeps to its kind, and ends it in a phase in which it may be over. -/
theorem step_kind {s t : Shared} {a b : Stage} {choice : Choice} {k : Call} (h : s.step a choice = some (t, b))
    (hf : a.isActive = true → s.Fits (some a)) (hk : a.belongsTo k = true) :
    b.belongsTo k = true ∧ (b.isOver = true → endsIn k t.phase) := by
  cases k <;> cases a <;> simp only [Stage.belongsTo, Bool.false_eq_true] at hk <;>
    simp only [Stage.isActive, Fits, forall_const, Bool.false_eq_true, false_implies] at hf
  case solve.entering =>
    obtain ⟨rfl, rfl⟩ := Prod.mk.inj (Option.some.inj h)
    cases hp : s.phase <;> simp [Phase.isClosing, Stage.belongsTo, Stage.isOver, endsIn]
  case solve.claiming =>
    cases hp : s.phase <;> simp only [step, hp, Phase.claim?] at h <;>
      obtain ⟨rfl, rfl⟩ := Prod.mk.inj (Option.some.inj h) <;> exact ⟨rfl, by simp [Stage.isOver]⟩
  case solve.awaiting =>
    simp only [step, Option.ite_none_right_eq_some] at h
    obtain ⟨hp, h⟩ := h
    obtain ⟨rfl, rfl⟩ := Prod.mk.inj (Option.some.inj h)
    refine ⟨rfl, fun _ => ?_⟩
    cases hq : s.phase <;> simp [hq, Phase.releasesSolve, Phase.isFinished, Phase.isClosing] at hp <;> simp [endsIn]
  case solve.settling =>
    obtain ⟨rfl, rfl⟩ := Prod.mk.inj (Option.some.inj h)
    refine ⟨rfl, fun _ => ?_⟩
    rcases hf.1 with hp | hp <;> simp [endsIn, setPhase, hp, Phase.settle]
  case solve.failing =>
    obtain ⟨rfl, rfl⟩ := Prod.mk.inj (Option.some.inj h)
    exact ⟨rfl, fun _ => by simp [endsIn, setPhase]⟩
  case shutdown.closing =>
    cases hp : s.phase <;> simp only [step, hp, Phase.closing] at h <;>
      obtain ⟨rfl, rfl⟩ := Prod.mk.inj (Option.some.inj h)
    case disposed => exact ⟨rfl, fun _ => hp⟩
    all_goals exact ⟨rfl, by simp [Stage.isOver]⟩
  case shutdown.joining =>
    simp only [step, Option.ite_none_right_eq_some] at h
    obtain ⟨hp, h⟩ := h
    obtain ⟨rfl, rfl⟩ := Prod.mk.inj (Option.some.inj h)
    exact ⟨rfl, fun _ => hp⟩
  case shutdown.draining =>
    simp only [step, Option.ite_none_right_eq_some] at h
    obtain ⟨rfl, rfl⟩ := Prod.mk.inj (Option.some.inj h.2)
    exact ⟨rfl, by simp [Stage.isOver]⟩
  case shutdown.releasing =>
    cases he : s.encoding <;> simp only [step, he] at h <;> obtain ⟨rfl, rfl⟩ := Prod.mk.inj (Option.some.inj h) <;>
      exact ⟨rfl, by simp [Stage.isOver]⟩
  case shutdown.finishing =>
    obtain ⟨rfl, rfl⟩ := Prod.mk.inj (Option.some.inj h)
    exact ⟨rfl, fun _ => rfl⟩
  case solve.returned | solve.raised | shutdown.returned => cases h
  all_goals
    cases choice <;> obtain ⟨rfl, rfl⟩ := Prod.mk.inj (Option.some.inj h) <;> exact ⟨rfl, by simp [Stage.isOver]⟩

/-- A call of `shutdown` does something to an engine at one stage only. -/
theorem step_engines {s t : Shared} {a b : Stage} {choice : Choice} (h : s.step a choice = some (t, b))
    (hk : a.belongsTo .shutdown = true) : t.engines = s.engines ∨ ∃ e, a = .deleting e := by
  cases a <;> simp only [Stage.belongsTo, Bool.false_eq_true] at hk
  case closing =>
    cases hp : s.phase <;> simp only [step, hp, Phase.closing] at h <;>
      obtain ⟨rfl, rfl⟩ := Prod.mk.inj (Option.some.inj h) <;> exact .inl rfl
  case joining | draining =>
    simp only [step, Option.ite_none_right_eq_some] at h
    obtain ⟨rfl, rfl⟩ := Prod.mk.inj (Option.some.inj h.2)
    exact .inl rfl
  case releasing =>
    cases he : s.encoding <;> simp only [step, he] at h <;> obtain ⟨rfl, rfl⟩ := Prod.mk.inj (Option.some.inj h) <;>
      exact .inl rfl
  case deleting e => exact .inr ⟨e, rfl⟩
  case clearing | finishing =>
    obtain ⟨rfl, rfl⟩ := Prod.mk.inj (Option.some.inj h)
    exact .inl rfl
  case returned => cases h

/-- At most one engine has been asked for, and engines have been told to solve at most once. -/
structure Once (s : Shared) : Prop where
  orders : s.orders ≤ 1
  solves : (s.engines.map EngineLife.solves).sum ≤ 1

private theorem Made.once {s : Shared} (h : s.Made) : s.Once :=
  ⟨by simp [h.orders], by simp [h.engines]⟩

private theorem Holds.once {s : Shared} {n k : Nat} (h : s.Holds n k) (hn : n ≤ 1) : s.Once :=
  ⟨by simp [h.orders], by simpa [h.engines] using hn⟩

private theorem Gone.once {s : Shared} (h : s.Gone) : s.Once := by
  refine ⟨h.orders, ?_⟩
  rcases h.engines with he | ⟨n, hn, he⟩
  · simp [he]
  · simpa [he] using hn

private theorem Over.once {s : Shared} (h : s.Over) : s.Once := by
  rcases h with h | ⟨n, hn, h⟩
  · exact h.once
  · exact h.once hn

theorem Fits.once {s : Shared} {o : Option Stage} (h : s.Fits o) : s.Once := by
  rcases o with _ | a
  · cases hp : s.phase <;> simp only [Fits, hp] at h
    case start => exact h.gone.once
    case solved => exact h.once (by simp)
    case aborted => exact Over.once h
    case disposed => exact h.once
  · cases a <;> simp only [Fits] at h
    case checking | making => exact h.2.gone.once
    case loading | dropping | keeping => exact h.2.2.once
    case preparing | solving | extracting => exact h.2.2.once (by simp)
    case settling => exact h.2.once (by simp)
    case failing | releasing => exact Over.once h.2
    case deleting =>
      obtain ⟨-, -, n, hn, h⟩ := h
      exact h.once hn
    case clearing =>
      obtain ⟨-, n, hn, h⟩ := h
      exact h.once hn
    case finishing => exact h.2.once

end Shared

/-! ### Calls keep to their kinds -/

namespace Config

/-- Every call is at a stage of its kind, and a call that is over has ended in a phase in which it may be over. -/
def Kept (calls : List Call) (c : Config) : Prop :=
  ∀ (i : Nat) (k : Call) (a : Stage), calls[i]? = some k → c.calls[i]? = some a →
    a.belongsTo k = true ∧ (a.isOver = true → endsIn k c.phase)

theorem kept_start (calls : List Call) : (start (calls.map Call.stage)).Kept calls := by
  intro i k a hk ha
  simp only [start, List.getElem?_map, hk, Option.map_some, Option.some.injEq] at ha
  subst ha
  cases k <;> exact ⟨rfl, by simp [Call.stage, Stage.isOver]⟩

theorem inv_start (calls : List Call) : (start (calls.map Call.stage)).Inv := by
  refine ⟨none, ?_, rfl, rfl, rfl⟩
  simp only [start, Option.toList_none, List.filter_eq_nil_iff, List.mem_map]
  rintro a ⟨k, -, rfl⟩
  cases k <;> simp [Call.stage, Stage.isActive]

/-- The phase stays or moves to a successor, whichever call makes the step. -/
theorem Inv.step_phase {c d : Config} {i : Nat} {choice : Choice} (hc : c.Inv) (h : c.step i choice = some d) :
    d.phase = c.phase ∨ d.phase ∈ c.phase.successors := by
  obtain ⟨a, b, s, hi, hs, rfl⟩ := step_eq_some h
  exact Shared.step_phase hs fun ha => (hc.fits hi ha).2

theorem Kept.step {calls : List Call} {c d : Config} {i : Nat} {choice : Choice} (hc : c.Inv)
    (hk : c.Kept calls) (h : c.step i choice = some d) : d.Kept calls := by
  have hphase := hc.step_phase h
  obtain ⟨a, b, s, hi, hs, rfl⟩ := step_eq_some h
  intro j k a' hj ha'
  by_cases hij : i = j
  · subst hij
    obtain rfl : b = a' := by
      simpa [List.getElem?_set, (List.getElem?_eq_some_iff.1 hi).1] using ha'
    exact Shared.step_kind hs (fun ha => (hc.fits hi ha).2) (hk i k a hj hi).1
  -- the other calls stay where they were, and the phase goes on
  · have hkept := hk j k a' hj (by simpa [List.getElem?_set, hij] using ha')
    exact ⟨hkept.1, fun hover => (hkept.2 hover).mono hphase⟩

/-- Both invariants hold after every run. -/
theorem inv_kept_of_run {calls : List Call} {moves : List (Nat × Choice)} {c : Config}
    (h : (start (calls.map Call.stage)).run moves = some c) : c.Inv ∧ c.Kept calls :=
  run_induction (p := fun c => c.Inv ∧ c.Kept calls)
    (fun hc hstep => ⟨hc.1.step hstep, hc.2.step hc.1 hstep⟩) ⟨inv_start calls, kept_start calls⟩ h

end Config

/-! ### Safety -/

/-- What holds of a configuration that `calls` have reached, and of the steps and runs from it on. -/
structure Safe (calls : List Call) (c : Config) : Prop where
  /-- The factory has been called at most once. -/
  orders_le_one : c.orders ≤ 1
  /-- All engines together have been told to solve at most once. -/
  solves_le_one : (c.engines.map EngineLife.solves).sum ≤ 1
  /-- A call of `shutdown` that is about to do something to an engine finds no call solving. -/
  no_release_under_solve : ∀ {i : Nat} {choice : Choice} {d : Config}, calls[i]? = some .shutdown →
    c.step i choice = some d → d.engines ≠ c.engines → ∀ a ∈ c.calls, a.isSolving = false
  /-- The phase moves to a successor if it moves. -/
  phase_moves : ∀ {i : Nat} {choice : Choice} {d : Config}, c.step i choice = some d →
    d.phase = c.phase ∨ d.phase ∈ c.phase.successors
  /-- When a call of `shutdown` has returned, the solver stays disposed of. -/
  shutdown_returned : ∀ {i : Nat} {moves : List (Nat × Choice)} {d : Config}, calls[i]? = some .shutdown →
    c.calls[i]? = some .returned → c.run moves = some d → d.phase = .disposed
  /-- When a call of `solve` is over, so is the solve. -/
  solve_over : ∀ {i : Nat} {a : Stage}, calls[i]? = some .solve → c.calls[i]? = some a → a.isOver = true →
    c.phase ∈ [Phase.solved, .aborted, .disposing, .disposed]
  /-- A solver that has been disposed of has left no engine behind, and has released none twice. -/
  released_once : c.phase = .disposed → ∀ e ∈ c.engines, e.releases = 1

/-- The engines of a solver that has been disposed of. -/
theorem Shared.Fits.released_once {s : Shared} {o : Option Stage} (h : s.Fits o) (hp : s.phase = .disposed) :
    ∀ e ∈ s.engines, e.releases = 1 := by
  obtain rfl := h.eq_none (.inr (.inr (.inr hp)))
  simp only [Shared.Fits, hp] at h
  intro e he
  rcases h.engines with hs | ⟨n, -, hs⟩ <;> simp [hs] at he
  simp [he]

/-- Every configuration reached by calls of `solve` and `shutdown` side by side is safe. -/
theorem run_safe {calls : List Call} {moves : List (Nat × Choice)} {c : Config}
    (h : (Config.start (calls.map Call.stage)).run moves = some c) : Safe calls c := by
  obtain ⟨hinv, hkept⟩ := Config.inv_kept_of_run h
  have ⟨o, _, hfits⟩ := hinv
  refine ⟨hfits.once.orders, hfits.once.solves, ?_, hinv.step_phase, ?_, ?_, hfits.released_once⟩
  · intro i choice d hi hstep hengines a ha
    obtain ⟨b, b', s, hb, hs, rfl⟩ := Config.step_eq_some hstep
    rcases Shared.step_engines hs (hkept i _ b hi hb).1 with he | ⟨e, rfl⟩
    · exact absurd he hengines
    · -- the call that releases is the active one, so no other is
      cases hsolving : a.isSolving
      · rfl
      · have hmem : a ∈ c.calls.filter Stage.isActive :=
          List.mem_filter.2 ⟨ha, Stage.isActive_of_isSolving hsolving⟩
        rw [(hinv.fits hb rfl).1, List.mem_singleton] at hmem
        subst hmem
        cases hsolving
  · intro i more d hi hret hmore
    have hdisposed : c.phase = .disposed := (hkept i _ _ hi hret).2 rfl
    -- the last phase has no successor
    refine (Config.run_induction (p := fun c => c.Inv ∧ c.phase = .disposed) ?_ ⟨hinv, hdisposed⟩ hmore).2
    rintro c d j choice ⟨hc, hp⟩ hstep
    exact ⟨hc.step hstep, by simpa [hp, Phase.successors] using hc.step_phase hstep⟩
  · intro i a hi ha hover
    exact (hkept i _ a hi ha).2 hover

/-- A second solve waits for the first, which is told to abort, and a shutdown waits for both. -/
def abortMoves : List (Nat × Choice) := [
  (0, .goesOn), (1, .goesOn), (0, .goesOn), (1, .goesOn), (2, .goesOn), (0, .goesOn), (0, .goesOn), (0, .goesOn),
  (0, .goesOn), (0, .goesOn), (0, .aborts), (0, .goesOn), (0, .goesOn), (0, .goesOn), (1, .goesOn), (2, .goesOn),
  (2, .goesOn), (2, .goesOn), (2, .goesOn), (2, .goesOn)]

theorem run_safe_abortMoves :
    (Config.start [.entering, .entering, .closing]).run abortMoves =
      some ⟨⟨.disposed, none, 1, [⟨1, 1⟩]⟩, [.returned, .returned, .returned]⟩ ∧
    Safe [.solve, .solve, .shutdown] ⟨⟨.disposed, none, 1, [⟨1, 1⟩]⟩, [.returned, .returned, .returned]⟩ :=
  ⟨by decide, @run_safe [.solve, .solve, .shutdown] abortMoves _ (by decide)⟩

end Lifecycle

end Optima
