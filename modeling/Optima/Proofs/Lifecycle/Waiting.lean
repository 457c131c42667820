import Optima.Proofs.Lifecycle.Safety

/-!
# Who is left waiting

A call of `solve` that finds the solver claimed waits until the solve is over or the solver is on its way out.  A call
of `shutdown` that finds another one at work waits until the solver has been disposed of, and one that finds a solve
going on waits for that solve to be over.  The last of these conditions does not last: when two calls of `shutdown`
wait for one solve, the first to go on closes the solver, and the second never finds it finished again.

`run_waiters` says that this is the only way to be left behind.  When no call can move, every call is over but for
calls of `shutdown` that have been overtaken by another one; in a solver that has been disposed of all other waiting
calls return with their next step, and an overtaken one stays where it is for ever.  `waiter_left_behind` is the
shortest way to get there, with one solve and two calls of `shutdown`.

Next to the invariants of safety, this takes to know in which phases a call can be waiting (`Stage.admits`), and that
a solver is closed by a call of `shutdown` that has gone past its waiting (`Config.Awaited`).
-/

namespace Optima.Lifecycle

open Workspace (Call)

namespace Stage

/-- Whether a call at a stage waits for another one. -/
def isWaiting : Stage → Bool
  | awaiting | joining | draining => true
  | _ => false

/-- Whether a call of `shutdown` at a stage has taken over the solver, or is over. -/
def hasClosed : Stage → Bool
  | releasing | deleting _ | clearing | finishing | returned => true
  | _ => false

/-- Whether a call may be at a stage in a phase: nobody waits for a solver that has not been called, and only a
solver on its way out is waited for by a call that joins. -/
def admits : Stage → Phase → Bool
  | awaiting, p | draining, p => p != .start
  | joining, p => p.isClosing
  | _, _ => true

/-- A phase in which a call may be at a stage is followed by such phases only. -/
theorem admits_mono {a : Stage} {p q : Phase} (h : a.admits p = true) (hq : q = p ∨ q ∈ p.successors) :
    a.admits q = true := by
  rcases hq with rfl | hq
  · exact h
  · cases a <;> cases p <;> simp [admits, Phase.isClosing] at h <;> simp [Phase.successors] at hq <;>
      simp [admits, Phase.isClosing, hq]
    -- a claimed solver may go on to several phases, none of which is the first
    all_goals rcases hq with rfl | rfl | rfl <;> simp

end Stage

namespace Shared

/-! ### Steps -/

/-- A call that neither waits nor is over can move. -/
theorem step_isSome {s : Shared} {a : Stage} (hw : a.isWaiting = false) (ho : a.isOver = false) :
    (s.step a .goesOn).isSome = true := by
  cases a <;> simp [Stage.isWaiting, Stage.isOver] at hw ho <;> simp only [step, Option.isSome_some]
  case claiming => cases s.phase.claim? <;> rfl
  case closing => cases s.phase.closing <;> rfl
  case releasing => cases s.encoding <;> rfl

/-- A call that begins to wait does so in a phase that admits it. -/
theorem step_admits {s t : Shared} {a b : Stage} {choice : Choice} (h : s.step a choice = some (t, b)) :
    b.admits t.phase = true := by
  cases a
  case claiming | closing =>
    cases hp : s.phase <;> simp only [step, hp, Phase.claim?, Phase.closing] at h <;>
      obtain ⟨rfl, rfl⟩ := Prod.mk.inj (Option.some.inj h) <;> simp [Stage.admits, hp, Phase.isClosing]
  -- no other stage is followed by one at which a call waits
  case entering =>
    obtain ⟨rfl, rfl⟩ := Prod.mk.inj (Option.some.inj h)
    split <;> rfl
  case awaiting | joining | draining =>
    simp only [step, Option.ite_none_right_eq_some] at h
    obtain ⟨rfl, rfl⟩ := Prod.mk.inj (Option.some.inj h.2)
    rfl
  case releasing =>
    cases he : s.encoding <;> simp only [step, he] at h <;> obtain ⟨rfl, rfl⟩ := Prod.mk.inj (Option.some.inj h) <;>
      rfl
  case returned | raised => cases h
  all_goals cases choice <;> obtain ⟨rfl, rfl⟩ := Prod.mk.inj (Option.some.inj h) <;> rfl

/-- A call that has taken over the solver goes on to release it. -/
theorem step_hasClosed {s t : Shared} {a b : Stage} {choice : Choice} (h : s.step a choice = some (t, b))
    (ha : a.hasClosed = true) : b.hasClosed = true := by
  cases a <;> simp only [Stage.hasClosed, Bool.false_eq_true] at ha
  case releasing =>
    cases he : s.encoding <;> simp only [step, he] at h <;> obtain ⟨rfl, rfl⟩ := Prod.mk.inj (Option.some.inj h) <;>
      rfl
  case returned => cases h
  all_goals obtain ⟨rfl, rfl⟩ := Prod.mk.inj (Option.some.inj h); rfl

/-- A solver is closed by a call that begins to release it. -/
theorem step_isClosing {s t : Shared} {a b : Stage} {choice : Choice} (h : s.step a choice = some (t, b))
    (hf : a.isActive = true → s.Fits (some a)) (ht : t.phase.isClosing = true) :
    s.phase.isClosing = true ∨ b = .releasing := by
  cases a <;> simp only [Stage.isActive, Fits, forall_const, Bool.false_eq_true, false_implies] at hf
  case claiming | closing =>
    cases hp : s.phase <;> simp only [step, hp, Phase.claim?, Phase.closing] at h <;>
      obtain ⟨rfl, rfl⟩ := Prod.mk.inj (Option.some.inj h) <;> simp [setPhase, hp, Phase.isClosing] at ht ⊢
  case awaiting | joining =>
    simp only [step, Option.ite_none_right_eq_some] at h
    obtain ⟨rfl, rfl⟩ := Prod.mk.inj (Option.some.inj h.2)
    exact .inl ht
  case draining =>
    simp only [step, Option.ite_none_right_eq_some] at h
    obtain ⟨rfl, rfl⟩ := Prod.mk.inj (Option.some.inj h.2)
    exact .inr rfl
  case solving e =>
    cases choice <;> obtain ⟨rfl, rfl⟩ := Prod.mk.inj (Option.some.inj h)
    case aborts => simp [setPhase, Phase.isClosing] at ht
    all_goals exact .inl ht
  case settling | failing =>
    obtain ⟨rfl, rfl⟩ := Prod.mk.inj (Option.some.inj h)
    rcases hf.1 with hp | hp <;> simp [setPhase, hp, Phase.settle, Phase.isClosing] at ht
  case releasing =>
    cases he : s.encoding <;> simp only [step, he] at h <;> obtain ⟨rfl, rfl⟩ := Prod.mk.inj (Option.some.inj h) <;>
      exact .inl ht
  case finishing => exact .inl (by simp [hf.1, Phase.isClosing])
  case returned | raised => cases h
  all_goals cases choice <;> obtain ⟨rfl, rfl⟩ := Prod.mk.inj (Option.some.inj h) <;> exact .inl ht

end Shared

namespace Config

/-- A step of what is shared is a step of the configuration. -/
theorem step_of_shared {c : Config} {i : Nat} {a b : Stage} {s : Shared} {choice : Choice} (hi : c.calls[i]? = some a)
    (hs : c.toShared.step a choice = some (s, b)) : c.step i choice = some ⟨s, c.calls.set i b⟩ := by
  simp [step, hi, hs]

/-! ### The invariant -/

/-- What is known of calls that wait, and of the call that they wait for when the solver is closed. -/
structure Awaited (calls : List Call) (c : Config) : Prop where
  length : c.calls.length = calls.length
  admits : ∀ a ∈ c.calls, a.admits c.phase = true
  /-- A solver on its way out has been taken over by a call of `shutdown`. -/
  closed : c.phase.isClosing = true →
    ∃ (j : Nat) (b : Stage), calls[j]? = some .shutdown ∧ c.calls[j]? = some b ∧ b.hasClosed = true

theorem awaited_start (calls : List Call) : (start (calls.map Call.stage)).Awaited calls := by
  refine ⟨by simp [start], ?_, fun h => by cases h⟩
  simp only [start, List.mem_map]
  rintro a ⟨k, -, rfl⟩
  cases k <;> rfl

theorem Awaited.step {calls : List Call} {c d : Config} {i : Nat} {choice : Choice} (hw : c.Awaited calls)
    (hc : c.Inv) (hk : c.Kept calls) (h : c.step i choice = some d) : d.Awaited calls := by
  have hphase := hc.step_phase h
  obtain ⟨a, b, s, hi, hs, rfl⟩ := step_eq_some h
  have hfits : a.isActive = true → c.toShared.Fits (some a) := fun ha => (hc.fits hi ha).2
  have hlt : i < c.calls.length := (List.getElem?_eq_some_iff.1 hi).1
  refine ⟨by simpa using hw.length, fun a' ha' => ?_, fun hclosing => ?_⟩
  · rcases List.mem_or_eq_of_mem_set ha' with ha' | rfl
    · exact Stage.admits_mono (hw.admits a' ha') hphase
    · exact Shared.step_admits hs
  · rcases Shared.step_isClosing hs hfits hclosing with hbefore | rfl
    · obtain ⟨j, b', hj, hb', hclosed⟩ := hw.closed hbefore
      by_cases hij : i = j
      · subst hij
        obtain rfl : a = b' := by simpa [hi] using hb'
        exact ⟨i, b, hj, by simp [hlt], Shared.step_hasClosed hs hclosed⟩
      · exact ⟨j, b', hj, by simpa [List.getElem?_set, hij] using hb', hclosed⟩
    -- the call that begins to release the solver is one of `shutdown`
    · obtain ⟨k, hcall⟩ : ∃ k, calls[i]? = some k := ⟨_, List.getElem?_eq_getElem (hw.length ▸ hlt)⟩
      have hkind := (Shared.step_kind hs hfits (hk i k a hcall hi).1).1
      cases k
      case solve => cases hkind
      case shutdown => exact ⟨i, .releasing, hcall, by simp [hlt], rfl⟩

/-- The invariants of safety and this one hold after every run. -/
theorem awaited_of_run {calls : List Call} {moves : List (Nat × Choice)} {c : Config}
    (h : (start (calls.map Call.stage)).run moves = some c) : c.Inv ∧ c.Kept calls ∧ c.Awaited calls :=
  run_induction (p := fun c => c.Inv ∧ c.Kept calls ∧ c.Awaited calls)
    (fun hc hstep => ⟨hc.1.step hstep, hc.2.1.step hc.1 hstep, hc.2.2.step hc.1 hc.2.1 hstep⟩)
    ⟨inv_start calls, kept_start calls, awaited_start calls⟩ h

/-! ### Who can move -/

/-- While a call is in the middle of solving or disposing, it can move. -/
theorem Inv.exists_step {c : Config} (hc : c.Inv)
    (hp : c.phase = .solving ∨ c.phase = .aborting ∨ c.phase = .disposing) :
    ∃ (i : Nat) (d : Config), c.step i .goesOn = some d := by
  obtain ⟨o, hl, hf⟩ := hc
  rcases o with _ | a
  · rcases hp with hp | hp | hp <;> simp [Shared.Fits, hp] at hf
  · obtain ⟨ha, hactive⟩ := List.mem_filter.1 (hl ▸ List.mem_singleton_self a : a ∈ c.calls.filter Stage.isActive)
    obtain ⟨i, hi⟩ := List.getElem?_of_mem ha
    have hwaiting : a.isWaiting = false := by cases a <;> simp [Stage.isActive] at hactive <;> rfl
    have hover : a.isOver = false := by cases a <;> simp [Stage.isActive] at hactive <;> rfl
    obtain ⟨⟨s, b⟩, hs⟩ := Option.isSome_iff_exists.1 (Shared.step_isSome (s := c.toShared) hwaiting hover)
    exact ⟨i, _, step_of_shared hi hs⟩

/-- When no call can move, those that are not over wait for a solve in a solver that has been disposed of. -/
theorem Awaited.at_rest {calls : List Call} {c : Config} (hw : c.Awaited calls) (hc : c.Inv)
    (hrest : ∀ i choice, c.step i choice = none) {a : Stage} (ha : a ∈ c.calls) :
    a.isOver = true ∨ a = .draining ∧ c.phase = .disposed := by
  obtain ⟨i, hi⟩ := List.getElem?_of_mem ha
  have hstep : c.toShared.step a .goesOn = none := by
    cases hs : c.toShared.step a .goesOn with
    | none => rfl
    | some x => exact absurd (step_of_shared hi hs) (by simp [hrest])
  have hidle : ¬(c.phase = .solving ∨ c.phase = .aborting ∨ c.phase = .disposing) := by
    intro hp
    obtain ⟨j, d, hd⟩ := hc.exists_step hp
    exact absurd hd (by simp [hrest])
  have hadmits := hw.admits a ha
  cases hover : a.isOver
  case true => exact .inl rfl
  case false =>
    cases hwaiting : a.isWaiting
    case false =>
      have hmoves := Shared.step_isSome (s := c.toShared) hwaiting hover
      simp [hstep] at hmoves
    case true =>
      right
      cases a <;> simp [Stage.isWaiting] at hwaiting <;> cases hp : c.phase <;>
        simp [hp, Stage.admits, Phase.isClosing] at hadmits hidle <;>
        simp [Shared.step, hp, Phase.releasesSolve, Phase.isFinished, Phase.isClosing] at hstep ⊢

/-- A call that waits for a solve in a solver that has been disposed of is one of `shutdown`, and another one has
disposed of the solver and returned. -/
theorem Awaited.overtaken {calls : List Call} {c : Config} {i : Nat} (hw : c.Awaited calls) (hc : c.Inv)
    (hk : c.Kept calls) (hp : c.phase = .disposed) (hi : c.calls[i]? = some .draining) :
    calls[i]? = some .shutdown ∧ ∃ j, j ≠ i ∧ calls[j]? = some .shutdown ∧ c.calls[j]? = some .returned := by
  have hshutdown : calls[i]? = some .shutdown := by
    have hlt : i < calls.length := hw.length ▸ (List.getElem?_eq_some_iff.1 hi).1
    obtain ⟨k, hcall⟩ : ∃ k, calls[i]? = some k := ⟨_, List.getElem?_eq_getElem hlt⟩
    have hkind := (hk i k _ hcall hi).1
    cases k
    case solve => cases hkind
    case shutdown => exact hcall
  obtain ⟨j, b, hj, hb, hclosed⟩ := hw.closed (by simp [hp, Phase.isClosing])
  refine ⟨hshutdown, j, ?_, hj, ?_⟩
  · rintro rfl
    simp only [hi, Option.some.injEq] at hb
    simp [← hb, Stage.hasClosed] at hclosed
  -- nobody is at work any more, so the call that closed the solver is over
  · cases b <;> simp [Stage.hasClosed] at hclosed
    case returned => exact hb
    all_goals
      have hfits := (hc.fits hb rfl).2
      simp [Shared.Fits, hp] at hfits

/-- A call that waits for a solve stays where it is once the solver has been disposed of. -/
theorem draining_of_run {c d : Config} {i : Nat} {moves : List (Nat × Choice)} (hc : c.Inv)
    (hp : c.phase = .disposed) (hi : c.calls[i]? = some .draining) (h : c.run moves = some d) :
    d.calls[i]? = some .draining := by
  refine (run_induction (p := fun c => c.Inv ∧ c.phase = .disposed ∧ c.calls[i]? = some .draining) ?_
    ⟨hc, hp, hi⟩ h).2.2
  rintro c d j choice ⟨hc, hp, hi⟩ hstep
  refine ⟨hc.step hstep, by simpa [hp, Phase.successors] using hc.step_phase hstep, ?_⟩
  obtain ⟨a, b, s, hj, hs, rfl⟩ := step_eq_some hstep
  by_cases hij : j = i
  · subst hij
    obtain rfl : a = .draining := by simpa [hj] using hi
    simp [Shared.step, hp, Phase.isFinished] at hs
  · simpa [List.getElem?_set, hij] using hi

/-- Every call that waits for a solver that has been disposed of can return. -/
def WaitersReturn (c : Config) : Prop :=
  c.phase = .disposed → ∀ (i : Nat) (a : Stage), c.calls[i]? = some a → a.isWaiting = true →
    ∃ (choice : Choice) (d : Config), c.step i choice = some d ∧ d.calls[i]? = some .returned

end Config

/-! ### Waiting calls -/

/-- What holds of the calls that are not over in a configuration that `calls` have reached. -/
structure Waiters (calls : List Call) (c : Config) : Prop where
  /-- When no call can move, those that are not over wait for a solve in a solver that has been disposed of. -/
  at_rest : (∀ i choice, c.step i choice = none) → ∀ a ∈ c.calls,
    a.isOver = true ∨ a = .draining ∧ c.phase = .disposed
  /-- Once the solver has been disposed of, a call that waits for anything else returns with its next step. -/
  returns : ∀ {i : Nat} {a : Stage}, c.phase = .disposed → c.calls[i]? = some a → a.isWaiting = true →
    a ≠ .draining → ∀ choice, c.step i choice = some ⟨c.toShared, c.calls.set i .returned⟩
  /-- One that waits for a solve has been overtaken by another call of `shutdown`, which has returned. -/
  overtaken : ∀ {i : Nat}, c.phase = .disposed → c.calls[i]? = some .draining → calls[i]? = some .shutdown ∧
    ∃ j, j ≠ i ∧ calls[j]? = some .shutdown ∧ c.calls[j]? = some .returned
  /-- It stays where it is, whatever the others do. -/
  left_behind : ∀ {i : Nat} {moves : List (Nat × Choice)} {d : Config}, c.phase = .disposed →
    c.calls[i]? = some .draining → c.run moves = some d → d.calls[i]? = some .draining

/-- Calls of `solve` and `shutdown` side by side leave behind only calls of `shutdown` that have been overtaken. -/
theorem run_waiters {calls : List Call} {moves : List (Nat × Choice)} {c : Config}
    (h : (Config.start (calls.map Call.stage)).run moves = some c) : Waiters calls c := by
  obtain ⟨hinv, hkept, hawaited⟩ := Config.awaited_of_run h
  refine ⟨fun hrest a ha => hawaited.at_rest hinv hrest ha, fun {i a} hp hi hwaiting hdraining choice => ?_,
    fun {i} hp hi => hawaited.overtaken hinv hkept hp hi, fun hp hi hrun => Config.draining_of_run hinv hp hi hrun⟩
  refine Config.step_of_shared hi ?_
  cases a <;> simp [Stage.isWaiting] at hwaiting hdraining <;>
    simp [Shared.step, hp, Phase.releasesSolve, Phase.isFinished, Phase.isClosing]

/-- Two calls of `shutdown` wait for one solve, and the first of them to go on disposes of the solver. -/
def overtakingMoves : List (Nat × Choice) :=
  List.replicate 7 (0, .goesOn) ++ [(1, .goesOn), (2, .goesOn)] ++ List.replicate 3 (0, .goesOn) ++
    List.replicate 5 (1, .goesOn)

theorem run_waiters_overtakingMoves :
    (Config.start [.entering, .closing, .closing]).run overtakingMoves =
      some ⟨⟨.disposed, none, 1, [⟨1, 1⟩]⟩, [.returned, .returned, .draining]⟩ ∧
    Waiters [.solve, .shutdown, .shutdown] ⟨⟨.disposed, none, 1, [⟨1, 1⟩]⟩, [.returned, .returned, .draining]⟩ :=
  ⟨by decide, @run_waiters [.solve, .shutdown, .shutdown] overtakingMoves _ (by decide)⟩

/-- Not every call that waits for a solver that has been disposed of can return. -/
theorem waiter_left_behind :
    ¬ ∀ (calls : List Call) (moves : List (Nat × Choice)) (c : Config),
      (Config.start (calls.map Call.stage)).run moves = some c → c.WaitersReturn := by
  intro h
  have hrun : (Config.start ([Call.solve, .shutdown, .shutdown].map Call.stage)).run overtakingMoves =
      some ⟨⟨.disposed, none, 1, [⟨1, 1⟩]⟩, [.returned, .returned, .draining]⟩ := by decide
  obtain ⟨choice, d, hstep, -⟩ := h _ _ _ hrun rfl 2 .draining rfl rfl
  cases choice <;> cases hstep

end Optima.Lifecycle
