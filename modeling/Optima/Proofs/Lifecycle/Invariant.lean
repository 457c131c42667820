import Optima.Lifecycle.Calls

/-!
# Who holds the solver

At any moment at most one call has the solver to itself: the call of `solve` that has claimed it, until it has said
how the solve ended, or a call of `shutdown` that disposes of it.  Such a call is active.  The stage of the active
call, or the phase when there is none, determines the shared state almost entirely (`Fits`): which engine there is,
whether the solver keeps it, and whether it has been released.

The invariant `Config.Inv` says that the active calls are at most one and that the shared state fits it.  Every step
keeps it (`Config.Inv.step`), so it holds after every run (`inv_run`).
-/

namespace Optima.Lifecycle

namespace Config

/-- The configuration after some steps, each given by the call that moves and by what happens to it; there is none
when one of the steps cannot be made. -/
def run (c : Config) : List (Nat × Choice) → Option Config
  | [] => some c
  | (i, choice) :: rest => (c.step i choice).bind fun d => d.run rest

/-- A step is a step of the shared state and of one stage. -/
theorem step_eq_some {c d : Config} {i : Nat} {choice : Choice} (h : c.step i choice = some d) :
    ∃ a b s, c.calls[i]? = some a ∧ c.toShared.step a choice = some (s, b) ∧ d = ⟨s, c.calls.set i b⟩ := by
  unfold step at h
  obtain ⟨a, ha, h⟩ := Option.bind_eq_some_iff.1 h
  obtain ⟨⟨s, b⟩, hs, h⟩ := Option.bind_eq_some_iff.1 h
  exact ⟨a, b, s, ha, hs, (Option.some.inj h).symm⟩

/-- What every step keeps holds after every run. -/
theorem run_induction {p : Config → Prop}
    (hstep : ∀ {c d : Config} {i : Nat} {choice : Choice}, p c → c.step i choice = some d → p d)
    {c d : Config} {moves : List (Nat × Choice)} (hc : p c) (h : c.run moves = some d) : p d := by
  induction moves generalizing c with
  | nil => exact Option.some.inj h ▸ hc
  | cons x xs ih =>
    obtain ⟨e, he, h⟩ := Option.bind_eq_some_iff.1 h
    exact ih (hstep hc he) h

end Config

/-! ### The active call -/

/-- Whether a call at a stage has the solver to itself. -/
def Stage.isActive : Stage → Bool
  | checking | making | loading _ | dropping _ | keeping _ | preparing _ | solving _ | extracting _ | settling
  | failing | releasing | deleting _ | clearing | finishing => true
  | _ => false

/-- The active one of a single call, if it is active. -/
def Stage.active? (a : Stage) : Option Stage :=
  if a.isActive then some a else none

namespace Shared

/-- Nothing has been made yet. -/
structure Untouched (s : Shared) : Prop where
  encoding : s.encoding = none
  orders : s.orders = 0
  engines : s.engines = []

/-- An engine has been made, and the solver does not keep it yet. -/
structure Made (s : Shared) : Prop where
  encoding : s.encoding = none
  orders : s.orders = 1
  engines : s.engines = [⟨0, 0⟩]

/-- The solver keeps its engine, which has been told to solve `solves` times and released `releases` times. -/
structure Holds (s : Shared) (solves releases : Nat) : Prop where
  encoding : s.encoding = some 0
  orders : s.orders = 1
  engines : s.engines = [⟨solves, releases⟩]

/-- The solver keeps no engine, and an engine that was made has been released. -/
structure Gone (s : Shared) : Prop where
  encoding : s.encoding = none
  orders : s.orders ≤ 1
  engines : s.engines = [] ∨ ∃ n ≤ 1, s.engines = [⟨n, 1⟩]

/-- The solver keeps an engine to be released, or no engine needs to be. -/
def Over (s : Shared) : Prop :=
  s.Gone ∨ ∃ n ≤ 1, s.Holds n 0

/-- A solve is going on. -/
def Busy (s : Shared) : Prop :=
  s.phase = .solving ∨ s.phase = .aborting

/-- How the shared state has to be for the stage of the active call, if there is one. -/
def Fits (s : Shared) : Option Stage → Prop
  | none =>
    match s.phase with
    | .start => s.Untouched
    | .solved => s.Holds 1 0
    | .aborted => s.Over
    | .disposed => s.Gone
    | .solving | .aborting | .disposing => False
  | some .checking | some .making => s.phase = .solving ∧ s.Untouched
  | some (.loading e) | some (.dropping e) | some (.keeping e) => s.phase = .solving ∧ e = 0 ∧ s.Made
  | some (.preparing e) => s.phase = .solving ∧ e = 0 ∧ s.Holds 0 0
  | some (.solving e) | some (.extracting e) => s.Busy ∧ e = 0 ∧ s.Holds 1 0
  | some .settling => s.Busy ∧ s.Holds 1 0
  | some .failing => s.Busy ∧ s.Over
  | some .releasing => s.phase = .disposing ∧ s.Over
  | some (.deleting e) => s.phase = .disposing ∧ e = 0 ∧ ∃ n ≤ 1, s.Holds n 0
  | some .clearing => s.phase = .disposing ∧ ∃ n ≤ 1, s.Holds n 1
  | some .finishing => s.phase = .disposing ∧ s.Gone
  | some .entering | some .claiming | some .awaiting | some .closing | some .joining | some .draining
  | some .returned | some .raised => False

/-! ### What releasing and solving do to the only engine -/

theorem Untouched.gone {s : Shared} (h : s.Untouched) : s.Gone :=
  ⟨h.encoding, by simp [h.orders], .inl h.engines⟩

theorem Made.gone_release {s : Shared} (h : s.Made) : (s.countRelease 0).Gone :=
  ⟨h.encoding, by simp [countRelease, h.orders], .inr ⟨0, by simp, by simp [countRelease, h.engines]⟩⟩

theorem Holds.solve {s : Shared} {n k : Nat} (h : s.Holds n k) : (s.countSolve 0).Holds (n + 1) k :=
  ⟨h.encoding, h.orders, by simp [countSolve, h.engines]⟩

theorem Holds.release {s : Shared} {n k : Nat} (h : s.Holds n k) : (s.countRelease 0).Holds n (k + 1) :=
  ⟨h.encoding, h.orders, by simp [countRelease, h.engines]⟩

theorem Holds.gone_forget {s : Shared} {n : Nat} (h : s.Holds n 1) (hn : n ≤ 1) : (s.setEncoding none).Gone :=
  ⟨rfl, by simp [setEncoding, h.orders], .inr ⟨n, hn, h.engines⟩⟩

/-! ### Steps of the shared state -/

/-- Only a stage that is not active goes with a phase in which nobody is at work. -/
theorem Fits.eq_none {s : Shared} {o : Option Stage} (h : s.Fits o)
    (hp : s.phase = .start ∨ s.phase = .solved ∨ s.phase = .aborted ∨ s.phase = .disposed) : o = none := by
  rcases o with _ | a
  · rfl
  · exfalso
    cases a <;> simp only [Fits, Busy] at h <;> rcases hp with hp | hp | hp | hp <;> simp [hp] at h

/-- A solver whose solve is over, or that has not been called, keeps an engine to be released or needs none to be. -/
theorem Fits.over {s : Shared} (h : s.Fits none) (hp : s.phase = .start ∨ s.phase.isFinished) : s.Over := by
  rcases hp with hp | hp
  · simp only [Fits, hp] at h
    exact .inl h.gone
  · cases hq : s.phase <;> simp [hq, Phase.isFinished] at hp
    · simp only [Fits, hq] at h
      exact .inr ⟨1, by simp, h⟩
    · simpa only [Fits, hq] using h

/-- The shared state is set to another phase; only the phase matters to who is busy. -/
theorem over_setPhase {s : Shared} {p : Phase} : (s.setPhase p).Over ↔ s.Over :=
  ⟨fun h => h.imp (fun g => ⟨g.1, g.2, g.3⟩) fun ⟨n, hn, g⟩ => ⟨n, hn, g.1, g.2, g.3⟩,
    fun h => h.imp (fun g => ⟨g.1, g.2, g.3⟩) fun ⟨n, hn, g⟩ => ⟨n, hn, g.1, g.2, g.3⟩⟩

/-- Before a solve and after it nobody is at work, and a call of `shutdown` may begin to release. -/
theorem Fits.releases {s : Shared} {o : Option Stage} (h : s.Fits o) (hp : s.phase = .start ∨ s.phase.isFinished) :
    o = none ∧ (s.setPhase .disposing).Fits (some .releasing) := by
  obtain rfl : o = none := by
    refine h.eq_none ?_
    rcases hp with hp | hp
    · exact .inl hp
    · cases hq : s.phase <;> simp [hq, Phase.isFinished] at hp ⊢
  exact ⟨rfl, rfl, over_setPhase.2 (h.over hp)⟩

/-- A step of a call that is not active changes nothing, or makes the call active, which it can only do when nobody
else is. -/
theorem step_inactive {s t : Shared} {a b : Stage} {choice : Choice} (h : s.step a choice = some (t, b))
    (ha : a.isActive = false) :
    (t = s ∧ b.isActive = false) ∨
      (b.isActive = true ∧ ∀ o, s.Fits o → o = none ∧ t.Fits (some b)) := by
  cases a <;> simp only [Stage.isActive, Bool.true_eq_false] at ha <;> simp only [step, reduceCtorEq] at h
  case entering =>
    obtain ⟨rfl, rfl⟩ := Prod.mk.inj (Option.some.inj h)
    left
    refine ⟨rfl, ?_⟩
    split <;> rfl
  case claiming =>
    -- a claim succeeds in the first phase only, and in that phase no call is active
    cases hp : s.phase <;> simp only [hp, Phase.claim?] at h <;> obtain ⟨rfl, rfl⟩ := Prod.mk.inj (Option.some.inj h)
    case start =>
      right
      refine ⟨rfl, fun o ho => ?_⟩
      obtain rfl := ho.eq_none (.inl hp)
      simp only [Fits, hp] at ho
      exact ⟨rfl, rfl, ⟨ho.1, ho.2, ho.3⟩⟩
    all_goals exact .inl ⟨rfl, rfl⟩
  case awaiting =>
    split at h
    · obtain ⟨rfl, rfl⟩ := Prod.mk.inj (Option.some.inj h)
      exact .inl ⟨rfl, rfl⟩
    · cases h
  case closing =>
    cases hp : s.phase <;> simp only [hp, Phase.closing] at h <;>
      obtain ⟨rfl, rfl⟩ := Prod.mk.inj (Option.some.inj h)
    case start => exact .inr ⟨rfl, fun o ho => ho.releases (.inl hp)⟩
    case solved | aborted => exact .inr ⟨rfl, fun o ho => ho.releases (.inr (by simp [hp, Phase.isFinished]))⟩
    all_goals exact .inl ⟨rfl, rfl⟩
  case joining =>
    split at h
    · obtain ⟨rfl, rfl⟩ := Prod.mk.inj (Option.some.inj h)
      exact .inl ⟨rfl, rfl⟩
    · cases h
  case draining =>
    split at h
    · next hp =>
      obtain ⟨rfl, rfl⟩ := Prod.mk.inj (Option.some.inj h)
      exact .inr ⟨rfl, fun o ho => ho.releases (.inr hp)⟩
    · cases h

/-- A step of the active call keeps what is shared fitting to it. -/
theorem step_active {s t : Shared} {a b : Stage} {choice : Choice} (h : s.step a choice = some (t, b))
    (hf : s.Fits (some a)) : t.Fits b.active? := by
  cases a <;> simp only [Fits] at hf
  case checking =>
    cases choice <;> obtain ⟨rfl, rfl⟩ := Prod.mk.inj (Option.some.inj h)
    case fails => exact ⟨.inl hf.1, .inl hf.2.gone⟩
    all_goals exact hf
  case making =>
    obtain ⟨hp, hu⟩ := hf
    -- the order is counted whether or not the factory fails
    have made : s.countOrder.addEngine.Fits (some (.loading s.engines.length)) :=
      ⟨hp, by simp [hu.engines], hu.encoding, by simp [countOrder, addEngine, hu.orders],
        by simp [countOrder, addEngine, hu.engines]⟩
    cases choice <;> obtain ⟨rfl, rfl⟩ := Prod.mk.inj (Option.some.inj h)
    case fails => exact ⟨.inl hp, .inl ⟨hu.encoding, by simp [countOrder, hu.orders], .inl hu.engines⟩⟩
    all_goals exact made
  case loading e =>
    cases choice <;> obtain ⟨rfl, rfl⟩ := Prod.mk.inj (Option.some.inj h) <;> exact hf
  case dropping e =>
    obtain ⟨rfl, rfl⟩ := Prod.mk.inj (Option.some.inj h)
    obtain ⟨hp, rfl, hm⟩ := hf
    exact ⟨.inl hp, .inl hm.gone_release⟩
  case keeping e =>
    obtain ⟨rfl, rfl⟩ := Prod.mk.inj (Option.some.inj h)
    obtain ⟨hp, rfl, hm⟩ := hf
    exact ⟨hp, rfl, rfl, hm.orders, hm.engines⟩
  case preparing e =>
    obtain ⟨hp, rfl, hk⟩ := hf
    cases choice <;> obtain ⟨rfl, rfl⟩ := Prod.mk.inj (Option.some.inj h)
    case fails => exact ⟨.inl hp, .inr ⟨0, by simp, hk⟩⟩
    all_goals exact ⟨.inl hp, rfl, hk.solve⟩
  case solving e =>
    obtain ⟨hb, rfl, hk⟩ := hf
    cases choice <;> obtain ⟨rfl, rfl⟩ := Prod.mk.inj (Option.some.inj h)
    case goesOn => exact ⟨hb, rfl, hk⟩
    case fails => exact ⟨hb, .inr ⟨1, by simp, hk⟩⟩
    case aborts => exact ⟨.inr rfl, rfl, hk.1, hk.2, hk.3⟩
  case extracting e =>
    obtain ⟨hb, rfl, hk⟩ := hf
    cases choice <;> obtain ⟨rfl, rfl⟩ := Prod.mk.inj (Option.some.inj h)
    case fails => exact ⟨hb, .inr ⟨1, by simp, hk⟩⟩
    all_goals exact ⟨hb, hk⟩
  case settling =>
    obtain ⟨rfl, rfl⟩ := Prod.mk.inj (Option.some.inj h)
    obtain ⟨hb, hk⟩ := hf
    rcases hb with hb | hb <;> simp only [hb, Phase.settle]
    · exact ⟨hk.1, hk.2, hk.3⟩
    · exact over_setPhase.2 (.inr ⟨1, by simp, hk⟩)
  case failing =>
    obtain ⟨rfl, rfl⟩ := Prod.mk.inj (Option.some.inj h)
    exact over_setPhase.2 hf.2
  case releasing =>
    obtain ⟨hp, ho⟩ := hf
    -- there is an encoding exactly when an engine is held
    cases he : s.encoding <;> simp only [step, he] at h <;> obtain ⟨rfl, rfl⟩ := Prod.mk.inj (Option.some.inj h)
    case none =>
      rcases ho with ho | ⟨n, hn, hk⟩
      · exact ⟨hp, ho⟩
      · simp [hk.encoding] at he
    case some e =>
      rcases ho with ho | ⟨n, hn, hk⟩
      · simp [ho.encoding] at he
      · exact ⟨hp, by simpa [hk.encoding] using he.symm, n, hn, hk⟩
  case deleting e =>
    obtain ⟨rfl, rfl⟩ := Prod.mk.inj (Option.some.inj h)
    obtain ⟨hp, rfl, n, hn, hk⟩ := hf
    exact ⟨hp, n, hn, hk.release⟩
  case clearing =>
    obtain ⟨rfl, rfl⟩ := Prod.mk.inj (Option.some.inj h)
    obtain ⟨hp, n, hn, hk⟩ := hf
    exact ⟨hp, hk.gone_forget hn⟩
  case finishing =>
    obtain ⟨rfl, rfl⟩ := Prod.mk.inj (Option.some.inj h)
    exact ⟨hf.2.1, hf.2.2, hf.2.3⟩

end Shared

/-! ### The invariant -/

/-- The active calls are at most one, and what is shared fits it. -/
def Config.Inv (c : Config) : Prop :=
  ∃ o : Option Stage, c.calls.filter Stage.isActive = o.toList ∧ c.toShared.Fits o

namespace Config

/-- A call at another stage, and what that does to the active ones. -/
private theorem filter_set {l : List Stage} {i : Nat} {a : Stage} (h : l[i]? = some a) (b : Stage) :
    ∃ pre post, l.filter Stage.isActive = pre ++ a.active?.toList ++ post ∧
      (l.set i b).filter Stage.isActive = pre ++ b.active?.toList ++ post := by
  obtain ⟨hi, rfl⟩ := List.getElem?_eq_some_iff.1 h
  refine ⟨(l.take i).filter Stage.isActive, (l.drop (i + 1)).filter Stage.isActive, ?_, ?_⟩
  · conv => lhs; rw [← List.take_append_drop i l, List.drop_eq_getElem_cons hi]
    simp only [List.filter_append, List.filter_cons, Stage.active?]
    split <;> simp
  · rw [List.set_eq_take_append_cons_drop, if_pos hi]
    simp only [List.filter_append, List.filter_cons, Stage.active?]
    split <;> simp

/-- An active call is the one that the shared state fits. -/
theorem Inv.fits {c : Config} (h : c.Inv) {i : Nat} {a : Stage} (hi : c.calls[i]? = some a)
    (ha : a.isActive = true) : c.calls.filter Stage.isActive = [a] ∧ c.toShared.Fits (some a) := by
  obtain ⟨o, hl, hf⟩ := h
  have hm : a ∈ c.calls.filter Stage.isActive :=
    List.mem_filter.2 ⟨List.mem_of_getElem? hi, ha⟩
  rw [hl] at hm ⊢
  obtain rfl : o = some a := by simpa using hm
  exact ⟨rfl, hf⟩

/-- Every step keeps the invariant. -/
theorem Inv.step {c d : Config} {i : Nat} {choice : Choice} (hc : c.Inv) (h : c.step i choice = some d) :
    d.Inv := by
  obtain ⟨a, b, s, hi, hs, rfl⟩ := step_eq_some h
  obtain ⟨pre, post, hold, hnew⟩ := filter_set hi b
  by_cases ha : a.isActive = true
  · obtain ⟨hl, hf⟩ := hc.fits hi ha
    rw [hl] at hold
    have hnil : pre = [] ∧ post = [] := by
      have := congrArg List.length hold
      simp [Stage.active?, ha] at this
      exact ⟨List.eq_nil_of_length_eq_zero (by omega), List.eq_nil_of_length_eq_zero (by omega)⟩
    obtain ⟨rfl, rfl⟩ := hnil
    exact ⟨b.active?, by simpa using hnew, Shared.step_active hs hf⟩
  · rw [Bool.not_eq_true] at ha
    obtain ⟨o, hl, hf⟩ := hc
    rcases Shared.step_inactive hs ha with ⟨rfl, hb⟩ | ⟨hb, hnext⟩
    · refine ⟨o, ?_, hf⟩
      rw [hnew, ← hl, hold]
      simp [Stage.active?, ha, hb]
    · obtain ⟨rfl, hfits⟩ := hnext o hf
      refine ⟨some b, ?_, hfits⟩
      rw [hl] at hold
      have hnil : pre = [] ∧ post = [] := by simpa [Stage.active?, ha] using hold.symm
      obtain ⟨rfl, rfl⟩ := hnil
      rw [hnew]
      simp [Stage.active?, hb]

end Config

end Optima.Lifecycle
