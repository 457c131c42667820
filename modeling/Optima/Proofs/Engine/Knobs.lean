import Optima.Proofs.Engine.Core

/-!
# What the search is told

Before every search the knobs are set as the settings say (`Tuned`).  There is one that the settings may say nothing
about: an objective bound that counts as infinite sets no cutoff, and then the cutoff is the one that the search had
before.  So it matters which search that is.  A load leaves a search in place that holds the program already, or that
holds no columns; with it stay its cutoff and the point from which it was to start (`leftCutoff`, `leftStart`).  Any
other search is a new one, and it has neither.
-/

namespace Optima.Engine

variable {R : Type}

open Optima.Action (Keeps)

/-! ### What a load leaves in place -/

/-- The search that a load leaves in place. -/
def kept? (e : Engine R) : Option (Search.Model R) :=
  e.search.filter fun search => e.loaded || search.program.columns.isEmpty

/-- The cutoff that is there before the settings are looked at. -/
def leftCutoff (e : Engine R) : Option (Value R) :=
  e.kept?.bind fun search => search.knobs.cutoff

/-- The point from which a search starts, if nothing is done about it. -/
def leftStart (e : Engine R) : Option (Search.Start R) :=
  e.kept?.bind Search.Model.start

/-- A search that becomes the engine's own is noted, and nothing else changes. -/
theorem useSearch_run (search : Search.Model R) (s : Session R) : ∃ latest, useSearch search s =
    .ok ⟨⟩ ⟨{ s.engine with search := some search }, { s.host with latest := latest }⟩ := by
  have hpublish : ∃ latest, Host.publish search s.host = .ok ⟨⟩ { s.host with latest := latest } := by
    unfold Host.publish
    rw [Action.modify_run]
    split
    · exact ⟨_, rfl⟩
    · exact ⟨s.host.latest, rfl⟩
  obtain ⟨latest, hpublish⟩ := hpublish
  refine ⟨latest, ?_⟩
  unfold useSearch
  rw [Action.modify_bind_run]
  simp only [outside, Action.on, hpublish]

variable [Scalar R]

/-- A search that a load uses is the one that is kept, or it is told nothing yet. -/
theorem freshSearch_run {s : Session R} (hloaded : s.engine.loaded = false) : ∃ search n latest,
    freshSearch s = .ok search ⟨s.engine, { s.host with searches := n, latest := latest }⟩ ∧
      search.knobs.cutoff = s.engine.leftCutoff ∧ search.start = s.engine.leftStart := by
  unfold freshSearch leftCutoff leftStart kept?
  rw [Action.get_bind_run, hloaded]
  cases s.engine.search with
  | none => exact ⟨_, _, _, rfl, rfl, rfl⟩
  | some search =>
    cases hempty : search.program.columns.isEmpty with
    | true =>
      simp only [hempty, ↓reduceIte, Bool.or_true, Option.filter_some]
      exact ⟨search, s.host.searches, s.host.latest, rfl, rfl, rfl⟩
    | false =>
      simp only [hempty, Bool.false_eq_true, ↓reduceIte, Bool.or_false, Option.filter_some]
      exact ⟨_, _, _, rfl, rfl, rfl⟩

/-- What a load does: there is a search that holds the program, and what was told to a search that is kept stays. -/
theorem load_run (s : Session R) : ∃ search n latest,
    load s = .ok ⟨⟩ ⟨{ s.engine with search := search, loaded := true },
      { s.host with searches := n, latest := latest }⟩ ∧
      search.map Search.Model.program = (if s.engine.loaded then s.core.handed else some s.engine.program) ∧
      (search.bind fun search => search.knobs.cutoff) = s.engine.leftCutoff ∧
      search.bind Search.Model.start = s.engine.leftStart := by
  unfold load
  rw [Action.get_bind_run]
  cases hloaded : s.engine.loaded with
  | true =>
    have hkept : s.engine.kept? = s.engine.search := by
      unfold kept?
      cases s.engine.search <;> simp [hloaded]
    have hself : ({ s.engine with loaded := true } : Engine R) = s.engine := by rw [← hloaded]
    refine ⟨s.engine.search, s.host.searches, s.host.latest, ?_, rfl, ?_, ?_⟩
    · show _ = EStateM.Result.ok _ (Session.mk { s.engine with loaded := true } s.host)
      rw [hself]
      rfl
    · rw [leftCutoff, hkept]
    · rw [leftStart, hkept]
  | false =>
    obtain ⟨search, n, latest, hfresh, hcutoff, hstart⟩ := freshSearch_run hloaded
    obtain ⟨latest', huse⟩ := useSearch_run { search with program := s.engine.program }
      ⟨s.engine, { s.host with searches := n, latest := latest }⟩
    refine ⟨some { search with program := s.engine.program }, n, latest', ?_, rfl, hcutoff, hstart⟩
    simp only [Bool.false_eq_true, ↓reduceIte]
    rw [Action.bind_ok hfresh, Action.get_bind_run]
    exact Action.bind_ok huse _

/-! ### Knobs -/

/-- The knobs are set as the settings say.  A cutoff that was left is still there when the objective bound is open. -/
structure Tuned (e : Engine R) (left : Option (Value R)) (k : Search.Knobs R) : Prop where
  verbose : e.wantsReports = .ok k.verbose
  integerTolerance : k.integerTolerance = e.settings.get .epsint
  gapAbsolute : k.gapAbsolute = e.settings.get .gapAbsolute
  gapRelative : k.gapRelative = e.settings.get .gapRelative
  preprocess : k.preprocess = (e.settings.get .presolve).truth
  method : ∃ simplex, e.settings.simplexType = .ok simplex ∧ k.method = if simplex.endsPrimal then .primal else .dual
  cutoff : ∃ isOpen, e.countsInfinite (e.settings.get .objectiveBound) = .ok isOpen ∧
    k.cutoff = if isOpen then left else some (e.settings.get .objectiveBound)

/-- Only the settings say how the knobs are to be set. -/
theorem Tuned.congr {e e' : Engine R} {left : Option (Value R)} {k : Search.Knobs R} (h : Tuned e left k)
    (hsettings : e'.settings = e.settings) : Tuned e' left k := by
  have hreports : e'.wantsReports = e.wantsReports := by rw [wantsReports, hsettings, wantsReports]
  have hopen (v : Value R) : e'.countsInfinite v = e.countsInfinite v := by
    rw [countsInfinite, sentinel, hsettings, countsInfinite, sentinel]
  refine ⟨hreports.trans h.verbose, ?_, ?_, ?_, ?_, ?_, ?_⟩ <;> rw [hsettings]
  · exact h.integerTolerance
  · exact h.gapAbsolute
  · exact h.gapRelative
  · exact h.preprocess
  · exact h.method
  · rw [hopen]
    exact h.cutoff

omit [Scalar R] in
theorem tune_run {s : Session R} {search : Search.Model R} (hsearch : s.engine.search = some search)
    (f : Search.Knobs R → Search.Knobs R) : ∃ t, tune f s = .ok ⟨⟩ t ∧
      t.engine.search = some { search with knobs := f search.knobs } := by
  obtain ⟨latest, hrun⟩ := useSearch_run { search with knobs := f search.knobs } s
  refine ⟨⟨{ s.engine with search := some { search with knobs := f search.knobs } }, { s.host with latest := latest }⟩,
    ?_, rfl⟩
  unfold tune updateSearch
  rw [Action.get_bind_run, hsearch]
  exact hrun

/-- A note on a setting has nothing to do with the search. -/
private theorem keeps_search_unused (e : Engine R) :
    Keeps (fun s => s.engine.search) (Setting.unused.forM fun setting => do
      let v := e.settings.get setting
      if !v.same setting.start then
        outside (Host.record .debug
          ("Setting " ++ setting.name ++ "=" ++ v.written ++ " is kept but not applied by CBC")) : Work R Unit) := by
  refine .forM fun setting _ => ?_
  simp only
  split
  · exact fun _ => rfl
  · exact .pure _

/-- When the search has been told, its knobs are set, and it is the same search otherwise. -/
theorem configure_ok {s t : Session R} {search : Search.Model R} (hsearch : s.engine.search = some search)
    (h : configure s = .ok ⟨⟩ t) : ∃ k, t.engine.search = some { search with knobs := k } ∧
      Tuned s.engine search.knobs.cutoff k := by
  unfold configure at h
  rw [Action.get_bind_run] at h
  simp only at h
  obtain ⟨reports, hreports, h⟩ := Action.lift_bind_eq_ok.1 h
  obtain ⟨u, hu, husearch⟩ := tune_run hsearch _
  rw [Action.bind_ok hu] at h
  obtain ⟨simplex, hsimplex, h⟩ := Action.lift_bind_eq_ok.1 h
  obtain ⟨v, hv, hvsearch⟩ := tune_run husearch _
  rw [Action.bind_ok hv] at h
  obtain ⟨isOpen, hopen, h⟩ := Action.lift_bind_eq_ok.1 h
  cases isOpen with
  | true =>
    rw [if_neg (by simp)] at h
    exact ⟨_, ((keeps_search_unused _).ok h).trans hvsearch, hreports, rfl, rfl, rfl, rfl, ⟨simplex, hsimplex, rfl⟩,
      true, hopen, rfl⟩
  | false =>
    rw [if_pos (by simp)] at h
    obtain ⟨w, hw, hwsearch⟩ := tune_run hvsearch _
    rw [Action.bind_ok hw] at h
    exact ⟨_, ((keeps_search_unused _).ok h).trans hwsearch, hreports, rfl, rfl, rfl, rfl, ⟨simplex, hsimplex, rfl⟩,
      false, hopen, rfl⟩

/-! ### What leaves the search alone -/

omit [Scalar R] in
theorem keeps_search_outside {α : Type} (act : Action (Host R) α) :
    Keeps (fun s => s.engine.search) (outside act) := by
  intro s
  rw [after_outside]

omit [Scalar R] in
theorem keeps_search_tell (event : Option Phase → Event R) : Keeps (fun s => s.engine.search) (tell event) :=
  keeps_tell (fun _ => fun _ => rfl) (keeps_search_outside _)

theorem keeps_search_log (text : String) : Keeps (fun s => s.engine.search) (log text : Work R Unit) := by
  have hwrite : Keeps (fun s => s.engine.search) (writeLog text : Work R Unit) := by
    refine .get_bind fun s => ?_
    split
    · split
      · rfl
      · exact keeps_search_outside _ s
    · split <;> rfl
  exact (keeps_search_outside _).bind fun _ => (keeps_search_tell _).bind fun _ => hwrite

omit [Scalar R] in
theorem keeps_search_send (m : Message) : Keeps (fun s => s.engine.search) (send m : Work R Unit) := by
  refine Keeps.get.bind fun s => ?_
  split
  · exact (keeps_search_tell _).bind fun _ => keeps_search_tell _
  · exact .pure _

theorem keeps_search_abortRequested : Keeps (fun s => s.engine.search) (abortRequested : Work R Bool) :=
  keeps_asking (fun _ => fun _ => rfl) (fun _ => keeps_search_outside _) (keeps_search_outside _)

theorem keeps_search_takeOutcome (o : Search.Outcome R) : Keeps (fun s => s.engine.search) (takeOutcome o) :=
  view_takeOutcome (fun _ => fun _ => rfl) keeps_search_send o

end Optima.Engine
