import Optima.Exact.Ranging
import Optima.Proofs.Engine.Built
import Optima.Proofs.Engine.Outcomes
import Optima.Proofs.Engine.Slacks

/-!
# The search is given the program of the engine

What a built engine hands over is its own program, over the exact numbers: the same columns, rows that a point of the
columns can satisfy by some values of the slack columns exactly when it satisfies the rows of the engine, the same
objective and the same sets (`Presents`).  Rows without entries are not handed over.  They are checked before a search
begins, and a solve says that the program is infeasible without asking for anything exactly when one of them excludes
zero (`program_faithful`).
-/

namespace Optima.Engine

open Extended (Between)

/-! ### The program -/

/-- A program of the search stands for the program of an engine. -/
structure Presents (e : Engine Extended) (p : Search.Program Extended) : Prop where
  columns : p.columns.take e.columns.length = e.columns
  slacks : ∀ c ∈ p.columns.drop e.columns.length, c.integer = false
  rows : ∀ point : List Rat, point.length = e.columns.length →
    (Extends point (p.columns.drop e.columns.length) p.rows ↔
      ∀ r ∈ e.rows, r.entries ≠ [] → Between r.limits (valueAt r.entries point))
  objective : p.objective = e.objective
  objectiveValue : ∀ point more : List Rat, point.length = e.columns.length →
    valueAt p.objective (point ++ more) = valueAt e.objective point
  maximize : p.maximize = e.maximize
  sets : List.Forall₂ (fun (s : OrderedSet Extended) (q : Search.OrderedSet Extended) =>
    q.kind = s.kind ∧ q.terms.map Prod.fst = s.columns ∧ q.terms.map Prod.snd = s.weights ∧
      ∀ col ∈ s.columns, e.HasColumn col)
    (e.sets.filter fun s => !s.columns.isEmpty) p.sets

private theorem searchRows_continuous (next : Nat) (rows : List (Row Extended)) :
    ∀ c ∈ (searchRows next rows).1, c.integer = false := by
  induction rows generalizing next with
  | nil => simp [searchRows]
  | cons r rows ih =>
    rw [searchRows]
    simp only
    split
    · exact ih next
    split
    · exact ih next
    split
    · rintro c (_ | ⟨_, hc⟩)
      · rfl
      · exact ih _ c hc
    split
    · exact ih next
    split
    · exact ih next
    · exact ih next

theorem program_presents {e : Engine Extended} (he : e.Sound) (hlimits : ∀ r ∈ e.rows, r.Limited)
    (hfinite : ∀ r ∈ e.rows, ∀ t ∈ r.entries, Scalar.isFinite t.2 = true) : Presents e e.program := by
  have hcolumns : e.program.columns = e.columns ++ (searchRows (e.columns.length + 1) e.rows).1 := rfl
  refine ⟨?_, ?_, ?_, rfl, ?_, rfl, ?_⟩
  · rw [hcolumns, List.take_left]
  · rw [hcolumns, List.drop_left]
    exact searchRows_continuous _ _
  · intro point hpoint
    rw [hcolumns, List.drop_left]
    show Extends point _ (searchRows (e.columns.length + 1) e.rows).2 ↔ _
    rw [← hpoint]
    exact searchRows_feasible fun r hr => ⟨hlimits r hr, fun t ht => hpoint ▸ he.rows r hr t ht, hfinite r hr⟩
  · intro point more hpoint
    exact valueAt_append (fun t ht => hpoint ▸ he.objective t ht) more
  · have hsets : e.program.sets =
        (e.sets.filter fun s => !s.columns.isEmpty).map fun s => ⟨s.kind, s.columns.zip s.weights⟩ := rfl
    rw [hsets, List.forall₂_map_right_iff, List.forall₂_same]
    intro s hs
    have hmem := List.mem_of_mem_filter hs
    have hlength := he.setLength s hmem
    exact ⟨rfl, List.map_fst_zip (Nat.le_of_eq hlength), List.map_snd_zip (Nat.le_of_eq hlength.symm), he.sets s hmem⟩

/-! ### Rows without entries -/

section

variable {R : Type} [Scalar R]

/-- A row without entries excludes zero, by more than a tolerance. -/
def Row.ExcludesZero (tolerance : Extended) (r : Row R) : Prop :=
  r.entries = [] ∧
    (tolerance.lt (Scalar.exact r.limits.1) = true ∨ (Scalar.exact r.limits.2).lt (-tolerance) = true)

instance (tolerance : Extended) (r : Row R) : Decidable (r.ExcludesZero tolerance) :=
  inferInstanceAs (Decidable (_ ∧ (_ ∨ _)))

private theorem violatedEmptyRow?_pass (tolerance : Value R) {r : Row R} (h : r.entries ≠ []) (rows : List (Row R)) :
    violatedEmptyRow? tolerance (r :: rows) = violatedEmptyRow? tolerance rows := by
  have hempty : r.entries.isEmpty = false := by simpa using h
  rw [violatedEmptyRow?, hempty]
  rfl

private theorem violatedEmptyRow?_check {tolerance : Value R} {t : Extended} (ht : tolerance.comparable = .ok t)
    {r : Row R} (h : r.entries = []) (rows : List (Row R)) :
    violatedEmptyRow? tolerance (r :: rows) =
      if t.lt (Scalar.exact r.limits.1) || (Scalar.exact r.limits.2).lt (-t) then .ok (some r)
      else violatedEmptyRow? tolerance rows := by
  have hempty : r.entries.isEmpty = true := by simpa using h
  rw [violatedEmptyRow?, hempty, if_pos rfl, excludesZero, ht]
  rfl

/-- A row is found exactly when there is one that excludes zero. -/
theorem violatedEmptyRow?_eq_some {tolerance : Value R} {rows : List (Row R)} :
    (∃ r, violatedEmptyRow? tolerance rows = .ok (some r)) ↔
      ∃ t, tolerance.comparable = .ok t ∧ ∃ r ∈ rows, r.ExcludesZero t := by
  induction rows with
  | nil => simp [violatedEmptyRow?]
  | cons r rows ih =>
    by_cases hempty : r.entries = []
    · cases htolerance : tolerance.comparable with
      | error fault => simp [violatedEmptyRow?, hempty, excludesZero, htolerance, bind, Except.bind]
      | ok t =>
        simp only [htolerance, Except.ok.injEq, exists_eq_left'] at ih ⊢
        rw [violatedEmptyRow?_check htolerance hempty, List.exists_mem_cons_iff, ← ih, Row.ExcludesZero,
          ← Bool.or_eq_true, and_iff_right hempty]
        split
        · next hviolated => simp [hviolated]
        · next hviolated => simp [hviolated]
    · have hother (t : Extended) : ¬r.ExcludesZero t := fun h => hempty h.1
      simp only [violatedEmptyRow?_pass tolerance hempty, List.exists_mem_cons_iff, hother, false_or]
      exact ih

/-! ### Logs that nobody reads -/

theorem log_quiet {s : Session R} (hlog : s.engine.hooks.log = none) (hfile : s.engine.logFile = .nothing)
    (text : String) :
    ∃ t, log text s = .ok ⟨⟩ t ∧ t.engine = s.engine ∧ t.host.requests = s.host.requests := by
  let t : Session R := { s with host := { s.host with journal := s.host.journal ++ [(.debug, text)] } }
  have hrecord : outside (Host.record .debug text) s = .ok ⟨⟩ t := rfl
  have htell : tell (.log text) t = .ok ⟨⟩ t := by
    unfold tell
    rw [Action.get_bind_run, show t.engine.hooks.observer? (.log text t.host.phase) = none from hlog]
    rfl
  have hwrite : writeLog text t = .ok ⟨⟩ t := by
    unfold writeLog
    rw [Action.get_bind_run, show t.engine.logFile = .nothing from hfile]
    rfl
  refine ⟨t, ?_, rfl, rfl⟩
  unfold log
  rw [Action.bind_ok hrecord, Action.bind_ok htell]
  exact hwrite

/-! ### Solving -/

/-- A row without entries that excludes zero is all that a solve looks at. -/
theorem solve_violated {e : Engine R} (he : e.Sound) (host : Host R) {r : Row R}
    (h : violatedEmptyRow? (e.settings.get .epsint) e.rows = .ok (some r)) :
    ∃ t, solve ⟨e, host⟩ = .ok .infeasible t ∧ t.host.requests = host.requests := by
  obtain ⟨u, hlog, hengine, hrequests⟩ :=
    log_quiet (s := (Session.mk e host).begun) he.log he.logFile ("Empty row " ++ r.name ++ " excludes zero activity")
  have hrun : run (Session.mk e host).begun = .ok .infeasible u := by
    have hviolated : violatedEmptyRow? ((Session.mk e host).begun.engine.settings.get .epsint)
      (Session.mk e host).begun.engine.rows = .ok (some r) := h
    unfold run
    rw [Action.get_bind_run, hviolated, Action.lift_ok_bind_run]
    exact Action.bind_ok hlog _
  -- after the run come the verdict, the time and the last line of the log
  let kept : Session R :=
    { u with engine := { u.engine with results := { u.engine.results with verdict := .infeasible } } }
  have hkeep : runAndKeep (Session.mk e host).begun = .ok ⟨⟩ kept := Action.bind_ok hrun _
  let timed : Session R :=
    { kept with engine := { kept.engine with results :=
      { kept.engine.results with elapsed := kept.host.clock - host.clock } } }
  have hfinish : Action.finish runAndKeep (fun s : Session R =>
      { s with engine := { s.engine with results := { s.engine.results with elapsed := s.host.clock - host.clock } } })
      (Session.mk e host).begun = .ok ⟨⟩ timed := Action.finish_eq_ok.2 ⟨kept, hkeep, rfl⟩
  have hquiet : timed.engine.hooks.log = none ∧ timed.engine.logFile = .nothing := by
    simp only [timed, kept, hengine]
    exact ⟨he.log, he.logFile⟩
  obtain ⟨w, hlast, hw, hsame⟩ := log_quiet hquiet.1 hquiet.2 ("Solve finished with status "
    ++ Enumeration.label timed.engine.results.verdict ++ " in "
    ++ Scalar.fixedText 3 timed.engine.results.elapsed ++ "s")
  refine ⟨w, ?_, hsame.trans hrequests⟩
  unfold solve
  rw [Action.get_bind_run]
  simp only [he.defects, Defects.none]
  rw [Action.modify_bind_run, Action.get_bind_run]
  refine (Action.bind_ok hfinish _).trans ?_
  rw [Action.get_bind_run]
  exact Action.bind_ok hlast _

end

/-- What a built engine hands over is its program, also in every request of a solve, and a solve finds it infeasible
without a request exactly when a row without entries excludes zero. -/
theorem program_faithful {e : Engine Extended} (he : Built e) (hlimits : ∀ r ∈ e.rows, r.Limited)
    (hfinite : ∀ r ∈ e.rows, ∀ t ∈ r.entries, Scalar.isFinite t.2 = true) (host : Host Extended) :
    (∃ t search, load ⟨e, host⟩ = .ok ⟨⟩ t ∧ t.engine.search = some search ∧ Presents e search.program) ∧
      (∀ v t, solve ⟨e, host⟩ = .ok v t →
        ∃ more, t.host.requests = host.requests ++ more ∧ ∀ q ∈ more, Presents e q.search.program) ∧
      ((∃ t, solve ⟨e, host⟩ = .ok .infeasible t ∧ t.host.requests = host.requests) ↔
        ∃ t, (e.settings.get .epsint).comparable = .ok t ∧ ∃ r ∈ e.rows, r.ExcludesZero t) := by
  have hsound := he.sound
  have hpresents := program_presents hsound hlimits hfinite
  have hloaded : (Session.mk e host).begun.loadedCore.handed = some e.program := by
    rw [Session.loadedCore, show (Session.mk e host).begun.engine.loaded = false from hsound.unloaded]
    rfl
  rw [← violatedEmptyRow?_eq_some]
  refine ⟨?_, ?_, ?_, fun h => solve_violated hsound host h.choose_spec⟩
  · obtain ⟨t, hload, hcore⟩ := load_ok ⟨e, host⟩
    have hhanded : t.engine.search.map Search.Model.program = some e.program := by
      have hprogram := congrArg Core.handed hcore
      rwa [show (Session.mk e host).engine.loaded = false from hsound.unloaded] at hprogram
    obtain ⟨search, hsearch, hprogram⟩ := Option.map_eq_some_iff.1 hhanded
    exact ⟨t, search, hload, hsearch, hprogram ▸ hpresents⟩
  · intro v t hsolve
    rcases solve_ok hsolve with ⟨r, -, -, hplain⟩ | ⟨-, used, rest, more, -, hplain, hmore, -⟩
    · have hrequests : t.host.requests = host.requests := congrArg Core.requests hplain
      exact ⟨[], by rw [hrequests, List.append_nil], by simp⟩
    · refine ⟨more, congrArg Core.requests hplain, fun q hq => ?_⟩
      rw [Option.some.inj ((hmore q hq).trans hloaded)]
      exact hpresents
  · rintro ⟨t, hsolve, hrequests⟩
    rcases solve_ok hsolve with ⟨r, hr, -, -⟩ | ⟨-, used, rest, more, -, hplain, -, hnil⟩
    · exact ⟨r, hr⟩
    · have hnone : more = [] := by
        have hall : t.host.requests = host.requests ++ more := congrArg Core.requests hplain
        simpa [hrequests] using hall
      -- a search that made no request was out of time, and that is another verdict
      rcases hnil hnone with hunhanded | hverdict
      · rw [hloaded] at hunhanded
        cases hunhanded
      · exact absurd rfl hverdict

/-- Calls that make rows of all kinds: between two limits, at least, equal, free, and one without entries that asks for
at least one. -/
def rangedCalls : List (Call Extended) := [
  .setBounds 1 (.integer (-3)) (.integer 5), .setInteger 2 (.flag true),
  .addRow [.integer 2, .integer 1] [1, 2] (.ofMember Relation.atMost) (.integer 7), .setRange 1 (.integer 4),
  .addRow [.integer 1] [2] (.ofMember Relation.atLeast) (.integer 1),
  .addRow [.integer 1, .integer 3] [2, 1] (.ofMember Relation.equal) (.integer 6),
  .addRow [.integer 1] [1] (.ofMember Relation.free) (.integer 0),
  .addRow [.integer 0] [1] (.ofMember Relation.atLeast) (.integer 1),
  .setObjective [.integer 1, .integer 1] [1, 2], .addSet "" (.integer 1) (.integer 1) [1, 2] [.integer 1, .integer 2]]

/-- The engine that the calls leave. -/
def ranged : Engine Extended :=
  (new 2 .none ⟨1, .empty, .start, none⟩).performed rangedCalls

theorem program_faithful_ranged :
    Built ranged ∧ (∀ r ∈ ranged.rows, r.Limited) ∧
      (∀ r ∈ ranged.rows, ∀ t ∈ r.entries, Scalar.isFinite t.2 = true) ∧
      (∃ t search, load ⟨ranged, .start (.script []) Exact.ranging⟩ = .ok ⟨⟩ t ∧ t.engine.search = some search ∧
        Presents ranged search.program) ∧
      ∃ t, solve ⟨ranged, .start (.script []) Exact.ranging⟩ = .ok .infeasible t ∧ t.host.requests = [] := by
  have hbuilt : Built ranged := .performed (.new 2 _) (by simp [rangedCalls, Call.Even])
  have hlimits : ∀ r ∈ ranged.rows, r.Limited := by decide +kernel
  have hfinite : ∀ r ∈ ranged.rows, ∀ t ∈ r.entries, Scalar.isFinite t.2 = true := by decide +kernel
  have htolerance : (ranged.settings.get .epsint).comparable = .ok (Scalar.decimal 1 (-7)) := by decide +kernel
  have hviolated : ∃ r ∈ ranged.rows, r.ExcludesZero (Scalar.decimal 1 (-7)) := by decide +kernel
  obtain ⟨hload, -, hsolve⟩ := program_faithful hbuilt hlimits hfinite (.start (.script []) Exact.ranging)
  exact ⟨hbuilt, hlimits, hfinite, hload, hsolve.2 ⟨_, htolerance, hviolated⟩⟩

example : (ranged.program.columns.map fun c => (c.lower, c.upper)) =
      [(.rat (-3), .rat 5), (.rat 0, .posInf), (.rat 0, .rat 4)] ∧
    (ranged.program.rows.map fun r => (r.sense, r.rhs, r.terms.map Prod.fst)) =
      [(.equal, .rat 7, [1, 2, 3]), (.atLeast, .rat 1, [2]), (.equal, .rat 6, [2, 1])] := by
  decide +kernel

end Optima.Engine
