import Optima.Proofs.Engine.Course
import Optima.Proofs.Engine.Refusal
import Optima.Proofs.Engine.Twins

/-!
# What a solve owes to the solves before it

Take two engines that have the same program, the same settings and the same observers, and let the same outcomes be to
come.  Whatever they have been through, their next solves go alike (`solve_independent`): they end in the same way, they
leave the same results, and they make the same calls.  For the results of the last solve are thrown away, and a search
that is used again holds the program as it is.

There are two things that a search keeps from one solve to the next, and by these the calls may differ: a cutoff, which
is only written when the objective bound is finite, and the point from which the search was to start.  So the first
calls are the same in everything exactly when the points that were left are the same, and the cutoffs that were left
are the same or the bound is finite.  That they need not be shows an engine that has solved with a bound and whose
bound has been taken back (`earlier_cutoff_stays`).

The two runs are followed side by side (`alike_solve`).  What each of them tells the search is read off the course of
one solve (`solve_tunes`).
-/

namespace Optima.Engine

variable {R : Type} [Scalar R]

open Search (Outcome Request)

/-! ### Engines with any past -/

/-- An engine that has been built, and has gone through anything since: settings that were put or refused, rows that
were added or refused, solves, files that were written or read, and so on, whether or not they stopped with a fault.
Only of a call that sets both bounds of a column it is asked that it returned.  The surroundings may change in
between. -/
inductive Intact : Engine R → Prop where
  | built {e : Engine R} : Built e → Intact e
  | operated {e : Engine R} (op : Operation R) (h : Host R)
      (hbounds : ∀ col lower upper, op = .build (.setBounds col lower upper) →
        ∃ t, op.perform ⟨e, h⟩ = .ok ⟨⟩ t) : Intact e → Intact (op.perform.after ⟨e, h⟩).engine

theorem Intact.fit {e : Engine R} (h : Intact e) : e.Fit := by
  suffices hused : Used e from hused.fit
  induction h with
  | built hbuilt => exact .built hbuilt
  | operated op h _ _ ih => exact ih.operated op h

/-- Whatever an intact engine has been through, what counts as handed over is its program as it is. -/
theorem Intact.held {e : Engine R} (h : Intact e) : e.Held := by
  induction h with
  | built hbuilt =>
    intro hloaded
    simp [hbuilt.sound.unloaded] at hloaded
  | @operated e op h hbounds _ ih =>
    cases op with
    | build c =>
      show ((inside c.perform).after ⟨e, h⟩).engine.Held
      rw [after_inside]
      cases hrun : c.perform e with
      | ok a e' =>
        rw [Action.after_ok hrun]
        exact ih.call hrun
      | error fault e' =>
        -- a call that was refused has left the engine as it was
        have hother : ∀ col lower upper, c ≠ .setBounds col lower upper := by
          rintro col lower upper rfl
          obtain ⟨t, hreturned⟩ := hbounds col lower upper rfl
          have hinside : inside (Call.setBounds col lower upper).perform ⟨e, h⟩ = .ok ⟨⟩ t := hreturned
          obtain ⟨e'', hcall, -⟩ := Action.on_eq_ok.1 hinside
          cases hrun.symm.trans hcall
        rw [Action.after_error hrun, c.whole hother e e' fault hrun]
        exact ih
    | release =>
      intro hloaded
      cases hloaded
    | _ => exact steady_held.operated (fun _ => by simp) (by simp) ⟨e, h⟩ ih

/-! ### Calls -/

omit [Scalar R] in
/-- A restart changes no knob. -/
theorem restart_knobs {s t : Session R} {search : Search.Model R} (hsearch : s.engine.search = some search)
    (h : restart s = .ok ⟨⟩ t) : ∃ search', t.engine.search = some search' ∧ search'.knobs = search.knobs := by
  unfold restart at h
  rw [Action.get_bind_run] at h
  cases hpoint : s.engine.results.incumbent with
  | none =>
    rw [hpoint] at h
    cases h
    exact ⟨search, hsearch, rfl⟩
  | some point =>
    rw [hpoint] at h
    simp only at h
    unfold updateSearch at h
    rw [Action.get_bind_run, hsearch] at h
    obtain ⟨latest, huse⟩ :=
      useSearch_run { search with start := some (point.mapIdx fun i x => (i + 1, x)) } s
    cases huse.symm.trans h
    exact ⟨_, rfl, rfl⟩

/-- All calls of a search in slices have the knobs that the search had when it began. -/
theorem Slicing.knobs {plan : Plan R} {slice : R} {outs : List (Outcome R)} {s : Session R}
    {calls : List (Request R)} {res : EStateM.Result Fault (Session R) Verdict}
    (h : Slicing plan slice outs s calls res) {search : Search.Model R} (hsearch : s.engine.search = some search) :
    ∀ r ∈ calls, r.search.knobs = search.knobs := by
  have hfirst {slice : R} {s : Session R} {r : Request R} {search : Search.Model R} (hopens : Opens plan slice s r)
      (hsearch : s.engine.search = some search) : r.search.knobs = search.knobs := by
    rw [Option.some.inj (hopens.search.symm.trans hsearch)]
  induction h generalizing search with
  | expired htime => simp
  | exhausted hopens => simpa using hfirst hopens hsearch
  | broken hopens htake => simpa using hfirst hopens hsearch
  | ended hopens htake hend => simpa using hfirst hopens hsearch
  | unanswered hopens htake hend habort => simpa using hfirst hopens hsearch
  | aborted hopens htake hend habort => simpa using hfirst hopens hsearch
  | @next slice o outs s w x y r calls res hopens htake hend habort hrestart hrest ih =>
    have hx : x.engine.search = some search := by
      rw [keeps_search_abortRequested.ok habort, (keeps_search_takeOutcome o).ok htake]
      exact hsearch
    obtain ⟨search', hy, hknobs⟩ := restart_knobs hx hrestart
    refine List.forall_mem_cons.2 ⟨hfirst hopens hsearch, ?_⟩
    rw [← hknobs]
    exact ih hy

/-- The first call finds the search as it was. -/
theorem Slicing.first {plan : Plan R} {slice : R} {outs : List (Outcome R)} {s : Session R}
    {calls : List (Request R)} {res : EStateM.Result Fault (Session R) Verdict}
    (h : Slicing plan slice outs s calls res) : ∀ r, calls.head? = some r → s.engine.search = some r.search := by
  cases h with
  | expired htime => simp
  | exhausted hopens | broken hopens | ended hopens | unanswered hopens | aborted hopens | next hopens =>
    rintro r ⟨⟩
    exact hopens.search

/-- What a solve tells the search at each of its calls, and where the first one starts. -/
theorem solve_tunes {s : Session R} (hfit : s.engine.Fit) :
    (∀ r ∈ s.callsSince (solve.after s), Tuned s.engine s.engine.leftCutoff r.search.knobs) ∧
      ∀ r, (s.callsSince (solve.after s)).head? = some r → r.search.start = s.engine.leftStart := by
  rcases solve_course hfit with ⟨htally, -⟩ | ⟨plan, x, calls, res, -, hbegins, hslicing, htally, -⟩
  · have hnone : s.callsSince (solve.after s) = [] := by
      have hrequests : (solve.after s).host.requests = s.host.requests := congrArg (fun tally => tally.2.2) htally
      rw [Session.callsSince, hrequests, List.drop_length]
    simp [hnone]
  · obtain ⟨search, hsearch, htuned, hstart⟩ := hbegins.tuned
    rw [hbegins.callsSince hslicing htally]
    refine ⟨fun r hr => ?_, fun r hr => ?_⟩
    · rw [hslicing.knobs hsearch r hr]
      exact htuned.congr rfl
    · obtain rfl : search = r.search := Option.some.inj (hsearch.symm.trans (hslicing.first r hr))
      exact hstart

/-! ### Independence -/

/-- Two engines with the same program, the same settings and the same observers. -/
structure SameTask (e e' : Engine R) : Prop where
  given : e'.given = e.given
  hooks : e'.hooks = e.hooks
  wantsSensitivity : e'.wantsSensitivity = e.wantsSensitivity
  logFile : e'.logFile = e.logFile

/-- Surroundings in which the same is to come: the same outcomes and the same answers of ranging passes.  The clock may
be set differently, and a line can be added to the log file in both or in neither. -/
structure SamePlace (later : R → R) (logFile : Value R) (h h' : Host R) : Prop where
  clock : h'.clock = later h.clock
  source : h'.source = h.source
  ranging : h'.ranging = h.ranging
  log : ∀ path, logFile = .text path → h'.folder.refusal? path = h.folder.refusal? path

/-- Two solves that go alike.  They differ at most in two things that a search had been told before: the cutoff, if the
objective bound counts as infinite, and the point from which the first call starts. -/
structure SameSolve (s t : Session R) : Prop where
  /-- Both have the same verdict, or stop with the same fault. -/
  ending : Action.endOf (solve t) = Action.endOf (solve s)
  /-- The status, the solution, the objective, the bound, the number of points and the answers of the ranging pass. -/
  results : (solve.after t).engine.results = (solve.after s).engine.results
  calls : List.Forall₂ SameCall (s.callsSince (solve.after s)) (t.callsSince (solve.after t))
  knobs : ∀ r ∈ s.callsSince (solve.after s), ∀ r' ∈ t.callsSince (solve.after t),
    { r'.search.knobs with cutoff := none } = { r.search.knobs with cutoff := none } ∧
      (r'.search.knobs.cutoff = r.search.knobs.cutoff ↔
        s.engine.countsInfinite (s.engine.settings.get .objectiveBound) = .ok false ∨
          t.engine.leftCutoff = s.engine.leftCutoff)
  start : ∀ r r', (s.callsSince (solve.after s)).head? = some r → (t.callsSince (solve.after t)).head? = some r' →
    (r'.search.start = r.search.start ↔ t.engine.leftStart = s.engine.leftStart)

/-- The sessions are twins when the results are put aside. -/
theorem SameTask.twins {later : R → R} {s t : Session R} (h : SameTask s.engine t.engine)
    (hplace : SamePlace later s.engine.logFile s.host t.host) (hs : s.engine.defects = .none)
    (ht : t.engine.defects = .none) : Twins ⟨later, False, s.host.requests, t.host.requests⟩ s.begun t.begun := by
  refine ⟨?_, hplace.clock, hplace.log, False.elim, [], [], by simp [Session.begun], by simp [Session.begun], .nil⟩
  obtain ⟨hgiven, hhooks, hwants, hlog⟩ := h
  simp only [Engine.given, Prod.mk.injEq] at hgiven
  obtain ⟨hcolumns, hrows, hobjective, hmaximize, hsets, hsettings⟩ := hgiven
  simp only [Session.face, Session.begun, sentinel, hcolumns, hrows, hobjective, hmaximize, hsets, hsettings, hhooks,
    hwants, hlog, hs, ht, hplace.source, hplace.ranging]

/-- The program that the search holds after a load is the engine's. -/
theorem Intact.loaded {s : Session R} (h : Intact s.engine) :
    s.begun.loadedCore.handed = some s.engine.program := by
  show (if s.engine.loaded then s.engine.search.map Search.Model.program else some s.engine.program) = _
  split
  · next hloaded => exact h.held hloaded
  · rfl

theorem SameTask.program {e e' : Engine R} (h : SameTask e e') : e'.program = e.program := by
  have hgiven := h.given
  simp only [Engine.given, Prod.mk.injEq] at hgiven
  obtain ⟨hcolumns, hrows, hobjective, hmaximize, hsets, -⟩ := hgiven
  simp only [Engine.program, hcolumns, hrows, hobjective, hmaximize, hsets]

/-- Knobs that are set by the same settings differ at most in a cutoff that was left. -/
theorem Tuned.same {e : Engine R} {left left' : Option (Value R)} {k k' : Search.Knobs R} (h : Tuned e left k)
    (h' : Tuned e left' k') : { k' with cutoff := none } = { k with cutoff := none } ∧
      (k'.cutoff = k.cutoff ↔
        e.countsInfinite (e.settings.get .objectiveBound) = .ok false ∨ left' = left) := by
  have hverbose : k'.verbose = k.verbose := Except.ok.inj (h'.verbose.symm.trans h.verbose)
  have hmethod : k'.method = k.method := by
    obtain ⟨simplex, hsimplex, hmethod⟩ := h.method
    obtain ⟨simplex', hsimplex', hmethod'⟩ := h'.method
    obtain rfl : simplex' = simplex := Except.ok.inj (hsimplex'.symm.trans hsimplex)
    rw [hmethod, hmethod']
  obtain ⟨isOpen, hopen, hcutoff⟩ := h.cutoff
  obtain ⟨isOpen', hopen', hcutoff'⟩ := h'.cutoff
  obtain rfl : isOpen' = isOpen := Except.ok.inj (hopen'.symm.trans hopen)
  refine ⟨?_, ?_⟩
  · rw [hverbose, hmethod, h.integerTolerance, h'.integerTolerance, h.gapAbsolute, h'.gapAbsolute, h.gapRelative,
      h'.gapRelative, h.preprocess, h'.preprocess]
  · rw [hopen, hcutoff, hcutoff']
    cases isOpen' <;> simp

/-- Whatever intact engines have been through, their next solves go alike, if they have the same program, settings and
observers, and the same outcomes are to come. -/
theorem solve_independent {later : R → R} (hshift : Shift later) {s t : Session R} (hs : Intact s.engine)
    (ht : Intact t.engine) (htask : SameTask s.engine t.engine)
    (hplace : SamePlace later s.engine.logFile s.host t.host) : SameSolve s t := by
  have htwins := htask.twins hplace hs.fit.defects ht.fit.defects
  have hhanded : t.begun.loadedCore.handed = s.begun.loadedCore.handed := by
    rw [hs.loaded, ht.loaded, htask.program]
  have hdefects : s.engine.defects.solve = none := by
    rw [hs.fit.defects]
    rfl
  have halike := alike_solve hshift htwins hhanded hdefects
  have hend : Twins _ (solve.after s) (solve.after t) := halike.states
  obtain ⟨hsknobs, hsstart⟩ := solve_tunes hs.fit
  obtain ⟨htknobs, htstart⟩ := solve_tunes ht.fit
  have hsettings : t.engine.settings = s.engine.settings := congrArg (fun g => g.2.2.2.2.2) htask.given
  refine ⟨halike.ending, hend.reads fun u => u.engine.results, ?_, fun r hr r' hr' => ?_, fun r r' hr hr' => ?_⟩
  · obtain ⟨more, more', hmore, hmore', hcalls⟩ := hend.calls
    rw [Session.callsSince, Session.callsSince, hmore, hmore', List.drop_left, List.drop_left]
    exact hcalls
  · exact (hsknobs r hr).same ((htknobs r' hr').congr hsettings.symm)
  · rw [hsstart r hr, htstart r' hr']

/-! ### A cutoff that stays -/

theorem Intact.lived {ops : List (Operation R)} {s t : Session R} (h : Intact s.engine)
    (hlived : lived ops s = some t) : Intact t.engine := by
  induction ops generalizing s with
  | nil => exact Option.some.inj hlived ▸ h
  | cons op ops ih =>
    unfold Engine.lived at hlived
    cases hrun : op.perform s with
    | error fault u =>
      rw [hrun] at hlived
      cases hlived
    | ok a u =>
      rw [hrun] at hlived
      have hafter := h.operated op s.host fun _ _ _ _ => ⟨u, hrun⟩
      rw [Action.after_ok hrun] at hafter
      exact ih hafter hlived

/-- Sets the objective bound. -/
def bounding (v : Value Extended) : Operation Extended :=
  .build (.setParameter "obj_bound" v)

/-- An outcome that takes a second and shows that zero is best. -/
def zeroFound : Outcome Extended :=
  ⟨.rat 1, none, .optimal, [some (.rat 0)], none⟩

/-- The small engine after these operations. -/
def livedFrom (ops : List (Operation Extended)) (outs : List (Outcome Extended)) : Session Extended :=
  (lived ops ⟨singleEngine, offering outs⟩).getD ⟨singleEngine, offering outs⟩

/-- An objective bound has been set and taken back. -/
def freshEnd : Session Extended :=
  livedFrom [bounding (.integer 5), bounding (.real Setting.defaultInfinite)] [zeroFound]

/-- The same with a solve in between. -/
def usedEnd : Session Extended :=
  livedFrom [bounding (.integer 5), .solve, bounding (.real Setting.defaultInfinite)] [zeroFound, zeroFound]

theorem intact_livedFrom (ops : List (Operation Extended)) (outs : List (Outcome Extended)) :
    Intact (livedFrom ops outs).engine := by
  have hstart : Intact singleEngine := .built singleEngine_built
  unfold livedFrom
  cases hlived : lived ops ⟨singleEngine, offering outs⟩ with
  | none => exact hstart
  | some t => exact Intact.lived (s := ⟨singleEngine, offering outs⟩) hstart hlived

theorem sameTask_usedEnd : SameTask freshEnd.engine usedEnd.engine :=
  ⟨rfl, rfl, rfl, rfl⟩

/-- The solve in between took a second. -/
theorem samePlace_usedEnd :
    SamePlace (fun c => c + .rat 1) freshEnd.engine.logFile freshEnd.host usedEnd.host := by
  refine ⟨by decide +kernel, rfl, rfl, fun path hlog => ?_⟩
  have hnothing : freshEnd.engine.logFile = .nothing := rfl
  rw [hnothing] at hlog
  cases hlog

/-- What is the same, although only one of the two has solved before. -/
theorem solve_independent_usedEnd : Shift (fun c : Extended => c + .rat 1) ∧ Intact freshEnd.engine ∧
    Intact usedEnd.engine ∧ SameTask freshEnd.engine usedEnd.engine ∧
    SamePlace (fun c => c + .rat 1) freshEnd.engine.logFile freshEnd.host usedEnd.host ∧
    SameSolve freshEnd usedEnd :=
  ⟨shift_rat 1, intact_livedFrom _ _, intact_livedFrom _ _, sameTask_usedEnd, samePlace_usedEnd,
    solve_independent (shift_rat 1) (intact_livedFrom _ _) (intact_livedFrom _ _) sameTask_usedEnd samePlace_usedEnd⟩

/-- The first call does depend on what was solved before: the cutoff of a bound that has been taken back is still
there. -/
theorem earlier_cutoff_stays : ¬ ∀ (later : Extended → Extended) (s t : Session Extended), Shift later →
    Intact s.engine → Intact t.engine → SameTask s.engine t.engine →
    SamePlace later s.engine.logFile s.host t.host → ∀ r r', (s.callsSince (solve.after s)).head? = some r →
    (t.callsSince (solve.after t)).head? = some r' → r'.search.knobs.cutoff = r.search.knobs.cutoff := by
  intro hclaim
  have hfresh : ((freshEnd.callsSince (solve.after freshEnd)).head?.map fun r =>
      r.search.knobs.cutoff.bind Value.number?) = some none := by
    decide +kernel
  have hused : ((usedEnd.callsSince (solve.after usedEnd)).head?.map fun r =>
      r.search.knobs.cutoff.bind Value.number?) = some (some (.rat 5)) := by
    decide +kernel
  obtain ⟨r, hr, hopen⟩ := Option.map_eq_some_iff.1 hfresh
  obtain ⟨r', hr', hfive⟩ := Option.map_eq_some_iff.1 hused
  have hsame := hclaim _ _ _ (shift_rat 1) (intact_livedFrom _ _) (intact_livedFrom _ _) sameTask_usedEnd
    samePlace_usedEnd r r' hr hr'
  rw [hsame, hopen] at hfive
  cases hfive

end Optima.Engine
