import Optima.Proofs.Engine.Knobs
import Optima.Proofs.Engine.Slices
import Optima.Proofs.Host.Folder
import Optima.Proofs.SideBySide

/-!
# Two sessions side by side

Two sessions are twins when they show the same face: the same program, settings, observers and results, and the same
outcomes and ranging passes to come.  What an engine has been through may differ, that is the search it has, the phase
of the solver, what is in the files, and everything that has been noted; and one clock may run behind the other.

All the work of a solve looks at the face only, at the time that has passed, and at whether a line can be added to the
log file.  So begun in twins it ends in twins, and with the same answer or the same fault.
-/

namespace Optima.Engine

variable {R : Type} [Scalar R]

open Search (Outcome Request)

open Optima.Action (Alike Keeps Respects)

/-! ### Clocks -/

/-- A clock that is set differently, but goes as fast. -/
structure Shift (later : R → R) : Prop where
  add : ∀ c x : R, later (c + x) = later c + x
  sub : ∀ c d : R, later c - later d = c - d
  infinity : later Scalar.infinity = Scalar.infinity

/-- Without rounding, one clock may be ahead of the other by any time. -/
theorem shift_rat (q : Rat) : Shift fun c : Extended => c + .rat q := by
  refine ⟨fun c x => ?_, fun c d => ?_, rfl⟩
  · show (c.add x).add (.rat q) = (c.add (.rat q)).add x
    cases c with
    | rat a =>
      cases x with
      | rat b =>
        have hsum : a + b + q = a + q + b := by grind
        exact congrArg Extended.rat hsum
      | _ => rfl
    | _ => cases x <;> rfl
  · show (c.add (.rat q)).add (d.add (.rat q)).neg = c.add d.neg
    cases c with
    | rat a =>
      cases d with
      | rat b =>
        have hdifference : a + q + -(b + q) = a + -b := by grind
        exact congrArg Extended.rat hdifference
      | _ => rfl
    | _ => cases d <;> rfl

/-! ### Twins -/

/-- What work in a session looks at, but for the search, the time and the files. -/
def Session.face (s : Session R) : Session R where
  engine := { s.engine with search := none, loaded := false, rowMode := false, exporter := none }
  host := .start s.host.source s.host.ranging

/-- Two calls for the same program, for the same time and the same number of points. -/
structure SameCall (r r' : Request R) : Prop where
  program : r'.search.program = r.search.program
  budget : r'.budget = r.budget
  pointLimit : r'.pointLimit = r.pointLimit

/-- How two sessions are compared. -/
structure Footing (R : Type) where
  /-- What the clock of the second session shows when that of the first one shows this. -/
  later : R → R
  /-- Whether their searches hold the same program. -/
  held : Prop
  /-- The calls that had been made before, in the first session and in the second. -/
  calls : List (Request R)
  calls' : List (Request R)

/-- Two sessions that work cannot tell apart. -/
structure Twins (c : Footing R) (s t : Session R) : Prop where
  face : t.face = s.face
  clock : t.host.clock = c.later s.host.clock
  log : ∀ path, s.engine.logFile = .text path → t.host.folder.refusal? path = s.host.folder.refusal? path
  handed : c.held → t.core.handed = s.core.handed
  calls : ∃ more more', s.host.requests = c.calls ++ more ∧ t.host.requests = c.calls' ++ more' ∧
    List.Forall₂ SameCall more more'

variable {c : Footing R}

theorem respects_get {β : Type} {f : Session R → Work R β} (hface : ∀ s, f s.face = f s)
    (h : ∀ s, Respects (Twins c) (f s)) : Respects (Twins c) (get >>= f) := by
  refine .get_bind (fun s t hst => ?_) h
  rw [← hface t, hst.face, hface]

/-- Twins look the same to whoever looks at the face. -/
theorem Twins.reads {α : Type} {s t : Session R} (h : Twins c s t) (f : Session R → α) :
    f t.face = f s.face :=
  congrArg f h.face

/-- What a session has beside its face. -/
def Session.rest (s : Session R) : R × Folder × Option (Search.Program R) × List (Request R) × Value R :=
  (s.host.clock, s.host.folder, s.core.handed, s.host.requests, s.engine.logFile)

theorem Twins.congr {s s' t t' : Session R} (h : Twins c s t) (hface : t'.face = s'.face) (hs : s'.rest = s.rest)
    (ht : t'.rest = t.rest) : Twins c s' t' := by
  simp only [Session.rest, Prod.mk.injEq] at hs ht
  obtain ⟨hsclock, hsfolder, hshanded, hsrequests, hslog⟩ := hs
  obtain ⟨htclock, htfolder, hthanded, htrequests, htlog⟩ := ht
  refine ⟨hface, ?_, ?_, ?_, ?_⟩
  · rw [htclock, hsclock, h.clock]
  · rw [htfolder, hsfolder, hslog]
    exact h.log
  · rw [hthanded, hshanded]
    exact h.handed
  · rw [htrequests, hsrequests]
    exact h.calls

/-- A change that shows on the face as far as it is made there. -/
theorem respects_modify {f : Session R → Session R} (hface : ∀ s, (f s.face).face = (f s).face)
    (hrest : ∀ s, (f s).rest = s.rest) : Respects (Twins c) (modify f) := by
  refine .modify fun s t h => h.congr ?_ (hrest s) (hrest t)
  rw [← hface t, h.face, hface]

omit [Scalar R] in
private theorem changeFiles_ok {change : Folder → Except FileFault Folder} {s : Session R} {f : Folder}
    (h : change s.host.folder = .ok f) :
    outside (Host.changeFiles change) s = .ok ⟨⟩ { s with host := { s.host with folder := f } } := by
  simp only [outside, Action.on, Host.changeFiles, Action.get_bind_run, h, Action.modify_run]

omit [Scalar R] in
private theorem changeFiles_error {change : Folder → Except FileFault Folder} {s : Session R} {fault : FileFault}
    (h : change s.host.folder = .error fault) : outside (Host.changeFiles change) s = .error (.file fault) s := by
  simp only [outside, Action.on, Host.changeFiles, Action.get_bind_run, h]
  rfl

/-- Either a line is added to the log file of both, or to neither for the same reason. -/
theorem Twins.append {s t : Session R} (h : Twins c s t) {path : String} (hlog : s.engine.logFile = .text path)
    (text : String) : Alike (Twins c) (outside (Host.changeFiles fun f => f.append path text) s)
      (outside (Host.changeFiles fun f => f.append path text) t) := by
  have hsame := h.log path hlog
  rcases s.host.folder.append_cases path text with ⟨hs, f, happend, hf⟩ | ⟨fault, hs, hrefused⟩
  · rcases t.host.folder.append_cases path text with ⟨-, g, happend', hg⟩ | ⟨fault, ht, -⟩
    · rw [changeFiles_ok happend, changeFiles_ok happend']
      refine .ok _ ⟨h.face, h.clock, fun path' hpath => ?_, h.handed, h.calls⟩
      obtain rfl : path = path' := by simpa using hlog.symm.trans hpath
      exact hg.trans hf.symm
    · rw [hs, ht] at hsame
      cases hsame
  · rcases t.host.folder.append_cases path text with ⟨ht, -⟩ | ⟨fault', ht, hrefused'⟩
    · rw [hs, ht] at hsame
      cases hsame
    · rw [hs, ht] at hsame
      obtain rfl : fault' = fault := Option.some.inj hsame
      rw [changeFiles_error hrefused, changeFiles_error hrefused']
      exact .error _ h

theorem Twins.spent {s t : Session R} (h : Twins c s t) (hshift : Shift c.later) (o : Outcome R) :
    Twins c (s.spent o) (t.spent o) := by
  refine ⟨?_, ?_, h.log, h.handed, h.calls⟩
  · exact h.reads fun u => ({ u with host := { u.host with source := u.host.source.next } } : Session R).face
  · show t.host.clock + o.seconds = c.later (s.host.clock + o.seconds)
    rw [hshift.add, h.clock]

theorem Twins.calling {s t : Session R} (h : Twins c s t) {r r' : Request R} (hsame : SameCall r r') :
    Twins c (s.calling r) (t.calling r') := by
  obtain ⟨more, more', hmore, hmore', hcalls⟩ := h.calls
  refine ⟨h.face, h.clock, h.log, h.handed, more ++ [r], more' ++ [r'], ?_, ?_, ?_⟩
  · rw [← List.append_assoc, ← hmore]
    rfl
  · rw [← List.append_assoc, ← hmore']
    rfl
  · exact List.rel_append hcalls (.cons hsame .nil)

/-! ### Observers and the log -/

theorem respects_record (level : Level) (text : String) :
    Respects (Twins c) (outside (Host.record level text) : Work R Unit) :=
  respects_modify (fun _ => rfl) fun _ => rfl

theorem respects_notify (event : Option Phase → Event R) : Respects (Twins c) (outside (Host.notify event)) :=
  respects_modify (fun _ => rfl) fun _ => rfl

/-- The phase of the solver may differ, but who is told of an event does not depend on it. -/
theorem respects_tell {event : Option Phase → Event R} (hturn : ∀ p q, passTurn (event p) = passTurn (event q))
    (hobserver : ∀ (h : Hooks R) p q, h.observer? (event p) = h.observer? (event q)) :
    Respects (Twins c) (tell event) := by
  refine .get_bind (fun s t hst => ?_) fun s => ?_
  · have hooks : t.engine.hooks = s.engine.hooks := hst.reads fun u => u.engine.hooks
    rw [hooks, hobserver _ t.host.phase s.host.phase, hturn t.host.phase s.host.phase]
  · have hpass (e : Event R) : Respects (Twins c) (inside (passTurn e)) :=
      respects_modify (fun _ => rfl) fun _ => rfl
    split
    · exact .pure _
    · refine (hpass _).bind fun _ => (respects_notify event).bind fun _ => ?_
      split
      · exact .pure _
      · exact .throw _

/-- Whether a line can be added to the log file does not depend on what is in it. -/
theorem respects_writeLog (text : String) : Respects (Twins c) (writeLog text : Work R Unit) := by
  intro s t h
  have hfile : t.engine.logFile = s.engine.logFile := h.reads fun u => u.engine.logFile
  unfold writeLog
  rw [Action.get_bind_run, Action.get_bind_run, hfile]
  cases hlog : s.engine.logFile with
  | text path =>
    simp only
    split
    · exact .ok _ h
    · exact h.append hlog (text ++ "\n")
  | _ =>
    simp only
    split
    · exact .error _ h
    · exact .ok _ h

theorem respects_log (text : String) : Respects (Twins c) (log text : Work R Unit) :=
  (respects_record .debug text).bind fun _ => (respects_tell (fun _ _ => rfl) fun _ _ _ => rfl).bind fun _ =>
    respects_writeLog text

theorem respects_send (m : Message) : Respects (Twins c) (send m : Work R Unit) := by
  refine respects_get (fun _ => rfl) fun s => ?_
  split
  · exact (respects_tell (fun _ _ => rfl) fun _ _ _ => rfl).bind fun _ =>
      respects_tell (fun _ _ => rfl) fun _ _ _ => rfl
  · exact .pure _

theorem respects_abortRequested : Respects (Twins c) (abortRequested : Work R Bool) := by
  refine respects_get (fun _ => rfl) fun s => ?_
  split
  · exact .pure _
  · have hpoller (poller : Option (Poller R)) : Respects (Twins c) (inside (setPoller poller)) :=
      respects_modify (fun _ => rfl) fun _ => rfl
    refine (hpoller _).bind fun _ => ?_
    split
    · exact .pure _
    · exact (respects_notify _).bind fun _ => .throw _
    · have hmark : Respects (Twins c) (outside Host.markAborting : Work R Unit) :=
        respects_modify (fun _ => rfl) fun _ => rfl
      refine (respects_notify _).bind fun _ => ?_
      simp only
      split
      · exact hmark.bind fun _ => .pure _
      · exact .pure _

/-! ### Outcomes -/

theorem respects_updateResults (f : Results R → Results R) : Respects (Twins c) (updateResults f) :=
  respects_modify (fun _ => rfl) fun _ => rfl

theorem respects_capture (point : List R) : Respects (Twins c) (capture point) := by
  refine respects_get (fun _ => rfl) fun s => ?_
  have hkeep (e : Engine R) : Respects (Twins c) (if e.improves (activity e.objective point).value then do
      updateResults fun r => { r with
        incumbent := some point, objective := activity e.objective point, pointCount := r.pointCount + 1 }
      send (if e.isMixed then .milpBetter else .lpOptimal)
      else pure () : Work R Unit) := by
    split
    · exact (respects_updateResults _).bind fun _ => respects_send _
    · exact .pure _
  simp only
  split
  · exact (respects_send _).bind fun _ => hkeep s.engine
  · exact hkeep s.engine

theorem respects_noteBound (bound : Option R) : Respects (Twins c) (noteBound bound) := by
  unfold noteBound
  split
  · exact respects_updateResults _
  · exact .pure _

/-- Whether a search reports a point, a failure or neither, twins learn the same of it. -/
theorem respects_takeOutcome (hshift : Shift c.later) (o : Outcome R) : Respects (Twins c) (takeOutcome o) := by
  have hspent : Respects (Twins c) (outside (modify fun h : Host R =>
      { h with clock := h.clock + o.seconds, source := h.source.next }) : Work R Unit) :=
    .modify fun s t h => h.spent hshift o
  unfold takeOutcome
  refine hspent.bind fun _ => ?_
  split
  · exact .throw _
  · split
    · refine respects_get (fun _ => rfl) fun s => ?_
      split
      · exact (respects_capture _).bind fun _ => respects_noteBound _
      · exact respects_noteBound _
    · exact respects_noteBound _

/-! ### Slices -/

/-- A plan that was made later. -/
def Plan.shifted (plan : Plan R) (later : R → R) : Plan R :=
  { plan with deadline := later plan.deadline }

theorem plan_shifted (hshift : Shift c.later) {s t : Session R} (h : Twins c s t) :
    t.engine.plan t.host.clock = (s.engine.plan s.host.clock).map fun plan => plan.shifted c.later := by
  have hface : t.engine.plan t.host.clock = s.engine.plan t.host.clock :=
    h.reads fun u => u.engine.plan t.host.clock
  have hdeadline (v : Value R) :
      deadline (c.later s.host.clock) v = (deadline s.host.clock v).map c.later := by
    unfold deadline
    split
    · cases hreal : v.comparable with
      | error fault => rfl
      | ok x =>
        simp only [bind, Except.bind]
        split
        · cases v.toReal with
          | error fault => rfl
          | ok y => exact congrArg Except.ok (hshift.add _ _).symm
        · exact congrArg Except.ok hshift.infinity.symm
    · exact congrArg Except.ok hshift.infinity.symm
  rw [hface, h.clock, Engine.plan, Engine.plan, hdeadline]
  cases deadline s.host.clock (s.engine.settings.get .timeout) <;> rfl

/-- Twins make the same call, if their searches hold the same program. -/
theorem respects_request (hheld : c.held) (budget : R) (pointLimit : Nat) :
    Respects (Twins c) (request budget pointLimit : Work R Unit) := by
  intro s t h
  have hhanded : t.engine.search.map Search.Model.program = s.engine.search.map Search.Model.program := h.handed hheld
  unfold request
  rw [Action.get_bind_run, Action.get_bind_run]
  cases hs : s.engine.search with
  | none =>
    rw [hs, Option.map_none, Option.map_eq_none_iff] at hhanded
    rw [hhanded]
    exact .ok _ h
  | some search =>
    rw [hs, Option.map_some, Option.map_eq_some_iff] at hhanded
    obtain ⟨search', ht, hprogram⟩ := hhanded
    rw [ht]
    have hsame : SameCall ⟨search, budget, pointLimit⟩ ⟨search', budget, pointLimit⟩ := ⟨hprogram, rfl, rfl⟩
    exact .ok _ (h.calling hsame)

theorem alike_beginSlice (hshift : Shift c.later) (hheld : c.held) (plan : Plan R) (slice : R) {s t : Session R}
    (h : Twins c s t) : Alike (Twins c) (beginSlice plan slice s) (beginSlice (plan.shifted c.later) slice t) := by
  have hremaining : c.later plan.deadline - t.host.clock = plan.deadline - s.host.clock := by rw [h.clock, hshift.sub]
  have hexpired : t.engine.expired = s.engine.expired := h.reads fun u => u.engine.expired
  unfold beginSlice
  rw [Action.get_bind_run, Action.get_bind_run]
  simp only [Plan.shifted, hremaining, hexpired]
  split
  · exact .ok _ h
  · exact (respects_request hheld _ _ s t h).bind fun _ => Respects.pure _

/-- A search that holds the same program after an update takes the place of the one before. -/
theorem updateSearch_rest {f : Search.Model R → Search.Model R} (hf : ∀ search, (f search).program = search.program)
    (s : Session R) : ∃ t, updateSearch f s = .ok ⟨⟩ t ∧ t.face = s.face ∧ t.rest = s.rest := by
  unfold updateSearch
  rw [Action.get_bind_run]
  cases hsearch : s.engine.search with
  | none => exact ⟨s, rfl, rfl, rfl⟩
  | some search =>
    obtain ⟨latest, hrun⟩ := useSearch_run (f search) s
    refine ⟨_, hrun, rfl, ?_⟩
    simp [Session.rest, Session.core, hsearch, hf]

theorem respects_updateSearch {f : Search.Model R → Search.Model R}
    (hf : ∀ search, (f search).program = search.program) : Respects (Twins c) (updateSearch f) := by
  intro s t h
  obtain ⟨u, hs, huface, hurest⟩ := updateSearch_rest hf s
  obtain ⟨v, ht, hvface, hvrest⟩ := updateSearch_rest hf t
  rw [hs, ht]
  exact .ok _ (h.congr (by rw [hvface, huface, h.face]) hurest hvrest)

theorem respects_restart : Respects (Twins c) (restart : Work R Unit) := by
  refine respects_get (fun _ => rfl) fun s => ?_
  split
  · exact .pure _
  · exact respects_updateSearch fun _ => rfl

theorem alike_slices (hshift : Shift c.later) (hheld : c.held) (plan : Plan R) (slice : R) (outs : List (Outcome R))
    {s t : Session R} (h : Twins c s t) :
    Alike (Twins c) (slices plan slice outs s) (slices (plan.shifted c.later) slice outs t) := by
  induction outs generalizing slice s t with
  | nil =>
    refine (alike_beginSlice hshift hheld plan slice h).bind fun verdict u v huv => ?_
    split
    · exact .ok _ huv
    · exact .error _ huv
  | cons o outs ih =>
    refine (alike_beginSlice hshift hheld plan slice h).bind fun verdict u v huv => ?_
    split
    · exact .ok _ huv
    · refine (respects_takeOutcome hshift o u v huv).bind fun _ u v huv => ?_
      cases hend : !plan.sliced || !o.status.interrupted || plan.firstOnly with
      | true =>
        simp only [Plan.shifted, hend, ↓reduceIte]
        exact .ok _ huv
      | false =>
        simp only [Plan.shifted, hend, Bool.false_eq_true, ↓reduceIte]
        refine (respects_abortRequested u v huv).bind fun abort u v huv => ?_
        split
        · exact .ok _ huv
        · exact (respects_restart u v huv).bind fun _ u v huv => ih _ huv

theorem respects_optimize (hshift : Shift c.later) (hheld : c.held) :
    Respects (Twins c) (optimize : Work R Verdict) := by
  intro s t h
  have hsource : t.host.source = s.host.source := h.reads fun u => u.host.source
  have hhanded : t.engine.search.map Search.Model.program = s.engine.search.map Search.Model.program := h.handed hheld
  unfold optimize
  rw [Action.get_bind_run, Action.get_bind_run, plan_shifted hshift h, hsource, hhanded]
  cases s.engine.plan s.host.clock with
  | error fault => exact .error _ h
  | ok plan => exact alike_slices hshift hheld plan _ _ h

theorem respects_storeSolution : Respects (Twins c) (storeSolution : Work R Unit) := by
  refine respects_get (fun _ => rfl) fun s => ?_
  simp only
  split
  · exact .pure _
  · exact respects_updateResults _

theorem respects_handOver (calls : List (Ranging.Call R)) : Respects (Twins c) (handOver calls) :=
  respects_modify (fun _ => rfl) fun _ => rfl

theorem respects_takeAnswer (e : Engine R) (answer : Ranging.Answer R) : Respects (Twins c) (e.takeAnswer answer) := by
  unfold takeAnswer
  split
  · exact .throw _
  · split
    · exact (respects_updateResults _).bind fun _ => respects_log _
    · exact respects_record _ _

theorem respects_rangeSolution : Respects (Twins c) (rangeSolution : Work R Unit) := by
  refine respects_get (fun _ => rfl) fun s => (respects_handOver _).bind fun _ => ?_
  simp only
  split
  · exact .throw _
  · exact (respects_handOver _).bind fun _ => respects_get (fun _ => rfl) fun u => respects_takeAnswer _ _

theorem respects_tune (f : Search.Knobs R → Search.Knobs R) : Respects (Twins c) (tune f : Work R Unit) :=
  respects_updateSearch fun _ => rfl

theorem respects_configure : Respects (Twins c) (configure : Work R Unit) := by
  refine respects_get (fun _ => rfl) fun s => (Respects.lift _).bind fun _ => (respects_tune _).bind fun _ =>
    (Respects.lift _).bind fun _ => (respects_tune _).bind fun _ => (Respects.lift _).bind fun isOpen => ?_
  have hunused (e : Engine R) : Respects (Twins c) (Setting.unused.forM fun setting => do
      let v := e.settings.get setting
      if !v.same setting.start then
        outside (Host.record .debug
          ("Setting " ++ setting.name ++ "=" ++ v.written ++ " is kept but not applied by CBC")) : Work R Unit) := by
    refine .forM fun setting _ => ?_
    simp only
    split
    · exact respects_record _ _
    · exact .pure _
  simp only
  split
  · exact (respects_tune _).bind fun _ => hunused s.engine
  · exact hunused s.engine

/-! ### Whole solves -/

/-- Whatever their searches held, twins hand over the same program. -/
theorem alike_load {s t : Session R} (h : Twins c s t) (hhanded : t.loadedCore.handed = s.loadedCore.handed) :
    Alike (Twins { c with held := True }) (load s) (load t) := by
  obtain ⟨search, n, latest, hs, hsearch, -, -⟩ := load_run s
  obtain ⟨search', n', latest', ht, hsearch', -, -⟩ := load_run t
  rw [hs, ht]
  refine .ok _ ⟨h.face, h.clock, h.log, fun _ => ?_, h.calls⟩
  exact hsearch'.trans (hhanded.trans hsearch.symm)

theorem Twins.let_go {s t : Session R} (h : Twins { c with held := True } s t) : Twins c s t :=
  ⟨h.face, h.clock, h.log, fun _ => h.handed trivial, h.calls⟩

theorem alike_searchProgram (hshift : Shift c.later) {s t : Session R} (h : Twins c s t)
    (hhanded : t.loadedCore.handed = s.loadedCore.handed) :
    Alike (Twins c) (searchProgram s) (searchProgram t) := by
  have hshift' : Shift ({ c with held := True } : Footing R).later := hshift
  refine Alike.mono ?_ fun _ _ => Twins.let_go
  refine (alike_load h hhanded).bind fun _ => ?_
  refine respects_configure.bind fun _ => respects_get (fun _ => rfl) fun s => (respects_log _).bind fun _ =>
    respects_abortRequested.bind fun abort => ?_
  split
  · exact .pure _
  · refine (respects_send _).bind fun _ => (respects_optimize hshift' trivial).bind fun verdict =>
      respects_storeSolution.bind fun _ => respects_get (fun _ => rfl) fun u => ?_
    split
    · exact respects_rangeSolution.bind fun _ => .pure _
    · exact .pure _

theorem alike_run (hshift : Shift c.later) {s t : Session R} (h : Twins c s t)
    (hhanded : t.loadedCore.handed = s.loadedCore.handed) : Alike (Twins c) (run s) (run t) := by
  have hviolated : violatedEmptyRow? (t.engine.settings.get .epsint) t.engine.rows =
      violatedEmptyRow? (s.engine.settings.get .epsint) s.engine.rows :=
    h.reads fun u => violatedEmptyRow? (u.engine.settings.get .epsint) u.engine.rows
  unfold run
  rw [Action.get_bind_run, Action.get_bind_run, hviolated]
  cases violatedEmptyRow? (s.engine.settings.get .epsint) s.engine.rows with
  | error fault => exact .error _ h
  | ok violated =>
    cases violated with
    | none => exact alike_searchProgram hshift h hhanded
    | some r => exact ((respects_log _).bind fun _ => .pure _) s t h

/-- The verdict and the time are kept alike. -/
theorem Twins.ended (hshift : Shift c.later) {u v : Session R} (h : Twins c u v) (verdict : Verdict) (start : R) :
    Twins c (u.ended verdict (u.host.clock - start)) (v.ended verdict (v.host.clock - c.later start)) := by
  have helapsed : v.host.clock - c.later start = u.host.clock - start := by rw [h.clock, hshift.sub]
  rw [helapsed]
  refine h.congr ?_ rfl rfl
  exact h.reads fun w => (w.ended verdict (u.host.clock - start)).face

/-- Begun in sessions that are twins once the results are put aside, a solve ends alike. -/
theorem alike_solve (hshift : Shift c.later) {s t : Session R} (h : Twins c s.begun t.begun)
    (hhanded : t.begun.loadedCore.handed = s.begun.loadedCore.handed) (hdefects : s.engine.defects.solve = none) :
    Alike (Twins c) (solve s) (solve t) := by
  have hdefects' : t.engine.defects.solve = none :=
    (h.reads fun u => u.engine.defects.solve).trans hdefects
  have hclock : t.host.clock = c.later s.host.clock := h.clock
  rw [solve_eq hdefects, solve_eq hdefects']
  have hkeep : Alike (Twins c) (runAndKeep s.begun) (runAndKeep t.begun) :=
    (alike_run hshift h hhanded).bind fun _ => respects_updateResults _
  refine (hkeep.finish fun u v huv => ?_).bind fun _ => ?_
  · have hverdict : v.engine.results.verdict = u.engine.results.verdict := huv.reads fun w => w.engine.results.verdict
    rw [hclock, hverdict]
    exact huv.ended hshift _ _
  · exact respects_get (fun _ => rfl) fun w => (respects_log _).bind fun _ => .pure _

end Optima.Engine
