import Optima.Engine.Solving
import Optima.Proofs.Action

/-!
# What work on an engine leaves alone

The stage of a session is the engine but for its search, the program that the search holds, and the surroundings but
for what no observer is told.  Knobs, lines of the log file and entries of the journal leave it alone
(`still_configure`, `still_writeLog`, …).

Lines of the log, messages and polls are told to observers, but whether or not one of these fails, they leave the scene
of the session as it is, the stage without those who are called and without what they have been told.  So each of the
short operations of an engine is quiet (`quiet_log`, `quiet_send`, `quiet_abortRequested`, …), and what a longer one
does to the scene is what its few other steps do.

The core of a session is the part of its scene that the outcome of a solve depends on: the program, the settings, the
results, the program that the search holds, and in the surroundings the clock, the outcomes to come and the requests
made so far.  What leaves the scene alone leaves the core alone (`keeps_of_quiet`).
-/

namespace Optima.Engine

variable {R : Type}

/-- A session without the search, of which only the program is there. -/
structure Scene (R : Type) where
  engine : Engine R
  /-- The program that the search holds. -/
  handed : Option (Search.Program R)
  host : Host R

/-- Surroundings in which nothing is noted that no observer is told: no files, no journal and no searches. -/
def untold (h : Host R) : Host R :=
  { h with folder := .empty, journal := [], searches := 0, latest := none }

/-- Surroundings in which nothing is noted: no files, no journal, no events, no solver and no searches. -/
def unnoted (h : Host R) : Host R :=
  { untold h with events := [], phase := none }

/-- What no knob, no journal and no file changes. -/
def Session.stage (s : Session R) : Scene R where
  engine := { s.engine with search := none }
  handed := s.engine.search.map Search.Model.program
  host := untold s.host

/-- Nobody is called. -/
def Hooks.hushed (h : Hooks R) : Hooks R :=
  { h with poller := none, log := none, message := none, progress := none }

theorem Hooks.hushed_told (h : Hooks R) (event : Event R) : (h.told event).hushed = h.hushed := by
  cases event <;> rfl

/-- A scene without those who are called and without what they have been told. -/
def Scene.hushed (c : Scene R) : Scene R :=
  { c with engine := { c.engine with hooks := c.engine.hooks.hushed }, host := unnoted c.host }

/-- What no observer and no poll changes either. -/
def Session.scene (s : Session R) : Scene R :=
  s.stage.hushed

/-- The part of a scene that the outcome of a solve depends on. -/
structure Core (R : Type) where
  columns : List (Column R)
  rows : List (Row R)
  objective : List (Nat × R)
  maximize : Bool
  sets : List (OrderedSet R)
  settings : Settings R
  results : Results R
  /-- The program that the search holds. -/
  handed : Option (Search.Program R)
  clock : R
  source : Search.Source R
  requests : List (Search.Request R)

def Session.core (s : Session R) : Core R where
  columns := s.engine.columns
  rows := s.engine.rows
  objective := s.engine.objective
  maximize := s.engine.maximize
  sets := s.engine.sets
  settings := s.engine.settings
  results := s.engine.results
  handed := s.engine.search.map Search.Model.program
  clock := s.host.clock
  source := s.host.source
  requests := s.host.requests

/-- The core as it is read off the scene. -/
def Scene.core (c : Scene R) : Core R :=
  ⟨c.engine.columns, c.engine.rows, c.engine.objective, c.engine.maximize, c.engine.sets, c.engine.settings,
    c.engine.results, c.handed, c.host.clock, c.host.source, c.host.requests⟩

theorem Session.scene_core (s : Session R) : s.scene.core = s.core := rfl

open Optima.Action (Keeps)

/-- What leaves the stage alone leaves the scene alone. -/
theorem quiet_of_still {α : Type} {act : Work R α} (h : Keeps Session.stage act) : Keeps Session.scene act :=
  h.map Scene.hushed

/-- What leaves the scene alone leaves the core alone. -/
theorem keeps_of_quiet {α : Type} {act : Work R α} (h : Keeps Session.scene act) : Keeps Session.core act :=
  h.map Scene.core

/-! ### Surroundings -/

theorem untold_record (level : Level) (text : String) : Keeps untold (Host.record level text : Action (Host R) Unit) :=
  .modify fun _ => rfl

theorem untold_changeFiles (change : Folder → Except FileFault Folder) :
    Keeps untold (Host.changeFiles change : Action (Host R) Unit) := by
  refine .get_bind fun h => ?_
  cases change h.folder <;> rfl

theorem untold_publish (search : Search.Model R) : Keeps untold (Host.publish search) := by
  refine .modify fun h => ?_
  split <;> rfl

theorem unnoted_record (level : Level) (text : String) :
    Keeps unnoted (Host.record level text : Action (Host R) Unit) :=
  (untold_record level text).map unnoted

theorem unnoted_notify (event : Option Phase → Event R) : Keeps unnoted (Host.notify event) :=
  .modify fun _ => rfl

/-- What is done to the surroundings alone changes of a session what it changes of them. -/
theorem after_outside {α : Type} (act : Action (Host R) α) (s : Session R) :
    (outside act).after s = { s with host := act.after s.host } := by
  simp only [Action.after, outside, Action.on]
  cases act s.host <;> rfl

/-- The same for what is done to the engine alone. -/
theorem after_inside {α : Type} (act : Build R α) (s : Session R) :
    (inside act).after s = { s with engine := act.after s.engine } := by
  simp only [Action.after, inside, Action.on]
  cases act s.engine <;> rfl

theorem still_outside {α : Type} {act : Action (Host R) α} (h : Keeps untold act) :
    Keeps Session.stage (outside act) := by
  intro s
  rw [after_outside, Session.stage, h s.host]
  rfl

theorem quiet_outside {α : Type} {act : Action (Host R) α} (h : Keeps unnoted act) :
    Keeps Session.scene (outside act) := by
  intro s
  have hnoted : unnoted (act.after s.host) = unnoted s.host := h s.host
  rw [after_outside]
  exact congrArg (fun host => ({ s.scene with host := host } : Scene R)) hnoted

/-! ### Operations -/

theorem still_writeLog [Scalar R] (text : String) : Keeps Session.stage (writeLog text : Work R Unit) := by
  refine .get_bind fun s => ?_
  split
  · split
    · rfl
    · exact still_outside (untold_changeFiles _) s
  · split <;> rfl

/-- Telling somebody of an event leaves alone what the note and the turn leave alone. -/
theorem keeps_tell {α : Type} {f : Session R → α} {event : Option Phase → Event R}
    (hturn : ∀ phase, Keeps f (inside (passTurn (event phase)))) (hnote : Keeps f (outside (Host.notify event))) :
    Keeps f (tell event) := by
  refine Keeps.get.bind fun s => ?_
  split
  · exact .pure _
  · refine (hturn _).bind fun _ => hnote.bind fun _ => ?_
    split
    · exact .pure _
    · exact .throw _

/-- To ask whether to abort leaves alone what the note, the turn and the change of the phase leave alone. -/
theorem keeps_asking [Scalar R] {α : Type} {f : Session R → α}
    (hturn : ∀ poller, Keeps f (inside (setPoller poller)))
    (hnote : ∀ answer, Keeps f (outside (Host.notify (.poll answer)))) (hmark : Keeps f (outside Host.markAborting)) :
    Keeps f (abortRequested : Work R Bool) := by
  refine Keeps.get.bind fun s => ?_
  split
  · exact .pure _
  · refine (hturn _).bind fun _ => ?_
    split
    · exact .pure _
    · exact (hnote _).bind fun _ => .throw _
    · refine (hnote _).bind fun _ => ?_
      simp only
      split
      · exact hmark.bind fun _ => .pure _
      · exact .pure _

theorem quiet_passTurn (event : Event R) : Keeps Session.scene (inside (passTurn event)) :=
  fun s => congrArg (fun hooks => ({ s.scene with engine := { s.scene.engine with hooks := hooks } } : Scene R))
    (s.engine.hooks.hushed_told event)

theorem quiet_tell (event : Option Phase → Event R) : Keeps Session.scene (tell event) :=
  keeps_tell (fun _ => quiet_passTurn _) (quiet_outside (unnoted_notify event))

theorem quiet_log [Scalar R] (text : String) : Keeps Session.scene (log text : Work R Unit) :=
  (quiet_outside (unnoted_record _ _)).bind fun _ => (quiet_tell _).bind fun _ => quiet_of_still (still_writeLog text)

theorem quiet_send (m : Message) : Keeps Session.scene (send m : Work R Unit) := by
  refine Keeps.get.bind fun s => ?_
  split
  · exact (quiet_tell _).bind fun _ => quiet_tell _
  · exact .pure _

theorem quiet_abortRequested [Scalar R] : Keeps Session.scene (abortRequested : Work R Bool) := by
  have hmark : Keeps unnoted (Host.markAborting : Action (Host R) Unit) := .modify fun _ => rfl
  exact keeps_asking (fun _ => fun _ => rfl) (fun _ => quiet_outside (unnoted_notify _)) (quiet_outside hmark)

theorem keeps_log [Scalar R] (text : String) : Keeps Session.core (log text : Work R Unit) :=
  keeps_of_quiet (quiet_log text)

theorem keeps_send (m : Message) : Keeps Session.core (send m : Work R Unit) :=
  keeps_of_quiet (quiet_send m)

theorem keeps_abortRequested [Scalar R] : Keeps Session.core (abortRequested : Work R Bool) :=
  keeps_of_quiet quiet_abortRequested

/-! ### The search -/

theorem useSearch_stage (search : Search.Model R) (s : Session R) :
    ((useSearch search).after s).stage = { s.stage with handed := some search.program } :=
  still_outside (untold_publish search) { s with engine := { s.engine with search := some search } }

theorem still_updateSearch {f : Search.Model R → Search.Model R} (hf : ∀ search, (f search).program = search.program) :
    Keeps Session.stage (updateSearch f) := by
  refine .get_bind fun s => ?_
  cases hsearch : s.engine.search with
  | none => rfl
  | some search =>
    refine (useSearch_stage _ s).trans ?_
    simp [Session.stage, hsearch, hf]

theorem still_tune (f : Search.Knobs R → Search.Knobs R) : Keeps Session.stage (tune f : Work R Unit) :=
  still_updateSearch fun _ => rfl

theorem still_restart : Keeps Session.stage (restart : Work R Unit) := by
  refine Keeps.get.bind fun s => ?_
  split
  · exact .pure _
  · exact still_updateSearch fun _ => rfl

theorem still_configure [Scalar R] : Keeps Session.stage (configure : Work R Unit) := by
  refine Keeps.get.bind fun s => (Keeps.lift _).bind fun reports => (still_tune _).bind fun _ =>
    (Keeps.lift _).bind fun simplex => (still_tune _).bind fun _ => (Keeps.lift _).bind fun isOpen => ?_
  have hunused (e : Engine R) : Keeps Session.stage (Setting.unused.forM fun setting => do
      let v := e.settings.get setting
      if !v.same setting.start then
        outside (Host.record .debug
          ("Setting " ++ setting.name ++ "=" ++ v.written ++ " is kept but not applied by CBC")) : Work R Unit) := by
    refine .forM fun setting _ => ?_
    simp only
    split
    · exact still_outside (untold_record _ _)
    · exact .pure _
  simp only
  split
  · exact (still_tune _).bind fun _ => hunused s.engine
  · exact hunused s.engine

theorem quiet_restart : Keeps Session.scene (restart : Work R Unit) :=
  quiet_of_still still_restart

theorem quiet_configure [Scalar R] : Keeps Session.scene (configure : Work R Unit) :=
  quiet_of_still still_configure

theorem keeps_restart : Keeps Session.core (restart : Work R Unit) :=
  keeps_of_quiet quiet_restart

theorem keeps_configure [Scalar R] : Keeps Session.core (configure : Work R Unit) :=
  keeps_of_quiet quiet_configure

/-- The search that a load uses is the engine's own, as long as it holds no columns, or a new one. -/
theorem freshSearch_ok [Scalar R] (s : Session R) : ∃ search t, freshSearch s = .ok search t ∧
    t.engine = s.engine ∧ t.stage = s.stage ∧
    ((s.engine.search = some search ∧ search.program.columns = []) ∨ search.program = .empty) := by
  unfold freshSearch
  rw [Action.get_bind_run]
  cases hsearch : s.engine.search with
  | none => exact ⟨_, _, rfl, rfl, rfl, .inr rfl⟩
  | some search =>
    simp only
    split
    · next hempty => exact ⟨_, s, rfl, rfl, rfl, .inl ⟨rfl, by simpa using hempty⟩⟩
    · exact ⟨_, _, rfl, rfl, rfl, .inr rfl⟩

/-- The stage when the program has been handed over. -/
def Session.loadedStage [Scalar R] (s : Session R) : Scene R :=
  if s.engine.loaded then s.stage
  else { s.stage with engine := { s.stage.engine with loaded := true }, handed := some s.engine.program }

/-- Loading goes through, and afterwards the search holds the program; it is left alone if it held it before. -/
theorem load_stage [Scalar R] (s : Session R) : ∃ t, load s = .ok ⟨⟩ t ∧ t.stage = s.loadedStage := by
  unfold load Session.loadedStage
  rw [Action.get_bind_run]
  by_cases hloaded : s.engine.loaded = true
  · exact ⟨s, by simp [hloaded], by simp [hloaded]⟩
  · obtain ⟨search, t, hfresh, hengine, hstage, -⟩ := freshSearch_ok s
    have huse := useSearch_stage { search with program := t.engine.program } t
    rw [if_neg hloaded, Action.bind_ok hfresh, Action.get_bind_run]
    cases hrun : useSearch { search with program := t.engine.program } t with
    | error fault u => cases hrun
    | ok a u =>
      rw [Action.after_ok hrun] at huse
      refine ⟨_, Action.bind_ok hrun _, ?_⟩
      rw [if_neg hloaded, ← hengine, ← hstage]
      exact congrArg (fun c : Scene R => { c with engine := { c.engine with loaded := true } }) huse

/-- The scene when the program has been handed over. -/
def Session.loadedScene [Scalar R] (s : Session R) : Scene R :=
  if s.engine.loaded then s.scene
  else { s.scene with engine := { s.scene.engine with loaded := true }, handed := some s.engine.program }

theorem load_scene [Scalar R] (s : Session R) : ∃ t, load s = .ok ⟨⟩ t ∧ t.scene = s.loadedScene := by
  obtain ⟨t, hload, hstage⟩ := load_stage s
  refine ⟨t, hload, (congrArg Scene.hushed hstage).trans ?_⟩
  unfold Session.loadedStage Session.loadedScene
  split <;> rfl

theorem load_ok [Scalar R] (s : Session R) : ∃ t, load s = .ok ⟨⟩ t ∧
    t.core = { s.core with handed := if s.engine.loaded then s.core.handed else some s.engine.program } := by
  obtain ⟨t, hload, hscene⟩ := load_scene s
  refine ⟨t, hload, ?_⟩
  rw [← t.scene_core, hscene, Session.loadedScene]
  split <;> rfl

/-! ### Searching -/

/-- A scene without what outcomes change: the results, the clock, the outcomes to come and the requests. -/
def Scene.frame [Scalar R] (c : Scene R) : Scene R :=
  { c with
    engine := { c.engine with results := .start false Scalar.zero }
    host := { c.host with clock := Scalar.zero, source := .script [], requests := [] } }

/-- What a search leaves alone whatever its outcomes are. -/
def Session.frame [Scalar R] (s : Session R) : Scene R :=
  s.scene.frame

variable [Scalar R]

theorem frame_of_quiet {α : Type} {act : Work R α} (h : Keeps Session.scene act) : Keeps Session.frame act :=
  h.map Scene.frame

theorem frame_updateResults (f : Results R → Results R) : Keeps Session.frame (updateResults f) :=
  .modify fun _ => rfl

/-- What results and messages leave alone is left alone when a point is looked at. -/
theorem keeps_capture {ω : Type} {view : Session R → ω}
    (hresults : ∀ f : Results R → Results R, Keeps view (updateResults f : Work R Unit))
    (hsend : ∀ m, Keeps view (send m : Work R Unit)) (point : List R) : Keeps view (capture point : Work R Unit) := by
  have hkeep (e : Engine R) : Keeps view (if e.improves (activity e.objective point).value then do
      updateResults fun r => { r with
        incumbent := some point, objective := activity e.objective point, pointCount := r.pointCount + 1 }
      send (if e.isMixed then .milpBetter else .lpOptimal)
      else pure () : Work R Unit) := by
    split
    · exact (hresults _).bind fun _ => hsend _
    · exact .pure _
  refine Keeps.get.bind fun s => ?_
  simp only
  split
  · exact (hsend _).bind fun _ => hkeep s.engine
  · exact hkeep s.engine

/-- The session when an outcome has been used, and nothing has been noted of it yet. -/
def Session.spent (s : Session R) (o : Search.Outcome R) : Session R :=
  { s with host := { s.host with clock := s.host.clock + o.seconds, source := s.host.source.next } }

/-- Of what results and messages leave alone, taking note of an outcome changes the clock and the outcomes to come.
The clock has moved before anything can fail. -/
theorem view_takeOutcome {ω : Type} {view : Session R → ω}
    (hresults : ∀ f : Results R → Results R, Keeps view (updateResults f : Work R Unit))
    (hsend : ∀ m, Keeps view (send m : Work R Unit)) (o : Search.Outcome R) (s : Session R) :
    view ((takeOutcome o).after s) = view (s.spent o) := by
  have hbound : Keeps view (noteBound o.bound : Work R Unit) := by
    unfold noteBound
    split
    · exact hresults _
    · exact .pure _
  have hspent : outside (modify fun h : Host R => { h with clock := h.clock + o.seconds, source := h.source.next }) s =
      .ok ⟨⟩ (s.spent o) := rfl
  unfold takeOutcome
  rw [Action.after_bind_ok hspent]
  -- what follows keeps the view, wherever it starts
  generalize s.spent o = t
  revert t
  show Keeps view _
  split
  · exact .throw _
  · split
    · refine Keeps.get.bind fun s => ?_
      split
      · exact (keeps_capture hresults hsend _).bind fun _ => hbound
      · exact hbound
    · exact hbound

theorem frame_takeOutcome (o : Search.Outcome R) : Keeps Session.frame (takeOutcome o) :=
  view_takeOutcome frame_updateResults (fun m => frame_of_quiet (quiet_send m)) o

theorem frame_beginSlice (plan : Plan R) (slice : R) : Keeps Session.frame (beginSlice plan slice) := by
  have hrequest (budget : R) : Keeps Session.frame (request budget plan.pointLimit : Work R Unit) := by
    refine Keeps.get.bind fun s => ?_
    split
    · exact .pure _
    · exact fun _ => rfl
  refine Keeps.get.bind fun s => ?_
  simp only
  split
  · exact .pure _
  · exact (hrequest _).bind fun _ => .pure _

theorem frame_slices (plan : Plan R) (slice : R) (outs : List (Search.Outcome R)) :
    Keeps Session.frame (slices plan slice outs) := by
  induction outs generalizing slice with
  | nil =>
    refine (frame_beginSlice plan slice).bind fun verdict => ?_
    split
    · exact .pure _
    · exact .throw _
  | cons o outs ih =>
    refine (frame_beginSlice plan slice).bind fun verdict => ?_
    split
    · exact .pure _
    · refine (frame_takeOutcome o).bind fun _ => ?_
      split
      · exact .pure _
      · refine (frame_of_quiet quiet_abortRequested).bind fun abort => ?_
        split
        · exact .pure _
        · exact (frame_of_quiet quiet_restart).bind fun _ => ih _

theorem frame_optimize : Keeps Session.frame (optimize : Work R Verdict) :=
  Keeps.get.bind fun _ => (Keeps.lift _).bind fun plan => frame_slices plan _ _

theorem frame_storeSolution : Keeps Session.frame (storeSolution : Work R Unit) := by
  refine Keeps.get.bind fun s => ?_
  simp only
  split
  · exact .pure _
  · exact frame_updateResults _

end Optima.Engine
