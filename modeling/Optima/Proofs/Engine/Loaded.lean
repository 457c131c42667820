import Optima.Engine.Files
import Optima.Exact.Ranging
import Optima.Proofs.Engine.Built
import Optima.Proofs.Engine.Outcomes

/-!
# The program that the search holds is the engine's

An engine hands its program over when it needs to, and notes that it has done so; every operation that changes the
program takes it back.  So whatever operations an engine has gone through, as long as all of them returned, an engine
that has noted it has a search with its program as it is now: the one that a first load would hand over
(`Reached.neverStale`).

A load may go into a search that has been used before, but only when that search holds no columns.  Then it holds no
rows and no sets either, since these name columns: nothing is left over from an earlier load.

The invariant is `Current`.  Building calls keep it when they return (`Call.settled`); everything else keeps it whether
or not it stops with a fault, since only a load changes what the search holds.  This is so for every property of
engines that a load leaves in place (`Steady`).
-/

namespace Optima.Engine

variable {R : Type} [Scalar R]

open Optima.Action (Preserves Keeps)

/-! ### The invariant -/

/-- The search holds the program if the engine has noted so, and it holds nothing at all if it holds no columns. -/
structure Current (e : Engine R) : Prop where
  inRange : e.InRange
  vacant : ∀ p, e.search.map Search.Model.program = some p → p.columns = [] → p.rows = [] ∧ p.sets = []
  held : e.loaded = true → e.search.map Search.Model.program = some e.program

theorem searchRows_of_empty {rows : List (Row R)} (h : ∀ r ∈ rows, r.entries = []) (next : Nat) :
    searchRows next rows = ([], []) := by
  induction rows with
  | nil => rfl
  | cons r rows ih =>
    obtain ⟨hr, hrows⟩ := List.forall_mem_cons.1 h
    simp only [searchRows, hr, List.isEmpty_nil, ↓reduceIte]
    exact ih hrows

/-- A program without columns has neither rows nor sets. -/
theorem InRange.vacant {e : Engine R} (h : e.InRange) (hcolumns : e.program.columns = []) :
    e.program.rows = [] ∧ e.program.sets = [] := by
  have hnone (col : Nat) : ¬ e.HasColumn col := by
    obtain ⟨hcolumns, -⟩ := List.append_eq_nil_iff.1 hcolumns
    rw [HasColumn, hcolumns, List.length_nil]
    omega
  have hrows : ∀ r ∈ e.rows, r.entries = [] := by
    intro r hr
    exact List.eq_nil_iff_forall_not_mem.2 fun t ht => hnone t.1 (h.rows r hr t ht)
  have hsets : ∀ s ∈ e.sets, s.columns = [] := by
    intro s hs
    exact List.eq_nil_iff_forall_not_mem.2 fun col hcol => hnone col (h.sets s hs col hcol)
  constructor
  · simp only [program, searchRows_of_empty hrows]
  · simp only [program, List.map_eq_nil_iff, List.filter_eq_nil_iff]
    intro s hs
    simp [hsets s hs]

/-- What the invariant depends on: the program, whether it has been handed over, and what the search holds. -/
def cargo (e : Engine R) : List (Column R) × List (Row R) × List (Nat × R) × Bool × List (OrderedSet R) × Bool ×
    Option (Search.Program R) :=
  (e.columns, e.rows, e.objective, e.maximize, e.sets, e.loaded, e.search.map Search.Model.program)

theorem program_of_cargo {e e' : Engine R} (h : e'.cargo = e.cargo) : e'.program = e.program := by
  simp only [cargo, Prod.mk.injEq] at h
  obtain ⟨hcolumns, hrows, hobjective, hmaximize, hsets, -⟩ := h
  simp only [program, hcolumns, hrows, hobjective, hmaximize, hsets]

/-- What counts as handed over is the program as it is. -/
def Held (e : Engine R) : Prop :=
  e.loaded = true → e.search.map Search.Model.program = some e.program

theorem Held.of_cargo {e e' : Engine R} (h : e'.cargo = e.cargo) (he : e.Held) : e'.Held := by
  have hprogram := program_of_cargo h
  simp only [cargo, Prod.mk.injEq] at h
  obtain ⟨-, -, -, -, -, hloaded, hhanded⟩ := h
  rw [Held, hloaded, hhanded, hprogram]
  exact he

theorem Current.of_cargo {e e' : Engine R} (h : e'.cargo = e.cargo) (he : e.Current) : e'.Current := by
  have hheld : e'.Held := Held.of_cargo h he.held
  simp only [cargo, Prod.mk.injEq] at h
  obtain ⟨hcolumns, hrows, hobjective, -, hsets, -, hhanded⟩ := h
  have hcolumn (k : Nat) (hk : e.HasColumn k) : e'.HasColumn k := by
    rw [HasColumn, hcolumns]
    exact hk
  refine ⟨⟨?_, ?_, ?_⟩, hhanded ▸ he.vacant, hheld⟩
  · exact hrows ▸ fun r hr t ht => hcolumn _ (he.inRange.rows r hr t ht)
  · exact hobjective ▸ fun t ht => hcolumn _ (he.inRange.objective t ht)
  · exact hsets ▸ fun s hs col hcol => hcolumn _ (he.inRange.sets s hs col hcol)

/-! ### Work on an engine -/

/-- A property of engines that depends on the cargo and the defects alone, and that is left when the program is handed
over. -/
structure Steady (p : Engine R → Prop) : Prop where
  congr : ∀ {e e' : Engine R}, e'.cargo = e.cargo → e'.defects = e.defects → p e → p e'
  loads : ∀ {e : Engine R} {search : Search.Model R}, search.program = e.program → p e →
    p { e with loaded := true, search := some search }

/-- The engine of a session has a property. -/
def Session.Has (p : Engine R → Prop) (s : Session R) : Prop := p s.engine

omit [Scalar R] in
theorem Session.has_outside {α : Type} (p : Engine R → Prop) (act : Action (Host R) α) :
    Preserves (Session.Has p) (outside act) := by
  intro s hs
  rw [after_outside]
  exact hs

omit [Scalar R] in
theorem Session.has_inside {α : Type} {p : Engine R → Prop} {act : Build R α} (h : Preserves p act) :
    Preserves (Session.Has p) (inside act) := by
  intro s hs
  rw [after_inside]
  exact h s.engine hs

namespace Steady

variable {p : Engine R → Prop} (hp : Steady p)
include hp

theorem of_frame {s t : Session R} (h : t.frame = s.frame) (hs : s.Has p) : t.Has p :=
  hp.congr (e := s.engine)
    (congrArg (fun c : Scene R => (c.engine.columns, c.engine.rows, c.engine.objective, c.engine.maximize,
      c.engine.sets, c.engine.loaded, c.handed)) h)
    (congrArg (fun c : Scene R => c.engine.defects) h) hs

theorem frame {α : Type} {act : Work R α} (h : Keeps Session.frame act) : Preserves (Session.Has p) act :=
  fun s hs => hp.of_frame (h s) hs

theorem quiet {α : Type} {act : Work R α} (h : Keeps Session.scene act) : Preserves (Session.Has p) act :=
  hp.frame (frame_of_quiet h)

theorem build {α : Type} {act : Build R α} (h : Keeps (fun e => (e.cargo, e.defects)) act) : Preserves p act :=
  fun e he => hp.congr (congrArg Prod.fst (h e)) (congrArg Prod.snd (h e)) he

theorem preserves_load : Preserves (Session.Has p) (load : Work R Unit) := by
  intro s hs
  obtain ⟨t, hload, hscene⟩ := load_scene s
  rw [Action.after_ok hload]
  unfold Session.loadedScene at hscene
  split at hscene
  · exact hp.of_frame (congrArg Scene.frame hscene) hs
  · -- the engine as it is when it has handed its program over
    let loaded : Session R :=
      ⟨{ s.engine with loaded := true, search := some ⟨0, s.engine.program, Search.Knobs.start, none⟩ }, s.host⟩
    exact hp.of_frame (s := loaded) (congrArg Scene.frame hscene) (hp.loads rfl hs)

theorem preserves_takeAnswer (e : Engine R) (answer : Ranging.Answer R) :
    Preserves (Session.Has p) (e.takeAnswer answer) := by
  unfold takeAnswer
  split
  · exact .throw _
  · split
    · exact (hp.frame (frame_updateResults _)).bind fun _ => hp.quiet (quiet_log _)
    · exact Session.has_outside p _

theorem preserves_rangeSolution : Preserves (Session.Has p) (rangeSolution : Work R Unit) := by
  have houtside {α : Type} (act : Action (Host R) α) := Session.has_outside p act
  refine Preserves.get.bind fun s => (houtside _).bind fun _ => ?_
  simp only
  split
  · exact .throw _
  · exact Preserves.bind (houtside _) fun _ => Preserves.get.bind fun u => hp.preserves_takeAnswer _ _

theorem preserves_searchProgram : Preserves (Session.Has p) (searchProgram : Work R Verdict) := by
  refine hp.preserves_load.bind fun _ => (hp.quiet quiet_configure).bind fun _ => Preserves.get.bind fun s =>
    (hp.quiet (quiet_log _)).bind fun _ => (hp.quiet quiet_abortRequested).bind fun abort => ?_
  split
  · exact .pure _
  · refine (hp.quiet (quiet_send _)).bind fun _ => (hp.frame frame_optimize).bind fun verdict =>
      (hp.frame frame_storeSolution).bind fun _ => Preserves.get.bind fun u => ?_
    split
    · exact hp.preserves_rangeSolution.bind fun _ => .pure _
    · exact .pure _

theorem preserves_run : Preserves (Session.Has p) (run : Work R Verdict) := by
  refine Preserves.get.bind fun s => (Preserves.lift _).bind fun violated => ?_
  split
  · exact (hp.quiet (quiet_log _)).bind fun _ => .pure _
  · exact hp.preserves_searchProgram

theorem preserves_solve : Preserves (Session.Has p) (solve : Work R Verdict) := by
  have hresults (f : Session R → Results R) (s : Session R) (hs : s.Has p) :
      Session.Has p { s with engine := { s.engine with results := f s } } :=
    hp.of_frame (s := s) rfl hs
  have hkeep : Preserves (Session.Has p) (runAndKeep : Work R Unit) :=
    hp.preserves_run.bind fun _ => hp.frame (frame_updateResults _)
  refine Preserves.get.bind fun s => ?_
  split
  · exact .throw _
  · refine Preserves.bind (.modify (hresults _)) fun _ => Preserves.get.bind fun u => ?_
    simp only
    exact (hkeep.finish (hresults _)).bind fun _ => Preserves.get.bind fun v =>
      (hp.quiet (quiet_log _)).bind fun _ => .pure _

theorem preserves_writeProgram (path extension : String) :
    Preserves (Session.Has p) (writeProgram path extension : Work R Bool) :=
  hp.preserves_load.bind fun _ => Preserves.get.bind fun _ => Session.has_outside p _

omit hp in
theorem preserves_writeSettings (path options : String) :
    Preserves (Session.Has p) (writeSettings path options : Work R Bool) := by
  refine Preserves.get.bind fun s => (Preserves.forM fun option _ => ?_).bind fun _ => Session.has_outside p _
  obtain ⟨name, value⟩ := option
  simp only
  split
  · exact .throw _
  · exact .pure _

omit hp in
theorem cargo_putSetting (s : Setting) (v : Value R) :
    Keeps (fun e : Engine R => (e.cargo, e.defects)) (putSetting s v) := by
  refine Keeps.get_bind fun e => ?_
  cases e.settings.set s v <;> rfl

theorem preserves_readSettings (path options : String) :
    Preserves (Session.Has p) (readSettings path options : Work R Bool) := by
  have happly (name : String) (settings : Ini.Options) (option : String × String) :
      Keeps (fun e : Engine R => (e.cargo, e.defects)) (applyOption name settings option : Build R Unit) := by
    unfold applyOption
    split
    · exact .throw _
    · split
      · exact .throw _
      · exact (Keeps.lift _).bind fun v => cargo_putSetting _ _
  refine Preserves.get.bind fun s => ?_
  split
  · exact .pure _
  · split
    · exact .throw _
    · split
      · exact .pure _
      · exact (Session.has_inside (hp.build (.forM fun option _ => happly _ _ _))).bind fun _ => .pure _

omit hp in
theorem preserves_writeData (path : String) (withResults : Bool) :
    Preserves (Session.Has p) (writeData path withResults : Work R Bool) :=
  Preserves.get.bind fun _ => Session.has_outside p _

theorem preserves_exportTo (path : String) (options results : Value R) :
    Preserves (Session.Has p) (exportTo path options results) := by
  have hrun (exporter : Exporter) : Preserves (Session.Has p) (runExporter exporter path options results) := by
    unfold runExporter
    split
    · exact hp.preserves_writeProgram _ _
    · exact preserves_writeData _ _
    · exact hp.preserves_writeProgram _ _
    · exact hp.preserves_writeProgram _ _
    · exact .throw _
  refine Preserves.get.bind fun s => ?_
  split
  · exact .pure _
  · split
    · exact (Session.has_outside p _).bind fun _ => .pure _
    · split
      · exact .pure _
      · intro u hu
        rw [Action.after_map]
        exact hrun _ u hu

theorem preserves_chooseExporter (name : String) :
    Preserves (Session.Has p) (chooseExporter name : Work R Bool) := by
  refine Preserves.get_bind fun s hs => ?_
  split
  · exact hp.congr (e := s.engine) rfl rfl hs
  · exact hs

end Steady

/-- What the search holds when the program has been handed over is the program. -/
theorem steady_current : Steady (R := R) Engine.Current where
  congr hcargo _ he := .of_cargo hcargo he
  loads {e search} hprogram he := by
    refine ⟨{ he.inRange with }, fun q hq => ?_, fun _ => congrArg some hprogram⟩
    obtain rfl : e.program = q := by simpa [hprogram] using hq
    exact he.inRange.vacant

/-- The same as long as nothing more is known of the search. -/
theorem steady_held : Steady (R := R) Held where
  congr hcargo _ he := he.of_cargo hcargo
  loads hprogram _ := fun _ => congrArg some hprogram

/-! ### Building -/

/-- An operation takes the program back from the search when it goes through. -/
def Unloads {α : Type} (act : Build R α) : Prop :=
  ∀ (e e' : Engine R) (a : α), act e = .ok a e' → e'.loaded = false

namespace Unloads

omit [Scalar R]

variable {α β : Type}

protected theorem changed : Unloads (changed : Build R Unit) := by
  intro e e' a h
  cases h
  rfl

protected theorem throw (fault : Fault) : Unloads (throw fault : Build R α) := by
  intro e e' a h
  cases h

protected theorem bind {act : Build R α} {f : α → Build R β} (h : ∀ a, Unloads (f a)) : Unloads (act >>= f) := by
  intro e e' b hrun
  obtain ⟨a, u, -, hf⟩ := Action.bind_eq_ok.1 hrun
  exact h a u e' b hf

/-- An answer that is given afterwards changes nothing. -/
theorem answer {act : Build R α} (h : Unloads act) (f : α → β) : Unloads (act >>= fun a => pure (f a)) := by
  intro e e' b hrun
  obtain ⟨a, u, hact, hpure⟩ := Action.bind_eq_ok.1 hrun
  cases hpure
  exact h e e' a hact

end Unloads

private theorem unloads_addRow (values : List (Value R)) (columns : List Int) (relation rhs : Value R) :
    Unloads (addRow values columns relation rhs) := by
  refine .bind fun e => ?_
  cases e.defects.row with
  | some text => exact .throw _
  | none => exact .bind fun _ => .bind fun _ => .bind fun _ => .bind fun _ => Unloads.changed.answer _

private theorem unloads_addSet (name : String) (kind priority : Value R) (columns : List Int)
    (weights : List (Value R)) : Unloads (addSet name kind priority columns weights) :=
  .bind fun _ => .bind fun _ => .bind fun _ => .bind fun _ => .bind fun _ => .bind fun _ => Unloads.changed.answer _

/-- A setting is no part of the program. -/
private theorem putSetting_settled {s : Setting} {v : Value R} {e e' : Engine R} (h : putSetting s v e = .ok ⟨⟩ e') :
    e'.loaded = e.loaded ∧ e'.program = e.program := by
  rw [(putSetting_ok h).1]
  exact ⟨rfl, rfl⟩

/-- A building call that goes through takes the program back, or leaves the program as it is. -/
theorem Call.settled (c : Call R) {e e' : Engine R} (h : c.perform e = .ok ⟨⟩ e') :
    e'.loaded = false ∨ (e'.loaded = e.loaded ∧ e'.program = e.program) := by
  have unloads {α : Type} {act : Build R α} {a : α} (hact : Unloads act) (hrun : act e = .ok a e') :
      e'.loaded = false ∨ (e'.loaded = e.loaded ∧ e'.program = e.program) :=
    .inl (hact e e' a hrun)
  cases c with
  | setParameter name v =>
    have hset : Engine.setParameter name v e = .ok ⟨⟩ e' := h
    unfold Engine.setParameter at hset
    cases hname : Setting.ofName? name <;> rw [hname] at hset
    · cases hset
    · exact .inr (putSetting_settled hset)
  | setInfinite infinite => exact .inr (putSetting_settled h)
  | setRowMode on =>
    cases h
    exact .inr ⟨rfl, rfl⟩
  | setColumnName col name => exact unloads (.bind fun _ => .changed) h
  | setInteger col integer => exact unloads (.bind fun _ => .changed) h
  | setBounds col lower upper =>
    exact unloads (.bind fun _ => .bind fun _ => .bind fun _ => .bind fun _ => .changed) h
  | setLower col lower => exact unloads (.bind fun _ => .changed) h
  | setUpper col upper => exact unloads (.bind fun _ => .changed) h
  | setUnbounded col => exact unloads (.bind fun _ => .changed) h
  | addRow values columns relation rhs => exact unloads ((unloads_addRow _ _ _ _).answer _) h
  | setRange row range =>
    exact unloads (.bind fun _ => .bind fun _ => .bind fun _ => .bind fun _ => .bind fun _ => .changed) h
  | setObjective values columns => exact unloads (.bind fun _ => .bind fun _ => .bind fun _ => .changed) h
  | setSense maximize => exact unloads (.bind fun _ => .changed) h
  | addSet name kind priority columns weights => exact unloads ((unloads_addSet _ _ _ _ _).answer _) h

/-- After a building call that goes through, what counts as handed over still is the program. -/
theorem Held.call {e e' : Engine R} (h : e.Held) {c : Call R} (hrun : c.perform e = .ok ⟨⟩ e') : e'.Held := by
  have hsearch : e'.search = e.search := by
    have hafter := c.after_cases e
    rw [Action.after_ok hrun] at hafter
    rcases hafter with hedited | ⟨s, -, -, rfl⟩
    · exact hedited.search
    · rfl
  intro hloaded
  rcases c.settled hrun with hunloaded | ⟨hbefore, hprogram⟩
  · rw [hunloaded] at hloaded
    cases hloaded
  · rw [hsearch, hprogram]
    exact h (hbefore ▸ hloaded)

/-- A building call that goes through keeps the invariant. -/
theorem Current.call {e e' : Engine R} (h : e.Current) {c : Call R} (hrun : c.perform e = .ok ⟨⟩ e') : e'.Current := by
  have hsame : e'.InRange ∧ e'.search = e.search := by
    have hafter := c.after_cases e
    rw [Action.after_ok hrun] at hafter
    rcases hafter with hedited | ⟨s, hcolumns, -, rfl⟩
    · exact ⟨hedited.inRange h.inRange, hedited.search⟩
    · exact ⟨h.inRange.addSet hcolumns, rfl⟩
  exact ⟨hsame.1, hsame.2 ▸ h.vacant, Held.call h.held hrun⟩

/-! ### Whole lives of engines -/

/-- What can be asked of an engine. -/
inductive Operation (R : Type) where
  | build (c : Call R)
  | setSensitivity (enabled : Value R)
  | setPoller (poller : Option (Poller R))
  | setLog (log : Option Observer)
  | setMessages (message progress : Option Observer) (mask : Value R)
  | setLogFile (file : Value R)
  | solve
  | writeLp (path : String)
  | writeMps (path : String)
  | writeSettings (path options : String)
  | readSettings (path options : String)
  | writeListing (path : String)
  | writeData (path : String) (withResults : Bool)
  | chooseExporter (name : String)
  | exportTo (path : String) (options results : Value R)
  | release

namespace Operation

/-- Does something for its effect alone. -/
def discard {α : Type} (act : Work R α) : Work R Unit := do
  let _ ← act
  pure ()

/-- What an operation does; the answers are left aside. -/
def perform : Operation R → Work R Unit
  | build c => inside c.perform
  | setSensitivity enabled => inside (Engine.setSensitivity enabled)
  | setPoller poller => inside (Engine.setPoller poller)
  | setLog log => inside (Engine.setLog log)
  | setMessages message progress mask => inside (Engine.setMessages message progress mask)
  | setLogFile file => inside (Engine.setLogFile file)
  | solve => discard Engine.solve
  | writeLp path => discard (Engine.writeLp path)
  | writeMps path => discard (Engine.writeMps path)
  | writeSettings path options => discard (Engine.writeSettings path options)
  | readSettings path options => discard (Engine.readSettings path options)
  | writeListing path => discard (Engine.writeListing path)
  | writeData path withResults => discard (Engine.writeData path withResults)
  | chooseExporter name => discard (Engine.chooseExporter name)
  | exportTo path options results => discard (Engine.exportTo path options results)
  | release => inside (modify Engine.release)

end Operation

/-- An engine that was made, and has gone through operations all of which returned.  The surroundings may change
between them. -/
inductive Reached : Engine R → Prop where
  | created {columns : Nat} {defects : Defects} {h h' : Host R} {e : Engine R}
      (hrun : create columns defects h = .ok e h') : Reached e
  | operated {e : Engine R} (op : Operation R) {h : Host R} {t : Session R} (hrun : op.perform ⟨e, h⟩ = .ok ⟨⟩ t) :
      Reached e → Reached t.engine

theorem current_create {columns : Nat} {defects : Defects} {h h' : Host R} {e : Engine R}
    (hrun : create columns defects h = .ok e h') : e.Current := by
  cases hrun
  refine ⟨⟨by simp [new], by simp [new], by simp [new]⟩, fun p hp _ => ?_, fun hloaded => by cases hloaded⟩
  obtain rfl : Search.Program.empty = p := Option.some.inj hp
  exact ⟨rfl, rfl⟩

theorem current_release (e : Engine R) : e.release.Current := by
  refine ⟨⟨by simp [release], by simp [release], by simp [release]⟩, fun p hp => ?_, fun hloaded => by cases hloaded⟩
  cases hp

/-- Only building calls and the release of an engine can disturb a steady property. -/
theorem Steady.operated {p : Engine R → Prop} (hp : Steady p) {op : Operation R} (hbuild : ∀ c, op ≠ .build c)
    (hrelease : op ≠ .release) : Preserves (Session.Has p) op.perform := by
  have kept {α : Type} {act : Work R α} (hact : Preserves (Session.Has p) act) :
      Preserves (Session.Has p) (Operation.discard act) :=
    hact.bind fun _ => .pure _
  have observed {act : Build R Unit} (hact : Keeps (fun e => (e.cargo, e.defects)) act) :
      Preserves (Session.Has p) (inside act) :=
    Session.has_inside (hp.build hact)
  cases op with
  | build c => exact absurd rfl (hbuild c)
  | setSensitivity enabled => exact observed fun _ => rfl
  | setPoller poller => exact observed fun _ => rfl
  | setLog log => exact observed fun _ => rfl
  | setMessages message progress mask =>
    have hobservers : Keeps (fun e : Engine R => (e.cargo, e.defects)) (modify fun e =>
        { e with hooks := { e.hooks with message := message, progress := progress } } : Build R Unit) := fun _ => rfl
    have hmask (mask : Int) : Keeps (fun e : Engine R => (e.cargo, e.defects))
        (modify fun e => { e with hooks := { e.hooks with mask := mask } } : Build R Unit) := fun _ => rfl
    exact observed (hobservers.bind fun _ => (Keeps.lift _).bind fun _ => hmask _)
  | setLogFile file => exact observed fun _ => rfl
  | solve => exact kept hp.preserves_solve
  | writeLp path => exact kept (hp.preserves_writeProgram _ _)
  | writeMps path => exact kept (hp.preserves_writeProgram _ _)
  | writeSettings path options => exact kept (preserves_writeSettings _ _)
  | readSettings path options => exact kept (hp.preserves_readSettings _ _)
  | writeListing path => exact kept (Preserves.get.bind fun _ => Session.has_outside p _)
  | writeData path withResults => exact kept (preserves_writeData _ _)
  | chooseExporter name => exact kept (hp.preserves_chooseExporter _)
  | exportTo path options results => exact kept (hp.preserves_exportTo _ _ _)
  | release => exact absurd rfl hrelease

theorem Current.operated {e : Engine R} (he : e.Current) (op : Operation R) {h : Host R} {t : Session R}
    (hrun : op.perform ⟨e, h⟩ = .ok ⟨⟩ t) : t.engine.Current := by
  cases op with
  | build c =>
    obtain ⟨e', hcall, rfl⟩ := Action.on_eq_ok.1 (show inside c.perform ⟨e, h⟩ = .ok ⟨⟩ t from hrun)
    exact he.call hcall
  | release =>
    obtain ⟨e', hrelease, rfl⟩ :=
      Action.on_eq_ok.1 (show inside (modify Engine.release) ⟨e, h⟩ = .ok ⟨⟩ t from hrun)
    cases hrelease
    exact current_release e
  | _ => exact (steady_current.operated (fun _ => by simp) (by simp)).ok hrun he

/-- Whatever an engine has gone through, the invariant holds. -/
theorem Reached.current {e : Engine R} (h : Reached e) : e.Current := by
  induction h with
  | created hrun => exact current_create hrun
  | operated op hrun _ ih => exact ih.operated op hrun

/-! ### Engines that faults may have stopped -/

/-- An engine that has been built, and has gone through operations since, also operations that stopped with a fault.
The surroundings may change between them. -/
inductive Used : Engine R → Prop where
  | built {e : Engine R} : Built e → Used e
  | operated {e : Engine R} (op : Operation R) (h : Host R) : Used e → Used (op.perform.after ⟨e, h⟩).engine

/-- Nothing is wrong with an engine, and when it has handed its program over there is a search. -/
structure Fit (e : Engine R) : Prop where
  defects : e.defects = .none
  search : e.loaded = true → e.search.isSome = true

omit [Scalar R] in
theorem Fit.of_held {e e' : Engine R} (hdefects : e'.defects = e.defects) (hloaded : e'.loaded = true → e.loaded = true)
    (hsearch : e'.search.isSome = e.search.isSome) (he : e.Fit) : e'.Fit :=
  ⟨hdefects.trans he.defects, fun h => hsearch.trans (he.search (hloaded h))⟩

theorem steady_fit : Steady (R := R) Fit where
  congr {e e'} hcargo hdefects he := by
    simp only [cargo, Prod.mk.injEq] at hcargo
    obtain ⟨-, -, -, -, -, hloaded, hhanded⟩ := hcargo
    have hsearch := congrArg Option.isSome hhanded
    rw [Option.isSome_map, Option.isSome_map] at hsearch
    exact he.of_held hdefects (fun h => hloaded ▸ h) hsearch
  loads _ he := ⟨he.defects, fun _ => rfl⟩

/-- Nothing that is done to an engine makes it unfit. -/
theorem Used.fit {e : Engine R} (h : Used e) : e.Fit := by
  induction h with
  | built hbuilt => exact ⟨hbuilt.sound.defects, fun hloaded => by simp [hbuilt.sound.unloaded] at hloaded⟩
  | @operated e op h _ ih =>
    have hkept {act : Build R Unit} (hact : Preserves Fit act) : Preserves (Session.Has Fit) (inside act) :=
      Session.has_inside hact
    cases op with
    | build c =>
      refine hkept (fun e he => ?_) ⟨e, h⟩ ih
      rcases c.after_cases e with hedited | ⟨s, -, -, hafter⟩
      · refine he.of_held hedited.defects (fun hloaded => ?_) (congrArg Option.isSome hedited.search)
        exact hedited.loaded.elim (fun hsame => hsame ▸ hloaded) fun hunloaded => by simp [hunloaded] at hloaded
      · rw [hafter]
        exact ⟨he.defects, fun hloaded => by cases hloaded⟩
    | release =>
      have hrelease : Preserves Fit (modify Engine.release : Build R Unit) :=
        .modify fun e he => ⟨he.defects, fun hloaded => by cases hloaded⟩
      exact hkept hrelease ⟨e, h⟩ ih
    | _ => exact steady_fit.operated (fun _ => by simp) (by simp) ⟨e, h⟩ ih

/-! ### What the search is given -/

/-- The program that a load hands over when nothing has been handed over before. -/
def firstLoad (e : Engine R) (h : Host R) : Option (Search.Program R) :=
  (load.after ⟨{ e with search := none, loaded := false }, h⟩).engine.search.map Search.Model.program

theorem firstLoad_eq (e : Engine R) (h : Host R) : e.firstLoad h = some e.program := by
  obtain ⟨t, hload, hscene⟩ := load_scene ⟨{ e with search := none, loaded := false }, h⟩
  rw [firstLoad, Action.after_ok hload]
  exact congrArg Scene.handed hscene

/-- Whatever its surroundings are, an engine hands its program over as it is now, and nothing else. -/
structure NeverStale (e : Engine R) : Prop where
  /-- What counts as handed over is what a first load would hand over. -/
  held : e.loaded = true → ∀ h, e.search.map Search.Model.program = e.firstLoad h
  /-- A load goes into a search that holds nothing yet. -/
  vacant : ∀ {h : Host R} {search : Search.Model R} {t : Session R}, freshSearch ⟨e, h⟩ = .ok search t →
    search.program.columns = [] ∧ search.program.rows = [] ∧ search.program.sets = []
  /-- After a load the search holds what a first load would hand over. -/
  loads : ∀ h, ∃ t, load ⟨e, h⟩ = .ok ⟨⟩ t ∧ t.engine.loaded = true ∧
    t.engine.search.map Search.Model.program = e.firstLoad h
  /-- A solve asks for outcomes of that program only. -/
  solves : ∀ {h : Host R} {v : Verdict} {t : Session R}, solve ⟨e, h⟩ = .ok v t →
    ∃ more, t.host.requests = h.requests ++ more ∧ ∀ r ∈ more, some r.search.program = e.firstLoad h
  /-- When the program is written, the search holds that program. -/
  writes : ∀ {path extension : String} {h : Host R} {b : Bool} {t : Session R},
    writeProgram path extension ⟨e, h⟩ = .ok b t → t.engine.search.map Search.Model.program = e.firstLoad h

theorem Current.load_ok {e : Engine R} (he : e.Current) (h : Host R) : ∃ t, load ⟨e, h⟩ = .ok ⟨⟩ t ∧
    t.engine.loaded = true ∧ t.engine.search.map Search.Model.program = some e.program := by
  obtain ⟨t, hload, hscene⟩ := load_scene ⟨e, h⟩
  refine ⟨t, hload, ?_⟩
  have hloaded : t.engine.loaded = t.scene.engine.loaded := rfl
  have hhanded : t.engine.search.map Search.Model.program = t.scene.handed := rfl
  rw [hloaded, hhanded, hscene, Session.loadedScene]
  split
  · next hbefore => exact ⟨hbefore, he.held hbefore⟩
  · exact ⟨rfl, rfl⟩

theorem Current.requests {e : Engine R} (he : e.Current) {h : Host R} {v : Verdict} {t : Session R}
    (hsolve : solve ⟨e, h⟩ = .ok v t) :
    ∃ more, t.host.requests = h.requests ++ more ∧ ∀ r ∈ more, some r.search.program = some e.program := by
  rcases solve_ok hsolve with ⟨r, -, -, hplain⟩ | ⟨-, used, rest, more, -, hplain, hmore, -⟩
  · have hnone : t.host.requests = h.requests := congrArg Core.requests hplain
    exact ⟨[], by rw [hnone, List.append_nil], by simp⟩
  · refine ⟨more, congrArg Core.requests hplain, fun r hr => (hmore r hr).trans ?_⟩
    -- the search held the program before, or it was handed over at the beginning
    show (if e.loaded then e.search.map Search.Model.program else some e.program) = some e.program
    split
    · next hloaded => exact he.held hloaded
    · rfl

/-- An engine that has gone through operations all of which returned is never stale. -/
theorem Reached.neverStale {e : Engine R} (h : Reached e) : NeverStale e := by
  have he := h.current
  refine ⟨fun hloaded host => (he.held hloaded).trans (firstLoad_eq e host).symm, ?_, fun host => ?_, ?_, ?_⟩
  · intro host search t hfresh
    obtain ⟨search', t', hrun, -, -, hsearch⟩ := freshSearch_ok ⟨e, host⟩
    cases hrun.symm.trans hfresh
    rcases hsearch with ⟨hown, hcolumns⟩ | hnew
    · have hheld : e.search.map Search.Model.program = some search.program :=
        congrArg (Option.map Search.Model.program) hown
      exact ⟨hcolumns, he.vacant _ hheld hcolumns⟩
    · rw [hnew]
      exact ⟨rfl, rfl, rfl⟩
  · rw [firstLoad_eq]
    exact he.load_ok host
  · intro host v t hsolve
    rw [firstLoad_eq]
    exact he.requests hsolve
  · intro path extension host b t hwrite
    obtain ⟨u, hload, -, hheld⟩ := he.load_ok host
    unfold writeProgram at hwrite
    rw [Action.bind_ok hload, Action.get_bind_run] at hwrite
    obtain ⟨host', -, rfl⟩ := Action.on_eq_ok.1 hwrite
    rw [firstLoad_eq]
    exact hheld

/-- The session after operations, if all of them return. -/
def lived : List (Operation R) → Session R → Option (Session R)
  | [], s => some s
  | op :: ops, s =>
    match op.perform s with
    | .ok _ t => lived ops t
    | .error _ _ => none

theorem Reached.lived {ops : List (Operation R)} {s t : Session R} (h : Reached s.engine)
    (hlived : lived ops s = some t) : Reached t.engine := by
  induction ops generalizing s with
  | nil => exact Option.some.inj hlived ▸ h
  | cons op ops ih =>
    unfold Engine.lived at hlived
    cases hrun : op.perform s with
    | ok a u =>
      rw [hrun] at hlived
      exact ih (h.operated op hrun) hlived
    | error fault u =>
      rw [hrun] at hlived
      cases hlived

/-- An engine is built, writes its program, is changed, and solves. -/
def changedOperations : List (Operation Extended) := [
  .build (.addRow [.integer 2, .integer 1] [1, 2] (.ofMember Relation.atMost) (.integer 7)),
  .build (.setObjective [.integer 1] [2]), .writeLp "before.lp", .build (.setUpper 1 (.integer 3)), .solve]

/-- A new engine with two columns, whose search writes no files. -/
def changedStart : Session Extended :=
  ⟨new 2 .none ⟨1, .empty, { Search.Knobs.start with verbose := false }, none⟩,
    { (Host.start (.script [⟨.rat 1, none, .optimal, [some (.rat 3), some (.rat 0)], none⟩]) Exact.ranging :
        Host Extended) with searches := 1, artefact := ⟨none, ""⟩ }⟩

/-- The session after the solve. -/
def changedEnd : Session Extended :=
  (lived changedOperations changedStart).getD changedStart

theorem neverStale_changedEnd :
    Reached changedEnd.engine ∧ changedEnd.engine.loaded = true ∧ NeverStale changedEnd.engine := by
  have hcreated : Reached changedStart.engine := by
    have hcreate : create 2 .none (Host.start (.script []) Exact.ranging) = .ok changedStart.engine _ := rfl
    exact .created hcreate
  have hreached : Reached changedEnd.engine := by
    have hreturned : (lived changedOperations changedStart).isSome = true := by decide +kernel
    obtain ⟨t, ht⟩ := Option.isSome_iff_exists.1 hreturned
    rw [changedEnd, ht]
    exact hcreated.lived ht
  exact ⟨hreached, by decide +kernel, hreached.neverStale⟩

-- the solve asked a search of its own, for the program with the bound that was set after the first load
example : (changedEnd.host.requests.map fun r => (r.search.serial, r.search.program.columns.map Column.upper)) =
    [(2, [.rat 3, .posInf])] := by
  decide +kernel

end Optima.Engine
