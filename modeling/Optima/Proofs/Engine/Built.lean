import Optima.Proofs.Encoding.Loading
import Optima.Proofs.Engine.Edits

/-!
# Engines that have been built

An engine is built when it was made with some columns, or holds a model, and building calls were made on it since, also
calls that stopped with a fault.  Whatever the calls were, the program of a built engine is sound: its rows, its
objective and its sets name columns that are there, and a set has as many weights as columns (`Built.sound`).  A built
engine has not been handed over yet, and nobody observes it.
-/

namespace Optima.Engine

variable {R : Type} [Scalar R]

/-- A call of an operation that builds a program. -/
inductive Call (R : Type) where
  | setParameter (name : String) (v : Value R)
  | setInfinite (infinite : Value R)
  | setColumnName (col : Int) (name : String)
  | setInteger (col : Int) (integer : Value R)
  | setBounds (col : Int) (lower upper : Value R)
  | setLower (col : Int) (lower : Value R)
  | setUpper (col : Int) (upper : Value R)
  | setUnbounded (col : Int)
  | setRowMode (on : Value R)
  | addRow (values : List (Value R)) (columns : List Int) (relation rhs : Value R)
  | setRange (row : Int) (range : Value R)
  | setObjective (values : List (Value R)) (columns : List Int)
  | setSense (maximize : Value R)
  | addSet (name : String) (kind priority : Value R) (columns : List Int) (weights : List (Value R))

namespace Call

/-- The lists a call is given are of the same length. -/
def Even : Call R → Prop
  | addRow values columns _ _ | setObjective values columns => values.length = columns.length
  | addSet _ _ _ columns weights => columns.length = weights.length
  | _ => True

/-- What a call does. -/
def perform : Call R → Build R Unit
  | setParameter name v => Engine.setParameter name v
  | setInfinite infinite => Engine.setInfinite infinite
  | setColumnName col name => Engine.setColumnName col name
  | setInteger col integer => Engine.setInteger col integer
  | setBounds col lower upper => Engine.setBounds col lower upper
  | setLower col lower => Engine.setLower col lower
  | setUpper col upper => Engine.setUpper col upper
  | setUnbounded col => Engine.setUnbounded col
  | setRowMode on => do
    let _ ← Engine.setRowMode on
    pure ()
  | addRow values columns relation rhs => do
    let _ ← Engine.addRow values columns relation rhs
    pure ()
  | setRange row range => Engine.setRange row range
  | setObjective values columns => Engine.setObjective values columns
  | setSense maximize => Engine.setSense maximize
  | addSet name kind priority columns weights => do
    let _ ← Engine.addSet name kind priority columns weights
    pure ()

end Call

/-- An engine that has been built: made with some columns or for a model, and changed by calls since. -/
inductive Built : Engine R → Prop where
  | new (columns : Nat) (search : Search.Model R) : Built (new columns .none search)
  | encoded {m : Model R} (hm : m.Reachable) {infinite : Value R} {h h' : Host R} {t : Encoding R}
      (hrun : Encoding.ofModel m .standard infinite h = .ok t h') : Built t.engine
  | call {e : Engine R} (c : Call R) (heven : c.Even) : Built e → Built (c.perform.after e)

/-- The engine that calls leave. -/
def performed (e : Engine R) (calls : List (Call R)) : Engine R :=
  calls.foldl (fun e c => c.perform.after e) e

theorem Built.performed {e : Engine R} (h : Built e) {calls : List (Call R)} (heven : ∀ c ∈ calls, c.Even) :
    Built (e.performed calls) := by
  induction calls generalizing e with
  | nil => exact h
  | cons c calls ih =>
    obtain ⟨hc, hcalls⟩ := List.forall_mem_cons.1 heven
    exact ih (h.call c hc) hcalls

/-- The program names columns that are there, nothing has been handed over, and nobody observes the engine. -/
structure Sound (e : Engine R) : Prop where
  rows : ∀ r ∈ e.rows, ∀ t ∈ r.entries, e.HasColumn t.1
  objective : ∀ t ∈ e.objective, e.HasColumn t.1
  setLength : ∀ s ∈ e.sets, s.columns.length = s.weights.length
  sets : ∀ s ∈ e.sets, ∀ col ∈ s.columns, e.HasColumn col
  unloaded : e.loaded = false
  defects : e.defects = .none
  log : e.hooks.log = none
  logFile : e.logFile = .nothing

/-! ### Calls -/

/-- Whether or not it stops with a fault, a building call edits the engine or adds a set. -/
theorem Call.after_cases (c : Call R) (e : Engine R) : Edited e (c.perform.after e) ∨
    ∃ s : OrderedSet R, (∀ col ∈ s.columns, e.HasColumn col) ∧ (c.Even → s.columns.length = s.weights.length) ∧
      c.perform.after e = { e with sets := e.sets ++ [s], loaded := false } := by
  have edits {α : Type} {act : Build R α} (h : Action.Preserves (Edited e) act) : Edited e (act.after e) :=
    h e (.refl e)
  cases c with
  | setParameter name v =>
    left
    show Edited e ((Engine.setParameter name v).after e)
    unfold Engine.setParameter
    split
    · exact edits (.throw _)
    · exact edits (edits_putSetting _ _)
  | setInfinite infinite => exact .inl (edits (edits_putSetting _ _))
  | setColumnName col name => exact .inl (edits ((edits_modifyColumn _ _).bind fun _ => edits_changed))
  | setInteger col integer => exact .inl (edits ((edits_modifyColumn _ _).bind fun _ => edits_changed))
  | setBounds col lower upper =>
    exact .inl (edits (Action.Preserves.get.bind fun _ => (Action.Preserves.lift _).bind fun _ =>
      (edits_writeLower _ _).bind fun _ => (edits_writeUpper _ _).bind fun _ => edits_changed))
  | setLower col lower => exact .inl (edits ((edits_writeLower _ _).bind fun _ => edits_changed))
  | setUpper col upper => exact .inl (edits ((edits_writeUpper _ _).bind fun _ => edits_changed))
  | setUnbounded col => exact .inl (edits ((edits_modifyColumn _ _).bind fun _ => edits_changed))
  | setRowMode on => exact .inl { Edited.refl e with inRange := fun h => { h with } }
  | addRow values columns relation rhs => exact .inl (edits ((edits_addRow _ _ _ _).bind fun _ => .pure _))
  | setRange row range => exact .inl (edits (edits_setRange _ _))
  | setObjective values columns => exact .inl (edits (edits_setObjective _ _))
  | setSense maximize =>
    exact .inl { Edited.refl e with inRange := fun h => { h with }, loaded := .inr rfl }
  | addSet name kind priority columns weights =>
    have hafter : (Call.addSet name kind priority columns weights).perform.after e =
        (Engine.addSet name kind priority columns weights).after e := Action.after_bind_pure _ _ e
    rw [hafter]
    rcases after_addSet name kind priority columns weights e with h | ⟨s, hcolumns, heven, h⟩
    · rw [h]
      exact .inl (.refl e)
    · exact .inr ⟨s, hcolumns, heven, h⟩

omit [Scalar R] in
theorem Sound.inRange {e : Engine R} (h : e.Sound) : e.InRange :=
  ⟨h.rows, h.objective, h.sets⟩

/-- No building call makes an engine unsound, whether or not it stops with a fault. -/
theorem Call.preserves (c : Call R) (heven : c.Even) : Action.Preserves Sound c.perform := by
  intro e h
  rcases c.after_cases e with hedited | ⟨s, hcolumns, hlength, hafter⟩
  · have hrange := hedited.inRange h.inRange
    exact {
      rows := hrange.rows
      objective := hrange.objective
      setLength := hedited.sets ▸ h.setLength
      sets := hrange.sets
      unloaded := hedited.loaded.elim (fun hsame => hsame.trans h.unloaded) id
      defects := hedited.defects.trans h.defects
      log := hedited.hooks ▸ h.log
      logFile := hedited.logFile.trans h.logFile }
  · rw [hafter]
    refine { h with sets := (h.inRange.addSet hcolumns).sets, setLength := fun s' hs' => ?_, unloaded := rfl }
    rcases List.mem_append.1 hs' with hs' | hs'
    · exact h.setLength s' hs'
    · rw [List.mem_singleton.1 hs']
      exact hlength heven

/-! ### Beginnings -/

theorem sound_new (columns : Nat) (search : Search.Model R) : (new columns .none search).Sound where
  rows := by simp [new]
  objective := by simp [new]
  setLength := by simp [new]
  sets := by simp [new]
  unloaded := rfl
  defects := rfl
  log := rfl
  logFile := rfl

/-- The engine that holds a model is sound: the terms of every row are in the columns of its variables. -/
theorem sound_described (m : Model R) (sentinel : R) (search : Search.Model R) :
    (Encoding.described m sentinel search).Sound := by
  have hterms (row : Nat) (t : Nat × R) (ht : t ∈ Encoding.terms m row) :
      (Encoding.described m sentinel search).HasColumn t.1 :=
    Encoding.terms_hasColumn (by simp [Encoding.described]) ht
  refine ⟨?_, ?_, ?_, ?_, rfl, rfl, rfl, rfl⟩
  · intro r hr t ht
    obtain ⟨i, hi, rfl⟩ := List.mem_mapIdx.1 hr
    exact hterms _ t ht
  · intro t ht
    cases hgoal : m.goal with
    | none => simp [Encoding.described, hgoal] at ht
    | some g => exact hterms g.row t (by simpa [Encoding.described, hgoal] using ht)
  · intro s hs
    obtain ⟨i, hi, rfl⟩ := List.mem_mapIdx.1 hs
    simp [Encoding.setAt, Encoding.setFor]
  · intro s hs col hcol
    obtain ⟨i, hi, rfl⟩ := List.mem_mapIdx.1 hs
    obtain ⟨t, ht, rfl⟩ := List.mem_map.1 hcol
    exact hterms _ t ht

/-- A built engine is sound. -/
theorem Built.sound {e : Engine R} (h : Built e) : e.Sound := by
  induction h with
  | new columns search => exact sound_new columns search
  | @encoded m hm infinite h h' t hrun =>
    obtain ⟨hvar, sentinel, hsentinel⟩ := Encoding.ofModel_eq_ok hrun
    obtain ⟨journal, hdescribed⟩ := Encoding.ofModel_run hm.proper hvar hsentinel h
    rw [hdescribed] at hrun
    cases hrun
    exact sound_described m sentinel _
  | call c heven _ ih => exact c.preserves heven _ ih

end Optima.Engine
