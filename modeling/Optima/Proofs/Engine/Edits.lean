import Optima.Proofs.Engine.Building

/-!
# What the building operations may change

A building operation may be given anything, and it may stop with a fault half way.  Whatever happens, it leaves the
search, the results, the observers and the defects of its engine alone, and if the program named only columns that are
there, it still does, and no column comes twice in the objective if none did (`Edited`).  Adding a set is the one
operation that changes the sets (`after_addSet`).
-/

namespace Optima.Engine

variable {R : Type}

/-- The program names only columns that are there. -/
structure InRange (e : Engine R) : Prop where
  rows : ∀ r ∈ e.rows, ∀ t ∈ r.entries, e.HasColumn t.1
  objective : ∀ t ∈ e.objective, e.HasColumn t.1
  sets : ∀ s ∈ e.sets, ∀ col ∈ s.columns, e.HasColumn col

/-- How an engine may stand after it was edited: `e₀` is the engine before. -/
structure Edited (e₀ e : Engine R) : Prop where
  inRange : e₀.InRange → e.InRange
  distinct : (e₀.objective.map Prod.fst).Nodup → (e.objective.map Prod.fst).Nodup
  sets : e.sets = e₀.sets
  loaded : e.loaded = e₀.loaded ∨ e.loaded = false
  search : e.search = e₀.search
  results : e.results = e₀.results
  defects : e.defects = e₀.defects
  hooks : e.hooks = e₀.hooks
  logFile : e.logFile = e₀.logFile

theorem Edited.refl (e : Engine R) : Edited e e :=
  ⟨id, id, rfl, .inl rfl, rfl, rfl, rfl, rfl, rfl⟩

theorem InRange.addSet {e : Engine R} (h : e.InRange) {s : OrderedSet R} (hs : ∀ col ∈ s.columns, e.HasColumn col) :
    InRange { e with sets := e.sets ++ [s], loaded := false } := by
  refine { h with sets := fun s' hs' => ?_ }
  rcases List.mem_append.1 hs' with hs' | hs'
  · exact h.sets s' hs'
  · rw [List.mem_singleton.1 hs']
    exact hs

open Optima.Action (Preserves)

variable {e₀ : Engine R}

theorem edits_changed : Preserves (Edited e₀) (changed : Build R Unit) :=
  .modify fun _ h => { h with loaded := .inr rfl, inRange := fun h₀ => { h.inRange h₀ with } }

theorem edits_modifyColumn (col : Int) (f : Column R → Column R) : Preserves (Edited e₀) (modifyColumn col f) := by
  refine Preserves.get.bind fun _ => (Preserves.lift _).bind fun _ => .modify fun e h => ?_
  refine { h with inRange := fun h₀ => ?_ }
  have hcolumn (k : Nat) (hk : e.HasColumn k) :
      HasColumn { e with columns := e.columns.modify (col - 1).toNat f } k := by
    simpa [HasColumn] using hk
  have hrange := h.inRange h₀
  exact ⟨fun r hr t ht => hcolumn _ (hrange.rows r hr t ht), fun t ht => hcolumn _ (hrange.objective t ht),
    fun s hs c hc => hcolumn _ (hrange.sets s hs c hc)⟩

variable [Scalar R]

theorem edits_putSetting (s : Setting) (v : Value R) : Preserves (Edited e₀) (putSetting s v) := by
  refine Preserves.get_bind fun e h => ?_
  cases e.settings.set s v with
  | ok settings => exact { h with inRange := fun h₀ => { h.inRange h₀ with } }
  | error fault => exact h

theorem edits_writeLower (col : Int) (v : Value R) : Preserves (Edited e₀) (writeLower col v) :=
  Preserves.get.bind fun _ => (Preserves.lift _).bind fun _ => edits_modifyColumn _ _

theorem edits_writeUpper (col : Int) (v : Value R) : Preserves (Edited e₀) (writeUpper col v) :=
  Preserves.get.bind fun _ => (Preserves.lift _).bind fun _ => edits_modifyColumn _ _

/-! ### Rows and the objective -/

omit [Scalar R] in
private theorem mem_putEntry {entries : List (Nat × R)} {col : Nat} {x : R} {t : Nat × R}
    (h : t ∈ putEntry entries col x) : t ∈ entries ∨ t.1 = col := by
  unfold putEntry at h
  split at h
  · obtain ⟨u, hu, rfl⟩ := List.mem_map.1 h
    by_cases hcol : u.1 = col
    · exact .inr (by simp [hcol])
    · have hne : (u.1 == col) = false := by simpa using hcol
      exact .inl (by simpa [hne] using hu)
  · exact (List.mem_append.1 h).imp_right fun h => by rw [List.mem_singleton.1 h]

/-- A term goes into a column that is there, or nowhere. -/
private theorem putTerm_range {e : Engine R} {before entries : List (Nat × R)} {term : Value R × Int}
    (h : e.putTerm before term = .ok entries) (hbefore : ∀ t ∈ before, e.HasColumn t.1) :
    ∀ t ∈ entries, e.HasColumn t.1 := by
  obtain ⟨c, hc, h⟩ := except_bind_eq_ok.1 h
  split at h
  · cases h
    exact hbefore
  · obtain ⟨x, -, hput⟩ := except_bind_eq_ok.1 h
    cases hput
    intro t ht
    rcases mem_putEntry ht with ht | ht
    · exact hbefore t ht
    · exact ht ▸ column_range hc

/-- The entries that terms make up are in columns that are there. -/
theorem compact_range {e : Engine R} {terms : List (Value R × Int)} {entries : List (Nat × R)}
    (h : e.compact terms = .ok entries) : ∀ t ∈ entries, e.HasColumn t.1 := by
  suffices loop : ∀ before : List (Nat × R), (∀ t ∈ before, e.HasColumn t.1) →
      terms.foldlM e.putTerm before = .ok entries → ∀ t ∈ entries, e.HasColumn t.1 from
    loop [] (by simp) h
  clear h
  induction terms with
  | nil =>
    intro before hbefore h
    cases h
    exact hbefore
  | cons term terms ih =>
    intro before hbefore h
    rw [List.foldlM_cons] at h
    obtain ⟨next, hput, hrest⟩ := except_bind_eq_ok.1 h
    exact ih next (putTerm_range hput hbefore) hrest

omit [Scalar R] in
private theorem nodup_putEntry {entries : List (Nat × R)} (h : (entries.map Prod.fst).Nodup) (col : Nat) (x : R) :
    ((putEntry entries col x).map Prod.fst).Nodup := by
  unfold putEntry
  split
  · rw [List.map_map]
    refine (List.map_congr_left fun t _ => ?_).symm ▸ h
    rw [Function.comp_apply, apply_ite Prod.fst, ite_self]
  · next hnew =>
    rw [lookup_isSome] at hnew
    rw [List.map_append, List.map_singleton, ← List.concat_eq_append]
    exact h.concat hnew

/-- The entries that terms make up are in different columns. -/
theorem compact_distinct {e : Engine R} {terms : List (Value R × Int)} {entries : List (Nat × R)}
    (h : e.compact terms = .ok entries) : (entries.map Prod.fst).Nodup := by
  suffices loop : ∀ before : List (Nat × R), (before.map Prod.fst).Nodup →
      terms.foldlM e.putTerm before = .ok entries → (entries.map Prod.fst).Nodup from
    loop [] List.nodup_nil h
  clear h
  induction terms with
  | nil =>
    intro before hbefore h
    cases h
    exact hbefore
  | cons term terms ih =>
    intro before hbefore h
    rw [List.foldlM_cons] at h
    obtain ⟨next, hput, hrest⟩ := except_bind_eq_ok.1 h
    refine ih next ?_ hrest
    obtain ⟨c, -, h⟩ := except_bind_eq_ok.1 hput
    split at h
    · cases h
      exact hbefore
    · obtain ⟨x, -, hnext⟩ := except_bind_eq_ok.1 h
      cases hnext
      exact nodup_putEntry hbefore _ x

theorem edits_addRow (values : List (Value R)) (columns : List Int) (relation rhs : Value R) :
    Preserves (Edited e₀) (addRow values columns relation rhs) := by
  refine Preserves.get_bind fun e h => ?_
  cases hdefect : e.defects.row with
  | some text => exact h
  | none =>
    cases hentries : e.compact (values.zip columns) with
    | error fault => exact h
    | ok entries =>
      cases relation.toMember Relation with
      | error fault => exact h
      | ok kind =>
        cases e.innerOf rhs with
        | error fault => exact h
        | ok x =>
          refine { h with inRange := fun h₀ => { h.inRange h₀ with rows := fun r hr t ht => ?_ }, loaded := .inr rfl }
          rcases List.mem_append.1 hr with hr | hr
          · exact (h.inRange h₀).rows r hr t ht
          · rw [List.mem_singleton.1 hr] at ht
            exact compact_range hentries t ht

theorem edits_setRange (row : Int) (range : Value R) : Preserves (Edited e₀) (setRange row range) := by
  refine Preserves.get.bind fun _ => (Preserves.lift _).bind fun x => Preserves.get.bind fun _ =>
    (Preserves.lift _).bind fun _ => Preserves.bind (.modify fun e h => ?_) fun _ => edits_changed
  refine { h with inRange := fun h₀ => { h.inRange h₀ with rows := fun r hr t ht => ?_ } }
  obtain ⟨k, hk⟩ := List.mem_iff_getElem?.1 hr
  rw [List.getElem?_modify] at hk
  obtain ⟨q, hq, hqr⟩ := Option.map_eq_some_iff.1 hk
  have hentries : r.entries = q.entries := by
    rw [← hqr]
    split <;> rfl
  exact (h.inRange h₀).rows q (List.mem_of_getElem? hq) t (hentries ▸ ht)

theorem edits_setObjective (values : List (Value R)) (columns : List Int) :
    Preserves (Edited e₀) (setObjective values columns) := by
  refine Preserves.get_bind fun e h => ?_
  cases hentries : e.compact (values.zip columns) with
  | error fault => exact h
  | ok entries =>
    exact { h with
      inRange := fun h₀ => { h.inRange h₀ with objective := compact_range hentries }
      distinct := fun _ => compact_distinct hentries
      loaded := .inr rfl }

/-! ### Sets -/

private theorem toReal_length {values : List (Value R)} {xs : List R} (h : values.mapM Value.toReal = .ok xs) :
    xs.length = values.length := by
  induction values generalizing xs with
  | nil =>
    cases h
    rfl
  | cons v values ih =>
    rw [List.mapM_cons] at h
    obtain ⟨x, -, h⟩ := except_bind_eq_ok.1 h
    obtain ⟨rest, hrest, h⟩ := except_bind_eq_ok.1 h
    cases h
    rw [List.length_cons, List.length_cons, ih hrest]

/-- A set is added at the end, or nothing happens.  Its columns are there, and it has as many of them as weights if
the lists that were given are of the same length. -/
theorem after_addSet (name : String) (kind priority : Value R) (columns : List Int) (weights : List (Value R))
    (e : Engine R) :
    (addSet name kind priority columns weights).after e = e ∨
      ∃ s : OrderedSet R, (∀ col ∈ s.columns, e.HasColumn col) ∧
        (columns.length = weights.length → s.columns.length = s.weights.length) ∧
        (addSet name kind priority columns weights).after e = { e with sets := e.sets ++ [s], loaded := false } := by
  unfold addSet
  rw [Action.after_get_bind]
  cases hcheck : columns.forM e.checkColumn e with
  | error fault u =>
    have hkept : Action.Keeps id (columns.forM e.checkColumn) := .forM fun _ _ => .lift _
    exact .inl ((Action.after_error (Action.bind_error hcheck _)).trans (hkept.error hcheck))
  | ok a u =>
    obtain ⟨hrange, rfl⟩ := checkColumns_eq_ok.1 hcheck
    rw [Action.after_bind_ok hcheck]
    cases kind.toInteger with
    | error fault => exact .inl rfl
    | ok kind =>
      cases priority.toInteger with
      | error fault => exact .inl rfl
      | ok priority =>
        cases hweights : weights.mapM Value.toReal with
        | error fault => exact .inl rfl
        | ok xs =>
          refine .inr ⟨_, ?_, fun heven => ?_, rfl⟩
          · intro k hk
            obtain ⟨col, hcol, rfl⟩ := List.mem_map.1 hk
            obtain ⟨c, hc⟩ := hrange col hcol
            exact column_range hc
          · rw [List.length_map, heven, toReal_length hweights]

end Optima.Engine
