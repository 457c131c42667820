import Optima.Proofs.Model.Coefficients
import Optima.Proofs.SideBySide

/-!
# The order in which coefficients are written

Two sequences of calls that differ only in how they write coefficients, in what order, how often and by way of which
other numbers, lead to models that cannot be told apart by any listing, as long as the same is left at each place in the
end (`Rewritten.listings`).  The lines of the two matrices may well have their coefficients in different orders.

The argument has two sides.  What is not in the matrix is the work of the other calls alone, since no operation looks
at the matrix (`respects_perform`); and what is in the matrix is, place by place, what was last written.
-/

namespace Optima.Model

open Optima.Action (Alike Keeps Respects)
open Line (kept)

variable {R : Type}

/-! ### What is not in the matrix -/

/-- The same entries, names and goal. -/
structure SameFrame (m n : Model R) : Prop where
  entries : n.entries = m.entries
  names : n.names = m.names
  goal : n.goal = m.goal

namespace SameFrame

variable {m n : Model R}

theorem refl (m : Model R) : SameFrame m m := ⟨rfl, rfl, rfl⟩

theorem trans {l : Model R} (h : SameFrame l m) (h' : SameFrame m n) : SameFrame l n :=
  ⟨h'.entries.trans h.entries, h'.names.trans h.names, h'.goal.trans h.goal⟩

theorem symm (h : SameFrame m n) : SameFrame n m :=
  ⟨h.entries.symm, h.names.symm, h.goal.symm⟩

theorem entry (h : SameFrame m n) (vid : Int) : n.entry vid = m.entry vid := by
  unfold Model.entry entry?
  rw [h.entries]

theorem variableEntry (h : SameFrame m n) (vid : Int) : n.variableEntry vid = m.variableEntry vid := by
  unfold Model.variableEntry
  rw [h.entry]

theorem rowEntry (h : SameFrame m n) (vid : Int) : n.rowEntry vid = m.rowEntry vid := by
  unfold Model.rowEntry
  rw [h.entry]

theorem isGoal (h : SameFrame m n) (vid : Int) : n.isGoal vid = m.isGoal vid := by
  unfold Model.isGoal goalOn?
  rw [h.goal]

theorem vidsWhere (h : SameFrame m n) (p : Entry R → Bool) : n.vidsWhere p = m.vidsWhere p := by
  unfold Model.vidsWhere
  rw [h.entries]

theorem append (h : SameFrame m n) (e : Entry R) : SameFrame (m.append e) (n.append e) where
  entries := by rw [Model.append, Model.append, h.entries]
  names := by rw [Model.append, Model.append, h.entries, h.names]
  goal := h.goal

end SameFrame

theorem respects_modifyEntry (vid : Int) (f : Entry R → Entry R) : Respects SameFrame (modifyEntry vid f) := by
  refine .modify fun m n h => ⟨?_, h.names, h.goal⟩
  rw [h.entries]

/-- What is done with an entry that has been looked up. -/
theorem respects_entry {α : Type} (vid : Int) {f : Entry R → Edit R α} (hf : ∀ e, Respects SameFrame (f e)) :
    Respects SameFrame (get >>= fun m : Model R => Action.lift (m.entry vid) >>= f) :=
  .get_bind (fun _ _ h => by rw [h.entry]) fun _ => .bind (.lift _) hf

theorem respects_variableEntry {α : Type} (vid : Int) {f : Entry R → Edit R α}
    (hf : ∀ e, Respects SameFrame (f e)) :
    Respects SameFrame (get >>= fun m : Model R => Action.lift (m.variableEntry vid) >>= f) :=
  .get_bind (fun _ _ h => by rw [h.variableEntry]) fun _ => .bind (.lift _) hf

theorem respects_removeGoal (vid : Int) : Respects SameFrame (removeGoal vid : Edit R Bool) := by
  intro m n h
  unfold removeGoal
  rw [Action.get_bind_run, Action.get_bind_run, h.isGoal]
  split
  · exact .ok true ⟨h.entries, h.names, rfl⟩
  · exact .ok false h

variable [Scalar R]

theorem SameFrame.lookup? {m n : Model R} (h : SameFrame m n) (key : Value R) : n.lookup? key = m.lookup? key := by
  unfold Model.lookup? find?
  rw [h.names]

theorem respects_addGoal (vid : Int) (priority minimize : Value R) :
    Respects SameFrame (addGoal vid priority minimize) := by
  intro m n h
  unfold addGoal
  rw [Action.get_bind_run, Action.get_bind_run, h.rowEntry, h.goal]
  cases m.rowEntry vid with
  | error fault => exact .error fault h
  | ok e =>
    rw [Action.lift_ok_bind_run, Action.lift_ok_bind_run]
    split
    · exact .error .secondGoal h
    · exact .ok _ ⟨h.entries, h.names, rfl⟩

theorem respects_add (key : Value R) (role : Role) : Respects SameFrame (add key role) := by
  intro m n h
  unfold add
  rw [Action.get_bind_run, Action.get_bind_run, h.lookup?]
  cases m.lookup? key with
  | error fault => exact .error fault h
  | ok known =>
    cases known with
    | some vid => exact .ok vid h
    | none =>
      have hlength : n.entries.length = m.entries.length := congrArg List.length h.entries
      rw [hlength]
      exact .ok m.entries.length (h.append (Entry.new key role))

theorem respects_setBounds (vid : Int) (lower upper : Value R) : Respects SameFrame (setBounds vid lower upper) := by
  refine .bind (.lift _) fun l => .bind (.lift _) fun u => .ite (.throw_bind _ _) (.ite (.throw_bind _ _) ?_)
  exact respects_entry vid fun _ => respects_modifyEntry vid _

theorem respects_setLower (vid : Int) (lower : Value R) : Respects SameFrame (setLower vid lower) :=
  respects_entry vid fun _ => respects_setBounds vid _ _

theorem respects_setUpper (vid : Int) (upper : Value R) : Respects SameFrame (setUpper vid upper) :=
  respects_entry vid fun _ => respects_setBounds vid _ _

/-- A call that writes a coefficient. -/
def Call.writes : Call R → Bool
  | setCoefficient .. => true
  | _ => false

/-- What a call does besides writing a coefficient does not depend on the coefficients. -/
theorem respects_perform {c : Call R} (hc : c.writes = false) : Respects SameFrame c.perform := by
  cases c with
  | addVariable key => exact .bind (respects_add key _) fun _ => .pure _
  | addRow key sos => exact .bind (.bind (.lift _) fun _ => respects_add key _) fun _ => .pure _
  | setBounds vid lower upper => exact respects_setBounds vid lower upper
  | setLower vid lower => exact respects_setLower vid lower
  | setUpper vid upper => exact respects_setUpper vid upper
  | setIgnoresBounds vid ignores => exact respects_variableEntry vid fun _ => respects_modifyEntry vid _
  | setInteger vid integer => exact respects_variableEntry vid fun _ => respects_modifyEntry vid _
  | setBasic vid basic => exact respects_entry vid fun _ => respects_modifyEntry vid _
  | setValue vid value =>
    exact respects_entry vid fun _ => .bind (.lift _) fun _ => respects_modifyEntry vid _
  | setCoefficient row var value => cases hc
  | addGoal vid priority minimize => exact .bind (respects_addGoal vid priority minimize) fun _ => .pure _
  | removeGoal vid => exact .bind (respects_removeGoal vid) fun _ => .pure _
  | clearGoals => exact .modify fun _ _ h => ⟨h.entries, h.names, rfl⟩
  | setProperty name vid value =>
    show Respects SameFrame (Model.setProperty name vid value)
    unfold Model.setProperty
    split
    · exact respects_setLower vid value
    · exact respects_setUpper vid value
    · exact .throw _

/-- Writing a coefficient changes nothing else. -/
theorem sameFrame_write {c : Call R} (hc : c.writes = true) (m : Model R) : SameFrame m (c.perform.after m) := by
  cases c with
  | setCoefficient row var value =>
    have hwrite : Action.Preserves (SameFrame m) (Model.setCoefficient row var value) := by
      refine .get_bind fun l hl => ?_
      refine Action.Preserves.bind (.lift _) (fun _ => .bind (.lift _) fun _ => .bind (.lift _) fun x => ?_) l hl
      exact fun _ _ => ⟨hl.entries, hl.names, hl.goal⟩
    exact hwrite m (.refl m)
  | _ => cases hc

theorem sameFrame_performed (calls : List (Call R)) :
    SameFrame (performed (calls.filter fun c => !c.writes)) (performed calls) := by
  induction calls using List.reverseRecOn with
  | nil => exact .refl _
  | append_singleton calls c ih =>
    rw [List.filter_append, List.filter_singleton, performed_concat]
    cases hc : c.writes with
    | true =>
      rw [Bool.not_true, Bool.cond_false, List.append_nil]
      exact ih.trans (sameFrame_write hc _)
    | false =>
      rw [Bool.not_false, Bool.cond_true, performed_concat]
      exact (respects_perform hc _ _ ih).states

theorem sameFrame_of_others {calls more : List (Call R)}
    (h : (more.filter fun c => !c.writes) = calls.filter fun c => !c.writes) :
    SameFrame (performed calls) (performed more) :=
  (sameFrame_performed calls).symm.trans (h ▸ sameFrame_performed more)

/-! ### Listings -/

/-- All that is listed of one model is listed of the other, in the same order. -/
structure SameListings (m n : Model R) : Prop where
  vids : ∀ p, n.vidsWhere p = m.vidsWhere p
  keysWhere : ∀ p, n.keysWhere p = m.keysWhere p
  keys : n.keys = m.keys
  lookup : ∀ key, n.lookup key = m.lookup key
  entry : ∀ vid, n.entry vid = m.entry vid
  goals : n.goals = m.goals
  coefficient : ∀ row var, n.coefficient row var = m.coefficient row var
  rowEntries : ∀ row, n.rowEntries row = m.rowEntries row
  variableEntries : ∀ var, n.variableEntries var = m.variableEntries var
  rowEntryCount : ∀ row, n.rowEntryCount row = m.rowEntryCount row
  variableEntryCount : ∀ var, n.variableEntryCount var = m.variableEntryCount var
  count : n.matrix.count = m.matrix.count

/-- The same coefficient stands at each place of two models. -/
def SamePlaces (m n : Model R) : Prop :=
  ∀ row var, n.matrix.get? row var = m.matrix.get? row var

section Places

variable {m n : Model R}

omit [Scalar R] in
theorem rowTerms_eq (h : SameFrame m n) (hplaces : SamePlaces m n) (row : Nat) : n.rowTerms row = m.rowTerms row := by
  unfold rowTerms Matrix.rowEntries variableVids
  rw [h.vidsWhere]
  simp only [hplaces row]

/-- Models of the same entries that have the same at each place cannot be told apart by a listing. -/
theorem SameFrame.listings (hm : m.Proper) (hn : n.Proper) (h : SameFrame m n) (hplaces : SamePlaces m n) :
    SameListings m n := by
  have hrows : n.rowVids = m.rowVids := h.vidsWhere _
  have hvariables : n.variableVids = m.variableVids := h.vidsWhere _
  have hcolumn (var : Nat) : n.variableTerms var = m.variableTerms var := by
    unfold variableTerms Matrix.columnEntries
    rw [hrows]
    simp only [hn.matrix.agree, hm.matrix.agree, hplaces _ var]
  have hrowCount (row : Nat) : n.matrix.rowCount row = m.matrix.rowCount row := by
    rw [hn.matrix.rowCount_eq (nodup_vidsWhere n _), hm.matrix.rowCount_eq (nodup_vidsWhere m _), hvariables]
    simp only [hplaces row]
  have hcolumnCount (var : Nat) : n.matrix.columnCount var = m.matrix.columnCount var := by
    rw [hn.matrix.columnCount_eq (nodup_vidsWhere n _), hm.matrix.columnCount_eq (nodup_vidsWhere m _), hrows]
    simp only [hplaces _ var]
  refine ⟨h.vidsWhere, fun p => ?_, ?_, fun key => ?_, h.entry, ?_, fun row var => ?_, fun row => ?_, fun var => ?_,
    fun row => ?_, fun var => ?_, ?_⟩
  · rw [Model.keysWhere, Model.keysWhere, h.entries]
  · rw [Model.keys, Model.keys, h.names]
  · rw [Model.lookup, Model.lookup, h.lookup?]
  · rw [Model.goals, Model.goals, h.goal]
  · rw [Model.coefficient, Model.coefficient, hplaces]
  · rw [Model.rowEntries, Model.rowEntries, h.rowEntry, rowTerms_eq h hplaces]
  · rw [Model.variableEntries, Model.variableEntries, h.variableEntry, hcolumn]
  · rw [Model.rowEntryCount, Model.rowEntryCount, h.rowEntry, hrowCount]
  · rw [Model.variableEntryCount, Model.variableEntryCount, h.variableEntry, hcolumnCount]
  · rw [hn.matrix.count_rows (nodup_vidsWhere n _), hm.matrix.count_rows (nodup_vidsWhere m _), hrows]
    exact congrArg List.sum (List.map_congr_left fun row _ => hrowCount row)

end Places

/-! ### Writing in another order -/

/-- Two sequences of calls that differ only in the way in which they write coefficients. -/
structure Rewritten (calls more : List (Call R)) : Prop where
  /-- All calls that do not write coefficients are the same, in the same order. -/
  others : (more.filter fun c => !c.writes) = calls.filter fun c => !c.writes
  /-- The same number is left at each place; a zero is as if nothing had been written. -/
  left : ∀ row var, (lastWritten row var more).bind kept = (lastWritten row var calls).bind kept

namespace Rewritten

variable {calls more : List (Call R)}

theorem frame (h : Rewritten calls more) : SameFrame (performed calls) (performed more) :=
  sameFrame_of_others h.others

theorem places (h : Rewritten calls more) : SamePlaces (performed calls) (performed more) := by
  intro row var
  rw [get?_performed, get?_performed, h.left]

theorem listings (h : Rewritten calls more) : SameListings (performed calls) (performed more) :=
  h.frame.listings (reachable_performed calls).proper (reachable_performed more).proper h.places

/-- Only the places of rows and variables have to be compared. -/
theorem of_places (others : (more.filter fun c => !c.writes) = calls.filter fun c => !c.writes)
    (left : ∀ row ∈ (performed calls).rowVids, ∀ var ∈ (performed calls).variableVids,
      (lastWritten row var more).bind kept = (lastWritten row var calls).bind kept) : Rewritten calls more where
  others := others
  left row var := by
    by_cases hplace : row ∈ (performed calls).rowVids ∧ var ∈ (performed calls).variableVids
    · exact left row hplace.1 var hplace.2
    · -- Outside of the model nothing has been written.
      have hempty {made : List (Call R)} (hframe : SameFrame (performed calls) (performed made)) :
          (lastWritten row var made).bind kept = none := by
        rw [← get?_performed, Option.eq_none_iff_forall_not_mem]
        intro x hx
        have hinside := (reachable_performed made).proper.matrix.inside hx
        rw [rowVids, variableVids, hframe.vidsWhere, hframe.vidsWhere] at hinside
        exact hplace hinside
      rw [hempty (sameFrame_of_others others), hempty (.refl _)]

end Rewritten

end Optima.Model
