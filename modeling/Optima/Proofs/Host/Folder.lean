import Optima.Host.Folder
import Optima.Proofs.Action
import Optima.Proofs.Lookup

/-!
# Files that are read after they were written

A file that has been written is read with the text that was written (`read_write`).  The path leads to the same place
before and after: it goes through folders only, and the place that has been written to is not one of them.
-/

namespace Optima.Folder

/-- Putting an item at a place leaves the other places as they are. -/
theorem item?_put_of_ne (f : Folder) {place p : List String} (hne : p ≠ place) (item : Item) :
    (f.put place item).item? p = f.item? p := by
  cases p with
  | nil => rfl
  | cons name rest =>
    have hother : (name :: rest == place) = false := beq_false_of_ne hne
    show List.lookup (name :: rest) ((place, item) :: f.items.filter fun q => q.1 != place) = _
    rw [List.lookup_cons, hother]
    exact lookup_filter_ne hne f.items

theorem item?_put_self (f : Folder) {place : List String} (hplace : place ≠ []) (item : Item) :
    (f.put place item).item? place = some item := by
  cases place with
  | nil => exact absurd rfl hplace
  | cons name rest => exact List.lookup_cons_self

/-- A path leads where it led before when an item is put where no folder is. -/
theorem walk_put (f : Folder) {place : List String} (hplace : f.item? place ≠ some .folder) (item : Item)
    (path : String) (names start : List String) {found : List String} (h : f.walk path start names = .ok found) :
    (f.put place item).walk path start names = .ok found := by
  induction names generalizing start with
  | nil => exact h
  | cons name rest ih =>
    unfold walk at h ⊢
    cases hitem : f.item? start with
    | none =>
      rw [hitem] at h
      cases h
    | some i =>
      rw [hitem] at h
      cases i with
      | file text => cases h
      | folder =>
        have hne : start ≠ place := by
          rintro rfl
          exact hplace hitem
        rw [item?_put_of_ne f hne, hitem]
        simp only at h ⊢
        split at h
        · next hsame =>
          rw [if_pos hsame]
          exact ih start h
        · next hsame =>
          rw [if_neg hsame]
          split at h
          · next hup =>
            rw [if_pos hup]
            exact ih _ h
          · next hup =>
            rw [if_neg hup]
            exact ih _ h

/-- What a write does that goes through. -/
theorem write_eq_ok {f g : Folder} {path text : String} (h : f.write path text = .ok g) :
    ∃ place, f.locate path = .ok place ∧ namesFolder path = false ∧ f.item? place ≠ some .folder ∧
      g = f.put place (.file text) := by
  obtain ⟨place, hplace, hput⟩ := except_bind_eq_ok.1 (show (f.locate path >>= _) = .ok g from h)
  refine ⟨place, hplace, ?_⟩
  cases hfolder : namesFolder path with
  | true =>
    rw [hfolder] at hput
    cases hput
  | false =>
    rw [hfolder] at hput
    cases hitem : f.item? place with
    | none =>
      rw [hitem] at hput
      cases hput
      exact ⟨rfl, (Option.some_ne_none _).symm, rfl⟩
    | some i =>
      rw [hitem] at hput
      cases i with
      | folder => cases hput
      | file old =>
        cases hput
        exact ⟨rfl, by simp, rfl⟩

theorem read_eq_ok {f : Folder} {path text : String} {place : List String} (hlocate : f.locate path = .ok place)
    (hitem : f.item? place = some (.file text)) (hfolder : namesFolder path = false) : f.read path = .ok text := by
  unfold Folder.read
  rw [hlocate]
  simp only [bind, Except.bind, hitem, hfolder]
  rfl

/-- The same for the whole path. -/
theorem locate_put {f : Folder} {path : String} {place : List String} (hlocate : f.locate path = .ok place)
    (hplace : f.item? place ≠ some .folder) (item : Item) : (f.put place item).locate path = .ok place := by
  unfold locate at hlocate ⊢
  split at hlocate
  · cases hlocate
  · next hempty =>
    rw [if_neg hempty]
    exact walk_put f hplace item path _ _ hlocate

/-- What has been written is read. -/
theorem read_write {f g : Folder} {path text : String} (h : f.write path text = .ok g) :
    g.read path = .ok text := by
  obtain ⟨place, hlocate, hfolder, hitem, rfl⟩ := write_eq_ok h
  have hplace : place ≠ [] := by
    rintro rfl
    exact hitem rfl
  exact read_eq_ok (locate_put hlocate hitem _) (item?_put_self f hplace _) hfolder

/-! ### Files that are added to -/

/-- A path leads to a place for a file. -/
structure Fits (f : Folder) (path : String) (place : List String) : Prop where
  locate : f.locate path = .ok place
  name : namesFolder path = false
  item : f.item? place ≠ some .folder

/-- Text can be added at a place for a file. -/
theorem Fits.append {f : Folder} {path : String} {place : List String} (h : f.Fits path place) (text : String) :
    ∃ new, f.append path text = .ok (f.put place (.file new)) := by
  unfold Folder.append update
  rw [h.locate, h.name]
  simp only [bind, Except.bind, Bool.false_eq_true, ↓reduceIte]
  cases hitem : f.item? place with
  | none => exact ⟨"" ++ text, rfl⟩
  | some item =>
    cases item with
    | folder => exact absurd hitem h.item
    | file old => exact ⟨old ++ text, rfl⟩

/-- The place stays one for a file when a file is put there. -/
theorem Fits.put {f : Folder} {path : String} {place : List String} (h : f.Fits path place) (text : String) :
    (f.put place (.file text)).Fits path place := by
  have hplace : place ≠ [] := by
    rintro rfl
    exact h.item rfl
  refine ⟨locate_put h.locate h.item _, h.name, ?_⟩
  rw [item?_put_self f hplace]
  simp

/-- A path leads to a place for a file, or nothing can be added whatever it is. -/
theorem fits_or_refused (f : Folder) (path : String) :
    (∃ place, f.Fits path place) ∨ ∃ fault, ∀ text, f.append path text = .error fault := by
  unfold Folder.append update
  cases hlocate : f.locate path with
  | error fault => exact .inr ⟨fault, fun _ => rfl⟩
  | ok place =>
    cases hname : namesFolder path with
    | true => exact .inr ⟨.isFolder path, fun _ => rfl⟩
    | false =>
      by_cases hitem : f.item? place = some .folder
      · simp only [bind, Except.bind, hitem]
        exact .inr ⟨.isFolder path, fun _ => rfl⟩
      · exact .inl ⟨place, hlocate, hname, hitem⟩

/-- Why nothing can be added to a file, if so. -/
def refusal? (f : Folder) (path : String) : Option FileFault :=
  match f.append path "" with
  | .ok _ => none
  | .error fault => some fault

theorem Fits.refusal? {f : Folder} {path : String} {place : List String} (h : f.Fits path place) :
    f.refusal? path = none := by
  obtain ⟨new, happend⟩ := h.append ""
  rw [Folder.refusal?, happend]

/-- Text is added to a file, and then more can be added; or it is refused. -/
theorem append_cases (f : Folder) (path text : String) :
    (f.refusal? path = none ∧ ∃ g, f.append path text = .ok g ∧ g.refusal? path = none) ∨
      ∃ fault, f.refusal? path = some fault ∧ f.append path text = .error fault := by
  rcases f.fits_or_refused path with ⟨place, hfits⟩ | ⟨fault, hrefused⟩
  · obtain ⟨new, happend⟩ := hfits.append text
    exact .inl ⟨hfits.refusal?, _, happend, (hfits.put new).refusal?⟩
  · exact .inr ⟨fault, by rw [refusal?, hrefused], hrefused text⟩

end Optima.Folder
