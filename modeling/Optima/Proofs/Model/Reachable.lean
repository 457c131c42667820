import Mathlib.Data.List.Induction
import Optima.Model.Edit
import Optima.Proofs.Action
import Optima.Proofs.Model.Matrix

/-!
# Models that calls lead to

A model is reachable when a sequence of calls of its operations leads to it from the empty model; a call that stops
with a fault counts as well.  `Change` lists what one call can do to a model: nothing, a new entry at the end, a change
of one entry that leaves its key and its kind alone, one coefficient, or the goal.  Whatever holds of the empty model
and is kept by every change holds of every reachable model.

Two such facts are here: the two sides of the matrix agree, and a goal is on a row.
-/

namespace Optima.Model

variable {R : Type} [Scalar R]

/-- A call of an operation that changes a model. -/
inductive Call (R : Type) where
  | addVariable (key : Value R)
  | addRow (key sos : Value R)
  | setBounds (vid : Int) (lower upper : Value R)
  | setLower (vid : Int) (lower : Value R)
  | setUpper (vid : Int) (upper : Value R)
  | setIgnoresBounds (vid : Int) (ignores : Value R)
  | setInteger (vid : Int) (integer : Value R)
  | setBasic (vid : Int) (basic : Value R)
  | setValue (vid : Int) (value : Value R)
  | setCoefficient (row var : Int) (value : Value R)
  | addGoal (vid : Int) (priority minimize : Value R)
  | removeGoal (vid : Int)
  | clearGoals
  | setProperty (name : String) (vid : Int) (value : Value R)

/-- What a call does. -/
def Call.perform : Call R → Edit R Unit
  | addVariable key => do
    let _ ← Model.addVariable key
    pure ()
  | addRow key sos => do
    let _ ← Model.addRow key sos
    pure ()
  | setBounds vid lower upper => Model.setBounds vid lower upper
  | setLower vid lower => Model.setLower vid lower
  | setUpper vid upper => Model.setUpper vid upper
  | setIgnoresBounds vid ignores => Model.setIgnoresBounds vid ignores
  | setInteger vid integer => Model.setInteger vid integer
  | setBasic vid basic => Model.setBasic vid basic
  | setValue vid value => Model.setValue vid value
  | setCoefficient row var value => Model.setCoefficient row var value
  | addGoal vid priority minimize => do
    let _ ← Model.addGoal vid priority minimize
    pure ()
  | removeGoal vid => do
    let _ ← Model.removeGoal vid
    pure ()
  | clearGoals => Model.clearGoals
  | setProperty name vid value => Model.setProperty name vid value

/-- A model that calls lead to from the empty model, whether or not they stop with a fault. -/
inductive Reachable : Model R → Prop where
  | empty : Reachable .empty
  | call {m : Model R} (c : Call R) : Reachable m → Reachable (c.perform.after m)

/-- The model that calls lead to. -/
def performed (calls : List (Call R)) : Model R :=
  calls.foldl (fun m c => c.perform.after m) .empty

theorem reachable_performed (calls : List (Call R)) : (performed calls).Reachable := by
  suffices h : ∀ m : Model R, m.Reachable → (calls.foldl (fun m c => c.perform.after m) m).Reachable from
    h _ .empty
  induction calls with
  | nil => exact fun _ hm => hm
  | cons c calls ih => exact fun m hm => ih _ (hm.call c)

/-- Calls that mix variables with rows of all kinds: the goal moves from an ordinary row to a row with a set type. -/
def mixture : List (Call Extended) := [
  .addVariable (.text "x"), .addRow (.text "cap") (.ofMember SosType.none), .addVariable (.text "y"),
  .setInteger 2 (.flag true), .addRow (.text "pair") (.ofMember SosType.sos2),
  .addRow (.text "cost") (.ofMember SosType.sos1), .setCoefficient 1 2 (.integer 3), .setCoefficient 1 0 (.integer 2),
  .setCoefficient 3 2 (.integer 1), .setCoefficient 3 0 (.integer 2), .setCoefficient 4 2 (.integer 5),
  .setBounds 1 (.integer 0) (.integer 12), .addGoal 1 .nothing (.flag true), .removeGoal 1,
  .addGoal 4 .nothing (.flag false)]

/-! ### Entries -/

section Entries

omit [Scalar R]

theorem entry_eq_ok {m : Model R} {vid : Int} {e : Entry R} :
    m.entry vid = .ok e ↔ 0 ≤ vid ∧ m.entries[vid.toNat]? = some e := by
  unfold entry entry?
  by_cases h : vid < 0
  · simp [h, Int.not_le.2 h]
  · simp only [h, ↓reduceIte, Int.not_lt.1 h, true_and]
    cases m.entries[vid.toNat]? <;> simp

theorem rowEntry_eq_ok {m : Model R} {vid : Int} {e : Entry R} :
    m.rowEntry vid = .ok e ↔ 0 ≤ vid ∧ m.entries[vid.toNat]? = some e ∧ e.isRow = true := by
  simp only [rowEntry, except_bind_eq_ok, entry_eq_ok]
  constructor
  · rintro ⟨d, ⟨hvid, hd⟩, h⟩
    split at h
    · next hrow =>
      cases h
      exact ⟨hvid, hd, hrow⟩
    · cases h
  · rintro ⟨hvid, he, hrow⟩
    exact ⟨e, ⟨hvid, he⟩, by simp [hrow]; rfl⟩

theorem variableEntry_eq_ok {m : Model R} {vid : Int} {e : Entry R} :
    m.variableEntry vid = .ok e ↔ 0 ≤ vid ∧ m.entries[vid.toNat]? = some e ∧ e.isRow = false := by
  simp only [variableEntry, except_bind_eq_ok, entry_eq_ok]
  constructor
  · rintro ⟨d, ⟨hvid, hd⟩, h⟩
    split at h
    · cases h
    · next hrow =>
      cases h
      exact ⟨hvid, hd, by simpa using hrow⟩
  · rintro ⟨hvid, he, hrow⟩
    exact ⟨e, ⟨hvid, he⟩, by simp [hrow]; rfl⟩

theorem mem_vidsWhere {m : Model R} {p : Entry R → Bool} {vid : Nat} :
    vid ∈ m.vidsWhere p ↔ ∃ e, m.entries[vid]? = some e ∧ p e = true := by
  unfold vidsWhere
  rw [List.mem_filter, List.mem_range, Option.any_eq_true]
  constructor
  · exact fun h => h.2
  · exact fun ⟨e, he, hp⟩ => ⟨(List.getElem?_eq_some_iff.1 he).1, e, he, hp⟩

/-- A new entry is at the end of a listing, or not in it. -/
theorem vidsWhere_append (m : Model R) (e : Entry R) (p : Entry R → Bool) :
    (m.append e).vidsWhere p = m.vidsWhere p ++ if p e then [m.entries.length] else [] := by
  have hold : ∀ vid ∈ List.range m.entries.length, (m.append e).entries[vid]? = m.entries[vid]? :=
    fun vid h => List.getElem?_append_left (List.mem_range.1 h)
  have hnew : (m.append e).entries[m.entries.length]? = some e := List.getElem?_concat_length
  have hlength : (m.append e).entries.length = m.entries.length + 1 := List.length_append
  unfold vidsWhere
  rw [hlength, List.range_succ, List.filter_append]
  congr 1
  · exact List.filter_congr fun vid h => by rw [hold vid h]
  · rw [List.filter_singleton, hnew, Option.any_some]
    cases p e <;> rfl

theorem nodup_vidsWhere (m : Model R) (p : Entry R → Bool) : (m.vidsWhere p).Nodup :=
  List.nodup_range.filter _

theorem mem_rowVids {m : Model R} {vid : Nat} :
    vid ∈ m.rowVids ↔ ∃ e, m.entries[vid]? = some e ∧ e.isRow = true := mem_vidsWhere

theorem mem_variableVids {m : Model R} {vid : Nat} :
    vid ∈ m.variableVids ↔ ∃ e, m.entries[vid]? = some e ∧ e.isRow = false := by
  simp [variableVids, mem_vidsWhere]

/-- An entry is a variable or a row, and not both. -/
theorem variableVids_disjoint (m : Model R) : m.variableVids.Disjoint m.rowVids := by
  intro vid hvar hrow
  obtain ⟨d, hd, hfalse⟩ := mem_variableVids.1 hvar
  obtain ⟨e, he, htrue⟩ := mem_rowVids.1 hrow
  obtain rfl := Option.some.inj (hd.symm.trans he)
  rw [hfalse] at htrue
  cases htrue

/-- A listing stays when one entry is changed and goes on to have the property or not to have it. -/
theorem vidsWhere_modify {m : Model R} {vid : Nat} {e : Entry R} (he : m.entries[vid]? = some e)
    {p : Entry R → Bool} {f : Entry R → Entry R} (hp : p (f e) = p e) :
    ({ m with entries := m.entries.modify vid f } : Model R).vidsWhere p = m.vidsWhere p := by
  simp only [vidsWhere, List.length_modify]
  apply List.filter_congr
  intro v _
  rw [List.getElem?_modify]
  by_cases hv : vid = v
  · subst hv
    simp [he, hp]
  · simp [hv]

end Entries

/-! ### What a call can do -/

/-- What a call that goes through does besides changing the entries it is told to change. -/
inductive Effect (R : Type) where
  | nothing
  /-- A vid has been handed out. -/
  | handed (vid : Nat)
  /-- A coefficient has been written. -/
  | wrote (row var : Nat) (x : R)

/-- An operation hands out the vid that it returns. -/
def handing (act : Edit R Nat) (m : Model R) : Effect R :=
  match act m with
  | .ok vid _ => .handed vid
  | .error .. => .nothing

/-- What a call does that is made on a model; a call that stops with a fault has no effect. -/
def Call.effect (m : Model R) : Call R → Effect R
  | addVariable key => handing (Model.addVariable key) m
  | addRow key sos => handing (Model.addRow key sos) m
  | setCoefficient row var value =>
    match Model.setCoefficient row var value m, value.toReal with
    | .ok .., .ok x => .wrote row.toNat var.toNat x
    | _, _ => .nothing
  | _ => .nothing

/-- What a call can do to a model. -/
inductive Change (m : Model R) : Effect R → Model R → Prop where
  | nothing : Change m .nothing m
  /-- The key of a new entry names an entry already. -/
  | known (key : Value R) (vid : Nat) (hkey : key.isKey = true) (hknown : m.find? key = some vid) :
      Change m (.handed vid) m
  /-- A new entry, whose key names no other entry. -/
  | add (key : Value R) (role : Role) (hkey : key.isKey = true) (hnew : m.find? key = none)
      (hrole : role = .newVariable ∨ ∃ sos, role = .row sos) :
      Change m (.handed m.entries.length) (m.append (Entry.new key role))
  /-- An entry gets bounds that are in order. -/
  | bounds (vid : Nat) (e : Entry R) (he : m.entries[vid]? = some e) (lower upper : R)
      (hlower : Scalar.isNaN lower = false) (hupper : Scalar.isNaN upper = false)
      (horder : Scalar.lt upper lower = false) :
      Change m .nothing { m with entries := m.entries.modify vid fun e => { e with lower := lower, upper := upper } }
  /-- A variable gets other flags. -/
  | flags (vid : Nat) (e : Entry R) (he : m.entries[vid]? = some e) (hvar : e.isRow = false)
      (integer ignores : Bool) :
      Change m .nothing { m with entries := m.entries.modify vid fun e => { e with role := .variable integer ignores } }
  | basic (vid : Nat) (e : Entry R) (he : m.entries[vid]? = some e) (basic : Bool) :
      Change m .nothing { m with entries := m.entries.modify vid fun e => { e with basic := basic } }
  | value (vid : Nat) (e : Entry R) (he : m.entries[vid]? = some e) (value : R) :
      Change m .nothing
        { m with entries := m.entries.modify vid fun e => { e with value := value, state := .defined } }
  | coefficient (row var : Nat) (hrow : row ∈ m.rowVids) (hvar : var ∈ m.variableVids) (value : R) :
      Change m (.wrote row var value) { m with matrix := m.matrix.set row var value }
  /-- A row gets the goal of a model that has none. -/
  | goal (vid : Nat) (e : Entry R) (he : m.entries[vid]? = some e) (hrow : e.isRow = true) (hnone : m.goal = none)
      (priority : Value R) (minimize : Bool) :
      Change m .nothing { m with goal := some ⟨e.key, vid, priority, minimize, true⟩ }
  | noGoal : Change m .nothing { m with goal := none }

private theorem change_add (m : Model R) (key : Value R) {role : Role}
    (hrole : role = .newVariable ∨ ∃ sos, role = .row sos) :
    Change m (handing (add key role) m) ((add key role).after m) := by
  by_cases hkey : key.isKey = true
  · cases hfind : m.find? key with
    | some vid =>
      have hrun : add key role m = .ok vid m := by simp [add, lookup?, hkey, hfind]
      rw [Action.after_ok hrun, handing, hrun]
      exact .known key vid hkey hfind
    | none =>
      have hrun : add key role m = .ok m.entries.length (m.append (Entry.new key role)) := by
        simp [add, lookup?, hkey, hfind]
        rfl
      rw [Action.after_ok hrun, handing, hrun]
      exact .add key role hkey hfind hrole
  · have hrun : add key role m = .error .wrongKind m := by simp [add, lookup?, hkey]
    rw [Action.after_error hrun, handing, hrun]
    exact .nothing

private theorem change_setBounds (m : Model R) (vid : Int) (lower upper : Value R) :
    Change m .nothing ((setBounds vid lower upper).after m) := by
  unfold setBounds
  cases lower.toReal with
  | error fault => exact .nothing
  | ok l =>
    cases upper.toReal with
    | error fault => exact .nothing
    | ok u =>
      simp only [Action.after_lift_ok_bind, Action.after_ite, Action.after_throw_bind, Action.after_get_bind]
      split
      · exact .nothing
      · next hnan =>
        rw [Bool.or_eq_true, not_or, Bool.not_eq_true, Bool.not_eq_true] at hnan
        split
        · exact .nothing
        · next horder =>
          cases he : m.entry vid with
          | error fault => exact .nothing
          | ok e => exact .bounds _ e (entry_eq_ok.1 he).2 l u hnan.1 hnan.2 (Bool.not_eq_true _ ▸ horder)

private theorem change_setLower (m : Model R) (vid : Int) (lower : Value R) :
    Change m .nothing ((setLower vid lower).after m) := by
  unfold setLower
  cases he : m.entry vid with
  | error fault => simpa [he] using Change.nothing
  | ok e => simpa [he] using change_setBounds m vid lower (.real e.upper)

private theorem change_setUpper (m : Model R) (vid : Int) (upper : Value R) :
    Change m .nothing ((setUpper vid upper).after m) := by
  unfold setUpper
  cases he : m.entry vid with
  | error fault => simpa [he] using Change.nothing
  | ok e => simpa [he] using change_setBounds m vid (.real e.lower) upper

private theorem change_setIgnoresBounds (m : Model R) (vid : Int) (ignores : Value R) :
    Change m .nothing ((setIgnoresBounds vid ignores).after m) := by
  unfold setIgnoresBounds
  cases he : m.variableEntry vid with
  | error fault => simpa [he] using Change.nothing
  | ok e =>
    obtain ⟨-, hm, hvar⟩ := variableEntry_eq_ok.1 he
    simpa [he, modifyEntry] using Change.flags _ e hm hvar e.integer ignores.truth

private theorem change_setInteger (m : Model R) (vid : Int) (integer : Value R) :
    Change m .nothing ((setInteger vid integer).after m) := by
  unfold setInteger
  cases he : m.variableEntry vid with
  | error fault => simpa [he] using Change.nothing
  | ok e =>
    obtain ⟨-, hm, hvar⟩ := variableEntry_eq_ok.1 he
    simpa [he, modifyEntry] using Change.flags _ e hm hvar integer.truth e.ignoresBounds

private theorem change_setBasic (m : Model R) (vid : Int) (basic : Value R) :
    Change m .nothing ((setBasic vid basic).after m) := by
  unfold setBasic
  cases he : m.entry vid with
  | error fault => simpa [he] using Change.nothing
  | ok e => simpa [he, modifyEntry] using Change.basic _ e (entry_eq_ok.1 he).2 basic.truth

private theorem change_setValue (m : Model R) (vid : Int) (value : Value R) :
    Change m .nothing ((setValue vid value).after m) := by
  unfold setValue
  cases he : m.entry vid with
  | error fault => simpa [he] using Change.nothing
  | ok e =>
    cases hx : value.toReal with
    | error fault => simpa [he, hx] using Change.nothing
    | ok x => simpa [he, hx, modifyEntry] using Change.value _ e (entry_eq_ok.1 he).2 x

private theorem change_setCoefficient (m : Model R) (row var : Int) (value : Value R) :
    Change m ((Call.setCoefficient row var value).effect m) ((setCoefficient row var value).after m) := by
  have hfailed (fault : Fault) (hrun : setCoefficient row var value m = .error fault m) :
      Change m ((Call.setCoefficient row var value).effect m) ((setCoefficient row var value).after m) := by
    rw [Action.after_error hrun, Call.effect, hrun]
    exact .nothing
  cases hr : m.rowEntry row with
  | error fault => exact hfailed fault (by simp [setCoefficient, hr])
  | ok r =>
    cases hv : m.variableEntry var with
    | error fault => exact hfailed fault (by simp [setCoefficient, hr, hv])
    | ok v =>
      cases hx : value.toReal with
      | error fault => exact hfailed fault (by simp [setCoefficient, hr, hv, hx])
      | ok x =>
        have hrow := mem_rowVids.2 ⟨r, (rowEntry_eq_ok.1 hr).2⟩
        have hvar := mem_variableVids.2 ⟨v, (variableEntry_eq_ok.1 hv).2⟩
        have hrun : setCoefficient row var value m =
            .ok ⟨⟩ { m with matrix := m.matrix.set row.toNat var.toNat x } := by
          simp [setCoefficient, hr, hv, hx]
          rfl
        rw [Action.after_ok hrun, Call.effect, hrun, hx]
        exact .coefficient _ _ hrow hvar x

private theorem change_addGoal (m : Model R) (vid : Int) (priority minimize : Value R) :
    Change m .nothing ((addGoal vid priority minimize).after m) := by
  unfold addGoal
  cases he : m.rowEntry vid with
  | error fault => simpa [he] using Change.nothing
  | ok e =>
    obtain ⟨-, hm, hrow⟩ := rowEntry_eq_ok.1 he
    cases hg : m.goal with
    | some g => simpa [he, hg] using Change.nothing
    | none => simpa [he, hg] using Change.goal _ e hm hrow hg priority minimize.truth

private theorem change_removeGoal (m : Model R) (vid : Int) : Change m .nothing ((removeGoal vid).after m) := by
  unfold removeGoal
  by_cases h : m.isGoal vid = true
  · simpa [h] using Change.noGoal
  · simpa [h] using Change.nothing

/-- What a call leaves of a model is a change of it. -/
theorem Call.change (c : Call R) (m : Model R) : Change m (c.effect m) (c.perform.after m) := by
  cases c with
  | addVariable key =>
    simp only [perform, Action.after_bind_pure]
    exact change_add m key (.inl rfl)
  | addRow key sos =>
    simp only [perform, Action.after_bind_pure, effect]
    unfold Model.addRow
    cases sos.toMember SosType with
    | error fault => exact .nothing
    | ok s => exact change_add m key (.inr ⟨s, rfl⟩)
  | setBounds vid lower upper => exact change_setBounds m vid lower upper
  | setLower vid lower => exact change_setLower m vid lower
  | setUpper vid upper => exact change_setUpper m vid upper
  | setIgnoresBounds vid ignores => exact change_setIgnoresBounds m vid ignores
  | setInteger vid integer => exact change_setInteger m vid integer
  | setBasic vid basic => exact change_setBasic m vid basic
  | setValue vid value => exact change_setValue m vid value
  | setCoefficient row var value => exact change_setCoefficient m row var value
  | addGoal vid priority minimize =>
    simp only [perform, Action.after_bind_pure]
    exact change_addGoal m vid priority minimize
  | removeGoal vid =>
    simp only [perform, Action.after_bind_pure]
    exact change_removeGoal m vid
  | clearGoals => exact .noGoal
  | setProperty name vid value =>
    simp only [perform, Model.setProperty]
    cases Property.ofName? name with
    | none => exact .nothing
    | some property =>
      cases property with
      | lowerBound => exact change_setLower m vid value
      | upperBound => exact change_setUpper m vid value

/-- What holds of the empty model and is kept by every change holds of every reachable model. -/
theorem Reachable.induct {p : Model R → Prop} (hempty : p .empty)
    (hchange : ∀ {m n : Model R} {effect : Effect R}, p m → Change m effect n → p n) {m : Model R}
    (h : m.Reachable) : p m := by
  induction h with
  | empty => exact hempty
  | call c _ ih => exact hchange ih (c.change _)

/-! ### Calls one after the other -/

/-- The effects of calls, the first of which is made on a model. -/
def effectsFrom (m : Model R) : List (Call R) → List (Effect R)
  | [] => []
  | c :: calls => c.effect m :: effectsFrom (c.perform.after m) calls

/-- The effects of calls, in their order. -/
def effects (calls : List (Call R)) : List (Effect R) :=
  effectsFrom .empty calls

theorem performed_concat (calls : List (Call R)) (c : Call R) :
    performed (calls ++ [c]) = c.perform.after (performed calls) :=
  List.foldl_concat ..

theorem effects_concat (calls : List (Call R)) (c : Call R) :
    effects (calls ++ [c]) = effects calls ++ [c.effect (performed calls)] := by
  suffices h : ∀ m : Model R, effectsFrom m (calls ++ [c]) =
      effectsFrom m calls ++ [c.effect (calls.foldl (fun m c => c.perform.after m) m)] from h _
  induction calls with
  | nil => exact fun m => rfl
  | cons d calls ih => exact fun m => congrArg (d.effect m :: ·) (ih _)

omit [Scalar R] in
theorem filterMap_concat {α : Type} (f : Effect R → Option α) (es : List (Effect R)) (e : Effect R) :
    (es ++ [e]).filterMap f = es.filterMap f ++ (f e).toList := by
  rw [List.filterMap_append, List.filterMap_cons]
  cases f e <;> rfl

/-- What holds before any call and goes on to hold with every change holds after calls, of their effects and of the
model that they lead to. -/
theorem performed_induct {p : List (Effect R) → Model R → Prop} (hempty : p [] .empty)
    (hchange : ∀ {es : List (Effect R)} {m n : Model R} {e : Effect R}, m.Reachable → p es m → Change m e n →
      p (es ++ [e]) n) (calls : List (Call R)) : p (effects calls) (performed calls) := by
  induction calls using List.reverseRecOn with
  | nil => exact hempty
  | append_singleton calls c ih =>
    rw [effects_concat, performed_concat]
    exact hchange (reachable_performed calls) ih (c.change _)

/-! ### Coefficients and goals -/

/-- The two sides of the matrix agree, and the goal is on a row. -/
structure Proper (m : Model R) : Prop where
  matrix : m.matrix.Sound m.rowVids m.variableVids
  goal : ∀ g, m.goal = some g → g.row ∈ m.rowVids

variable {effect : Effect R}

theorem Change.rowVids_subset {m n : Model R} (h : Change m effect n) {vid : Nat} (hvid : vid ∈ m.rowVids) :
    vid ∈ n.rowVids := by
  cases h with
  | add key role hkey hnew hrole =>
    rw [rowVids, vidsWhere_append]
    exact List.mem_append_left _ hvid
  | bounds v e he | basic v e he | value v e he =>
    rw [rowVids, vidsWhere_modify he rfl]
    exact hvid
  | flags v e he hvar =>
    rw [rowVids, vidsWhere_modify he (by rw [hvar]; rfl)]
    exact hvid
  | nothing | known | coefficient | goal | noGoal => exact hvid

/-- The matrix of a model with one more entry has one more line. -/
theorem sound_append {m : Model R} (h : m.matrix.Sound m.rowVids m.variableVids) (e : Entry R) :
    (m.append e).matrix.Sound (m.append e).rowVids (m.append e).variableVids := by
  unfold rowVids variableVids at h ⊢
  rw [vidsWhere_append, vidsWhere_append, append]
  cases he : e.isRow with
  | true => simpa [he] using h.addRow m.entries.length
  | false => simpa [he] using h.addColumn m.entries.length

theorem Change.sound {m n : Model R} (hm : m.matrix.Sound m.rowVids m.variableVids) (h : Change m effect n) :
    n.matrix.Sound n.rowVids n.variableVids := by
  cases h with
  | add key role hkey hnew hrole => exact sound_append hm _
  | bounds v e he | basic v e he | value v e he =>
    rw [rowVids, variableVids, vidsWhere_modify he rfl, vidsWhere_modify he rfl]
    exact hm
  | flags v e he hvar =>
    rw [rowVids, variableVids, vidsWhere_modify he (by rw [hvar]; rfl), vidsWhere_modify he (by rw [hvar]; rfl)]
    exact hm
  | coefficient row var hrow hvar value => exact hm.set hrow hvar value
  | nothing | known | goal | noGoal => exact hm

theorem Change.proper {m n : Model R} (hm : m.Proper) (h : Change m effect n) : n.Proper := by
  refine ⟨h.sound hm.matrix, ?_⟩
  intro g hg
  have hsub : m.rowVids ⊆ n.rowVids := fun _ => h.rowVids_subset
  cases h with
  | goal vid e he hrow hnone priority minimize =>
    obtain rfl := Option.some.inj hg
    exact mem_rowVids.2 ⟨e, he, hrow⟩
  | noGoal => cases hg
  | _ => exact hsub (hm.goal g hg)

theorem Reachable.proper {m : Model R} (h : m.Reachable) : m.Proper := by
  refine h.induct ⟨.empty, ?_⟩ Change.proper
  intro g hg
  cases hg

end Optima.Model
