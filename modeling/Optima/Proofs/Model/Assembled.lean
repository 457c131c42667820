import Optima.Model.Assemble
import Optima.Proofs.Model.Adding

/-!
# Models from plain data, read back

When a model is made from plain data and nothing stops, what does it hold?  Each variable has an entry, with the bounds
zero and infinity, and each row has one with its bounds and its coefficients; the objective has a further row with the
goal on it.  But this is so only as far as keys are not shared: variables, rows and the objective take their keys from
one table, and a row whose key is in use is written over the entry that has it.  Two rows with one key make one row,
with the bounds of the second and the coefficients of both.

The main theorem is `assemble_ok`.  It counts the entries and the rows of every model that is made, says which entry
each row with a key of its own has and that this entry holds exactly what was given, and where the goal is.  When no
row shares its key this is all that was asked for.  The proof goes through the models after the variables, after the
rows and after the objective (`Stages`); what the keys that come later leave alone is said by `Advances`.
-/

namespace Optima

/-- The coefficient that terms give a key: the last one, if there is one. -/
def Terms.at? {R : Type} [Scalar R] : Terms R → Value R → Option R
  | [], _ => none
  | t :: terms, key => (Terms.at? terms key).or (if t.1.same key then t.2.toReal.toOption else none)

/-- Scalars whose zero is the number zero. -/
class Zeroed (R : Type) [Scalar R] : Prop where
  ofInt?_zero : Scalar.ofInt? 0 = some (Scalar.zero : R)

instance : Zeroed Extended := ⟨by decide +kernel⟩

instance : Zeroed Float := ⟨by decide +kernel⟩

namespace Model

open Line (kept)

variable {R : Type} [Scalar R]

/-! ### What the operations write -/

theorem setBounds_ok {m n : Model R} {vid : Nat} {lower upper : Value R}
    (hrun : setBounds vid lower upper m = .ok ⟨⟩ n) :
    ∃ l u e, lower.toReal = .ok l ∧ upper.toReal = .ok u ∧ m.entries[vid]? = some e ∧
      n = { m with entries := m.entries.modify vid fun e => { e with lower := l, upper := u } } := by
  unfold setBounds at hrun
  obtain ⟨l, hl, hrun⟩ := Action.lift_bind_eq_ok.1 hrun
  obtain ⟨u, hu, hrun⟩ := Action.lift_bind_eq_ok.1 hrun
  split at hrun
  · cases hrun
  · split at hrun
    · cases hrun
    · obtain ⟨e, he, hwrite⟩ := Action.lift_bind_eq_ok.1
        (show (Action.lift (m.entry vid) >>= fun _ => modifyEntry vid _) m = .ok ⟨⟩ n from hrun)
      cases hwrite
      exact ⟨l, u, e, hl, hu, entry_natCast.1 he, rfl⟩

theorem writes_bounds {m : Model R} (hm : m.Reachable) {vid : Nat} {lower upper : Value R} {n : Model R}
    (hrun : setBounds vid lower upper m = .ok ⟨⟩ n) : Writes vid m n := by
  have hreachable : n.Reachable := Action.after_ok hrun ▸ hm.call (.setBounds vid lower upper)
  obtain ⟨l, u, e, -, -, he, rfl⟩ := setBounds_ok hrun
  refine ⟨hreachable, rfl, rfl, List.length_modify .., vidsWhere_modify he rfl, kept_modify he ⟨rfl, rfl, rfl⟩, ?_⟩
  intro v hv
  exact ⟨by simp [Ne.symm hv], fun _ => rfl⟩

theorem setCoefficient_ok {m n : Model R} {row var : Nat} {value : Value R}
    (hrun : setCoefficient row var value m = .ok ⟨⟩ n) :
    ∃ x, value.toReal = .ok x ∧ row ∈ m.rowVids ∧ var ∈ m.variableVids ∧
      n = { m with matrix := m.matrix.set row var x } := by
  unfold setCoefficient at hrun
  rw [Action.get_bind_run] at hrun
  obtain ⟨r, hr, hrun⟩ := Action.lift_bind_eq_ok.1 hrun
  obtain ⟨v, hv, hrun⟩ := Action.lift_bind_eq_ok.1 hrun
  obtain ⟨x, hx, hrun⟩ := Action.lift_bind_eq_ok.1 hrun
  cases hrun
  exact ⟨x, hx, mem_rowVids.2 ⟨r, (rowEntry_eq_ok.1 hr).2⟩, mem_variableVids.2 ⟨v, (variableEntry_eq_ok.1 hv).2⟩, rfl⟩

/-- The coefficients of terms have been written into a row, over those that were there. -/
structure TermsWritten (row : Nat) (terms : Terms R) (m n : Model R) : Prop where
  writes : Writes row m n
  entries : n.entries = m.entries
  named : ∀ key var, m.find? key = some var →
    n.matrix.get? row var = (terms.at? key).elim (m.matrix.get? row var) kept
  unnamed : ∀ var, (∀ t ∈ terms, m.find? t.1 ≠ some var) → n.matrix.get? row var = m.matrix.get? row var

/-- Terms are written one after the other. -/
theorem setTerms_cons (row : Nat) (t : Value R × Value R) (terms : Terms R) :
    setTerms row (t :: terms) =
      (get >>= fun m => Action.lift (m.lookup t.1) >>= fun var : Nat => setCoefficient row var t.2) >>= fun _ =>
        setTerms row terms := rfl

theorem setTerms_ok {m n : Model R} (hm : m.Reachable) {row : Nat} {terms : Terms R}
    (hrun : setTerms row terms m = .ok ⟨⟩ n) : TermsWritten row terms m n := by
  induction terms generalizing m with
  | nil =>
    cases hrun
    exact ⟨.refl hm, rfl, fun _ _ _ => rfl, fun _ _ => rfl⟩
  | cons t terms ih =>
    rw [setTerms_cons] at hrun
    obtain ⟨⟨⟩, k, hone, hrest⟩ := Action.bind_eq_ok.1 hrun
    obtain ⟨var, hvar, hone⟩ := Action.lift_bind_eq_ok.1 hone
    have hk : k.Reachable := Action.after_ok hone ▸ hm.call (.setCoefficient row var t.2)
    obtain ⟨x, hx, hrow, -, rfl⟩ := setCoefficient_ok hone
    have hfind := (lookup_eq_ok.1 hvar).2
    have hplace (r v : Nat) := Matrix.get?_set (hm.proper.matrix.rowLines.symm ▸ hrow) var x r v
    obtain ⟨hwrites, hentries, hnamed, hunnamed⟩ := ih hk hrest
    have hfirst : Writes row m { m with matrix := m.matrix.set row var x } := by
      refine ⟨hk, rfl, rfl, rfl, rfl, fun _ d hd => ⟨d, hd, rfl, rfl, rfl⟩, fun v hv => ⟨rfl, fun w => ?_⟩⟩
      rw [hplace, beq_false_of_ne hv]
      rfl
    refine ⟨hfirst.trans hwrites, hentries, fun key w hw => ?_, fun w hw => ?_⟩
    · have hsame := hm.named.find?_inj hfind hw
      rw [hnamed key w hw, hplace, Terms.at?, BEq.rfl, Bool.true_and, hx]
      cases Terms.at? terms key with
      | some y => rfl
      | none =>
        by_cases hvar : t.1.same key = true
        · obtain rfl := hsame.1 hvar
          simp [hvar, Except.toOption]
        · have hne : (w == var) = false := beq_false_of_ne fun h => hvar (hsame.2 h.symm)
          simp [hvar, hne]
    · rw [hunnamed w fun s hs => hw s (List.mem_cons_of_mem _ hs), hplace]
      have hne : w ≠ var := by
        rintro rfl
        exact hw t (List.mem_cons_self ..) hfind
      rw [beq_false_of_ne hne, Bool.and_false]
      rfl

/-! ### Rows -/

/-- The row with a key has these bounds, and exactly the coefficients of these terms. -/
structure RowOf (m : Model R) (keys : List (Value R)) (vid : Nat) (key : Value R) (lower upper : R)
    (terms : Terms R) : Prop where
  entry : ∃ e, m.entry vid = .ok e ∧ e.isRow = true ∧ e.sos = .none ∧ e.key = key ∧ e.lower = lower ∧ e.upper = upper
  /-- A key that the terms do not name has the coefficient zero. -/
  coefficient : ∀ k ∈ keys, ∀ var : Nat, m.lookup k = .ok var →
    m.coefficient vid var = ((terms.at? k).bind kept).getD Scalar.zero
  named : ∀ var x, (var, x) ∈ m.rowTerms vid → ∃ t ∈ terms, m.lookup t.1 = .ok var

/-- A row stays as it is while keys are added that do not clash with its own. -/
theorem RowOf.advances {m n : Model R} {keys before more : List (Value R)} {isRow : Bool} {vid : Nat} {key : Value R}
    {lower upper : R} {terms : Terms R} (h : RowOf m keys vid key lower upper terms) (hm : Knows m before)
    (hkeys : ∀ k ∈ keys, k ∈ before) (hadv : Advances isRow before more m n)
    (hclash : ∀ k ∈ more, key.clashes k = false) : RowOf n keys vid key lower upper terms := by
  obtain ⟨e, he, hrow, hsos, rfl, hbounds⟩ := h.entry
  have huntouched := hadv.untouched vid e (entry_natCast.1 he) hclash
  refine ⟨⟨e, entry_natCast.2 (huntouched.entry.trans (entry_natCast.1 he)), hrow, hsos, rfl, hbounds⟩, ?_, ?_⟩
  · intro k hk var hvar
    obtain ⟨hkey, hfind⟩ := lookup_eq_ok.1 hvar
    rw [← h.coefficient k hk var (lookup_eq_ok.2 ⟨hkey, hadv.find?_back hm (hkeys k hk) hfind⟩)]
    simp only [Model.coefficient, Int.toNat_natCast, huntouched.row]
  · intro var x hmem
    have hget := (Matrix.mem_rowEntries.1 hmem).2
    rw [huntouched.row] at hget
    have hinside := hm.reachable.proper.matrix.inside hget
    obtain ⟨t, ht, hvar⟩ := h.named var x (Matrix.mem_rowEntries.2 ⟨hinside.2, hget⟩)
    obtain ⟨hkey, hfind⟩ := lookup_eq_ok.1 hvar
    exact ⟨t, ht, lookup_eq_ok.2 ⟨hkey, hadv.find? hfind⟩⟩

/-- Terms that are written into a row without coefficients are all that it has. -/
theorem TermsWritten.rowOf {m n : Model R} (hm : m.Reachable) {vid : Nat} {terms : Terms R}
    (h : TermsWritten vid terms m n) (hempty : ∀ var, m.matrix.get? vid var = none) {e : Entry R}
    (he : m.entries[vid]? = some e) (hrow : e.isRow = true) (hsos : e.sos = .none) (keys : List (Value R)) :
    RowOf n keys vid e.key e.lower e.upper terms := by
  refine ⟨⟨e, entry_natCast.2 (by rw [h.entries, he]), hrow, hsos, rfl, rfl, rfl⟩, ?_, ?_⟩
  · intro k _ var hvar
    have hfind := (lookup_eq_ok.1 hvar).2
    rw [h.writes.find?] at hfind
    have hget := h.named k var hfind
    rw [hempty] at hget
    have hkept : (Terms.at? terms k).elim none kept = (Terms.at? terms k).bind kept := by
      cases Terms.at? terms k <;> rfl
    rw [Model.coefficient, if_neg (by omega), Int.toNat_natCast, Int.toNat_natCast, hget, hkept]
  · intro var x hmem
    have hget := (Matrix.mem_rowEntries.1 hmem).2
    by_contra hnone
    have hother : n.matrix.get? vid var = m.matrix.get? vid var := by
      refine h.unnamed var fun t ht hfind => hnone ⟨t, ht, lookup_eq_ok.2 ⟨hm.named.isKey_of_find? hfind, ?_⟩⟩
      rw [h.writes.find?, hfind]
    rw [hother, hempty] at hget
    cases hget

/-- A row that is not there has no coefficients. -/
theorem Reachable.get?_append_new {m : Model R} (hm : m.Reachable) (e : Entry R) (var : Nat) :
    (m.append e).matrix.get? m.entries.length var = none := by
  rw [get?_append, Option.eq_none_iff_forall_not_mem]
  intro x hx
  obtain ⟨d, hd, -⟩ := mem_rowVids.1 (hm.proper.matrix.inside hx).1
  exact Nat.lt_irrefl _ (List.getElem?_eq_some_iff.1 hd).1

/-! ### The parts of a model -/

/-- Adds a variable with the bounds zero and infinity. -/
def placeVariable (key : Value R) : Edit R Unit := do
  let vid ← addVariable key
  setBounds vid (.integer 0) (.real Scalar.infinity)

/-- Adds a row with its bounds and its coefficients. -/
def placeRow (row : RowData R) : Edit R Unit := do
  let vid ← addRow row.key (.integer 0)
  setBounds vid row.lower row.upper
  setTerms vid row.terms

/-- Adds the row of the objective, and puts the goal on it. -/
def placeObjective (minimize : Value R) (terms : Terms R) : Edit R Unit := do
  let vid ← addRow objectiveKey (.integer 0)
  setTerms vid terms
  let _ ← addGoal vid (.integer 0) minimize

theorem fill_eq (keys : List (Value R)) (rows : List (RowData R)) (objective : Option (Terms R))
    (minimize : Value R) :
    fill keys rows objective minimize = (keys.forM placeVariable >>= fun _ => rows.forM placeRow >>= fun _ =>
      match objective with
      | none => pure ()
      | some terms => placeObjective minimize terms) := rfl

/-- A call for the sake of its answer leads on to a reachable model. -/
theorem Reachable.of_answer {α : Type} {act : Edit R α} {c : Call R} {m n : Model R} {a : α} (hm : m.Reachable)
    (hc : c.perform = act >>= fun _ => (pure () : Edit R Unit)) (hrun : act m = .ok a n) : n.Reachable := by
  have hafter : c.perform.after m = n := by rw [hc, Action.after_bind_pure, Action.after_ok hrun]
  exact hafter ▸ hm.call c

theorem addRow_ok {m n : Model R} (hm : m.Reachable) {key : Value R} {vid : Nat}
    (hrun : addRow key (.integer 0) m = .ok vid n) :
    key.isKey = true ∧ Found m key (.row .none) vid n ∧ n.Reachable := by
  have hsos : (Value.integer 0 : Value R).toMember SosType = .ok .none := rfl
  have hadd : add key (.row .none) m = .ok vid n := by
    unfold addRow at hrun
    rwa [hsos] at hrun
  obtain ⟨hkey, hfound⟩ := add_ok hadd
  exact ⟨hkey, hfound, hm.of_answer (c := .addRow key (.integer 0)) rfl hrun⟩

theorem placeVariable_advances (key : Value R) {before : List (Value R)} {m n : Model R} (hm : Knows m before)
    (hrun : placeVariable key m = .ok ⟨⟩ n) : Advances false before [key] m n := by
  obtain ⟨vid, base, hadd, hbounds⟩ := Action.bind_eq_ok.1 hrun
  obtain ⟨hkey, hfound⟩ := add_ok hadd
  have hbase := hm.reachable.of_answer (c := .addVariable key) rfl hadd
  exact hm.advances hkey hfound (writes_bounds hbase hbounds)

/-- A row is added, or an entry gets other bounds and its row more coefficients. -/
theorem placeRow_ok {row : RowData R} {before : List (Value R)} {m n : Model R} (hm : Knows m before)
    (hrun : placeRow row m = .ok ⟨⟩ n) : Advances true before [row.key] m n ∧
      ∃ l u, row.lower.toReal = .ok l ∧ row.upper.toReal = .ok u ∧
        (m.find? row.key = none → ∀ keys, RowOf n keys m.entries.length row.key l u row.terms) := by
  obtain ⟨vid, base, hadd, hrest⟩ := Action.bind_eq_ok.1 hrun
  obtain ⟨⟨⟩, bounded, hbounds, hterms⟩ := Action.bind_eq_ok.1 hrest
  obtain ⟨hkey, hfound, hbase⟩ := addRow_ok hm.reachable hadd
  have hwrites := writes_bounds hbase hbounds
  have hwritten := setTerms_ok hwrites.reachable hterms
  refine ⟨hm.advances hkey hfound (hwrites.trans hwritten.writes), ?_⟩
  obtain ⟨l, u, e, hl, hu, he, rfl⟩ := setBounds_ok hbounds
  refine ⟨l, u, hl, hu, fun hfree keys => ?_⟩
  obtain ⟨rfl, rfl⟩ := hfound.of_free hfree
  obtain rfl : e = Entry.new row.key (.row .none) := by
    rcases append_get.1 he with hold | ⟨-, hnew⟩
    · exact absurd (List.getElem?_eq_some_iff.1 hold).1 (Nat.lt_irrefl _)
    · exact hnew
  exact hwritten.rowOf hwrites.reachable (hm.reachable.get?_append_new _) ((modify_get he _).2 (.inl ⟨rfl, rfl⟩))
    rfl rfl keys

theorem placeRows_advances {rows : List (RowData R)} {before : List (Value R)} {m n : Model R} (hm : Knows m before)
    (hrun : rows.forM placeRow m = .ok ⟨⟩ n) : Advances true before (rows.map RowData.key) m n :=
  advances_forM RowData.key (fun _ _ _ _ hknows hok => (placeRow_ok hknows hok).1) hm hrun

/-- All entries are variables with the bounds zero and infinity. -/
def AllOpen (m : Model R) : Prop :=
  ∀ e ∈ m.entries, e.isRow = false ∧ e.lower = Scalar.zero ∧ e.upper = Scalar.infinity

theorem placeVariable_open [Zeroed R] {key : Value R} {m n : Model R} (hm : m.AllOpen)
    (hrun : placeVariable key m = .ok ⟨⟩ n) : n.AllOpen := by
  obtain ⟨vid, base, hadd, hbounds⟩ := Action.bind_eq_ok.1 hrun
  obtain ⟨-, hfound⟩ := add_ok hadd
  obtain ⟨l, u, e, hl, hu, he, rfl⟩ := setBounds_ok hbounds
  obtain rfl : Scalar.zero = l := by
    rw [Value.toReal, Value.realOfInteger, Zeroed.ofInt?_zero] at hl
    exact Except.ok.inj hl
  obtain rfl : Scalar.infinity = u := Except.ok.inj hu
  have hold {v : Nat} {d : Entry R} (hd : base.entries[v]? = some d) :
      d.isRow = false ∧ (v ≠ vid → d.lower = Scalar.zero ∧ d.upper = Scalar.infinity) := by
    cases hfound with
    | known h =>
      obtain ⟨hvar, hopen⟩ := hm d (List.mem_of_getElem? hd)
      exact ⟨hvar, fun _ => hopen⟩
    | new h =>
      rcases append_get.1 hd with hd | ⟨rfl, rfl⟩
      · obtain ⟨hvar, hopen⟩ := hm d (List.mem_of_getElem? hd)
        exact ⟨hvar, fun _ => hopen⟩
      · exact ⟨rfl, fun hne => absurd rfl hne⟩
  intro d hd
  obtain ⟨v, hv⟩ := List.mem_iff_getElem?.1 hd
  rcases (modify_get he _).1 hv with ⟨rfl, rfl⟩ | ⟨hne, hv⟩
  · exact ⟨(hold he).1, rfl, rfl⟩
  · exact ⟨(hold hv).1, (hold hv).2 hne⟩

theorem placeVariables_open [Zeroed R] {keys : List (Value R)} {m n : Model R} (hm : m.AllOpen)
    (hrun : keys.forM placeVariable m = .ok ⟨⟩ n) : n.AllOpen := by
  induction keys generalizing m with
  | nil =>
    cases hrun
    exact hm
  | cons key keys ih =>
    obtain ⟨⟨⟩, k, hfirst, hrest⟩ := Action.bind_eq_ok.1 hrun
    exact ih (placeVariable_open hm hfirst) hrest

/-! ### The objective -/

/-- The goal on a row with the key of the objective. -/
def objectiveGoal (row : Nat) (minimize : Value R) : Goal R :=
  ⟨objectiveKey, row, .integer 0, minimize.truth, true⟩

theorem addGoal_ok {m n : Model R} {vid : Nat} {priority minimize : Value R} {g : Goal R}
    (hrun : addGoal vid priority minimize m = .ok g n) :
    ∃ e, m.entries[vid]? = some e ∧ e.isRow = true ∧ g = ⟨e.key, vid, priority, minimize.truth, true⟩ ∧
      n = { m with goal := some g } := by
  unfold addGoal at hrun
  rw [Action.get_bind_run] at hrun
  obtain ⟨e, he, hrun⟩ := Action.lift_bind_eq_ok.1 hrun
  obtain ⟨-, hget, hrow⟩ := rowEntry_eq_ok.1 he
  split at hrun
  · cases hrun
  · cases hrun
    exact ⟨e, hget, hrow, rfl, rfl⟩

theorem eq_objectiveKey {key : Value R} (hkey : key.isKey = true) (h : key.clashes objectiveKey = true) :
    key = objectiveKey := by
  rcases (Value.same_iff hkey rfl).1 (Value.clashes_iff.1 h).2 with ⟨-, heq⟩ | ⟨a, b, -, hb, -⟩
  · exact heq
  · cases hb

/-- The objective gets a row, and the goal is put on it; variables are left alone. -/
theorem placeObjective_ok {minimize : Value R} {terms : Terms R} {before : List (Value R)} {m n : Model R}
    (hm : Knows m before) (hrun : placeObjective minimize terms m = .ok ⟨⟩ n) :
    ∃ vid o, Advances true before [objectiveKey] m o ∧ n = { o with goal := some (objectiveGoal vid minimize) } ∧
      vid ∈ o.rowVids ∧ o.find? objectiveKey = some vid ∧
      (m.find? objectiveKey = none → vid = m.entries.length ∧
        ∀ keys, RowOf o keys vid objectiveKey (-Scalar.infinity) Scalar.infinity terms) ∧
      ∀ v e, m.entries[v]? = some e → e.isRow = false → Untouched v m o := by
  obtain ⟨vid, base, hadd, hrest⟩ := Action.bind_eq_ok.1 hrun
  obtain ⟨⟨⟩, o, hterms, hrest⟩ := Action.bind_eq_ok.1 hrest
  obtain ⟨g, n', hgoal, hpure⟩ := Action.bind_eq_ok.1 hrest
  cases hpure
  obtain ⟨hkey, hfound, hbase⟩ := addRow_ok hm.reachable hadd
  have hwritten := setTerms_ok hbase hterms
  have hadv := hm.advances hkey hfound hwritten.writes
  obtain ⟨e, he, hrow, rfl, rfl⟩ := addGoal_ok hgoal
  have hfind : o.find? objectiveKey = some vid := by
    rw [hwritten.writes.find?]
    exact hfound.find? (by simp [objectiveKey, Value.clashes, Value.same])
  have hkeyed : e.key = objectiveKey := by
    obtain ⟨d, hd, -, hdkey, hclash⟩ := hadv.knows.reachable.named.entry_of_find? hfind
    obtain rfl := Option.some.inj (hd.symm.trans he)
    exact eq_objectiveKey hdkey hclash
  refine ⟨vid, o, hadv, by rw [hkeyed, objectiveGoal], mem_rowVids.2 ⟨e, he, hrow⟩, hfind, fun hfree => ?_, ?_⟩
  · obtain ⟨rfl, rfl⟩ := hfound.of_free hfree
    have hnew : (m.append (Entry.new objectiveKey (.row .none))).entries[m.entries.length]? =
        some (Entry.new objectiveKey (.row .none)) := append_get.2 (.inr ⟨rfl, rfl⟩)
    exact ⟨rfl, hwritten.rowOf hbase (hm.reachable.get?_append_new _) hnew rfl rfl⟩
  · intro v d hd hvar
    have huntouched := hfound.untouched hd
    refine huntouched.trans (hwritten.writes.others v ?_)
    rintro rfl
    obtain rfl : d = e := by
      rw [← huntouched.entry, ← hwritten.entries, he] at hd
      exact (Option.some.inj hd).symm
    rw [hvar] at hrow
    cases hrow

/-! ### The whole model -/

/-- The keys of the rows, with that of the objective at the end. -/
def rowKeys (rows : List (RowData R)) (objective : Option (Terms R)) : List (Value R) :=
  rows.map RowData.key ++ if objective.isSome then [objectiveKey] else []

/-- The vid that the row at a place has when it gets an entry of its own. -/
def placeOf (keys : List (Value R)) (rows : List (RowData R)) (i : Nat) : Nat :=
  newAmong [] (keys ++ (rows.take i).map RowData.key)

/-- No variable, no other row and not the objective has the key of the row at a place. -/
structure Own (keys : List (Value R)) (rows : List (RowData R)) (objective : Option (Terms R)) (i : Nat)
    (row : RowData R) : Prop where
  vars : ∀ k ∈ keys, k.clashes row.key = false
  others : ∀ r ∈ rows.eraseIdx i, r.key.clashes row.key = false
  objective : objective.isSome = true → objectiveKey.clashes row.key = false

/-- A model has what its data say, as far as keys are not shared. -/
structure Assembled (keys : List (Value R)) (rows : List (RowData R)) (objective : Option (Terms R))
    (minimize : Value R) (m : Model R) : Prop where
  /-- The key of a variable is that of a variable, or the same; its bounds are zero and infinity unless a row has the
  key. -/
  vars : ∀ k ∈ keys, ∃ var ∈ m.variableVids, ∃ e, m.entry var = .ok e ∧ (e.key = k ∨ e.key.same k = true) ∧
    (k.clashes k = true → m.lookup k = .ok var) ∧
    ((∀ row ∈ rows, k.clashes row.key = false) → e.lower = Scalar.zero ∧ e.upper = Scalar.infinity)
  /-- There is an entry for each key, but none for a key that is in use. -/
  count : m.entries.length = newAmong [] (keys ++ rowKeys rows objective)
  rowCount : m.rowVids.length = newAmong keys (rowKeys rows objective)
  /-- No row is missing when none shares its key. -/
  allRows : (∀ i row, rows[i]? = some row → Own keys rows objective i row) →
    m.rowVids.length = rows.length + if objective.isSome then 1 else 0
  /-- A row that does not share its key has an entry of its own, and all that is said of it. -/
  eachRow : ∀ i row, rows[i]? = some row → Own keys rows objective i row →
    ∃ l u, row.lower.toReal = .ok l ∧ row.upper.toReal = .ok u ∧
      RowOf m keys (placeOf keys rows i) row.key l u row.terms ∧ m.isGoal (placeOf keys rows i) = false
  apart : ∀ i j row, i < j → rows[i]? = some row → Own keys rows objective i row →
    placeOf keys rows i < placeOf keys rows j
  noGoal : objective = none → m.goals = []
  /-- The goal is on the row with the key of the objective, which is a further row unless a row has this key. -/
  goal : ∀ terms, objective = some terms → ∃ row ∈ m.rowVids, m.goals = [objectiveGoal row minimize] ∧
    m.lookup objectiveKey = .ok row ∧
    ((∀ r ∈ rows, r.key.clashes objectiveKey = false) → row = placeOf keys rows rows.length ∧
      RowOf m keys row objectiveKey (-Scalar.infinity) Scalar.infinity terms)

/-- The models that lead to an assembled one: `m₁` has the variables, `m₂` has the rows as well, and `m₃` has also the
row of the objective, but no goal. -/
structure Stages (keys : List (Value R)) (rows : List (RowData R)) (objective : Option (Terms R)) (minimize : Value R)
    (m₁ m₂ m₃ m : Model R) : Prop where
  first : Advances false [] keys .empty m₁
  allOpen : m₁.AllOpen
  run : rows.forM placeRow m₁ = .ok ⟨⟩ m₂
  second : Advances true keys (rows.map RowData.key) m₁ m₂
  third : Advances true (keys ++ rows.map RowData.key) (if objective.isSome then [objectiveKey] else []) m₂ m₃
  untouched : ∀ v e, m₂.entries[v]? = some e → e.isRow = false → Untouched v m₂ m₃
  same : m = { m₃ with goal := m.goal }
  noGoal : objective = none → m.goal = none
  goal : ∀ terms, objective = some terms → ∃ row ∈ m₃.rowVids, m.goal = some (objectiveGoal row minimize) ∧
    m₃.find? objectiveKey = some row ∧
    (m₂.find? objectiveKey = none → row = m₂.entries.length ∧
      RowOf m₃ keys row objectiveKey (-Scalar.infinity) Scalar.infinity terms)

variable {keys : List (Value R)} {rows : List (RowData R)} {objective : Option (Terms R)} {minimize : Value R}
  {m₁ m₂ m₃ m : Model R}

theorem assemble_stages [Zeroed R] (hrun : assemble keys rows objective minimize = .ok m) :
    ∃ m₁ m₂ m₃, Stages keys rows objective minimize m₁ m₂ m₃ m := by
  have hfill : fill keys rows objective minimize .empty = .ok ⟨⟩ m := by
    unfold assemble at hrun
    split at hrun
    · next hok =>
      cases hrun
      exact hok
    · cases hrun
  rw [fill_eq] at hfill
  obtain ⟨⟨⟩, m₁, hfirst, hrest⟩ := Action.bind_eq_ok.1 hfill
  obtain ⟨⟨⟩, m₂, hsecond, hthird⟩ := Action.bind_eq_ok.1 hrest
  have hvariables : Advances false [] keys .empty m₁ := by
    have hloop := advances_forM id (fun key => placeVariable_advances key) knows_empty hfirst
    rwa [List.map_id] at hloop
  have hopen : m₁.AllOpen := placeVariables_open (fun _ h => (List.not_mem_nil h).elim) hfirst
  have hrows := placeRows_advances hvariables.knows hsecond
  have hgoal : m₂.goal = none := hrows.goal.trans hvariables.goal
  cases objective with
  | none =>
    cases hthird
    refine ⟨m₁, m, m, hvariables, hopen, hsecond, hrows, .refl hrows.knows, fun v _ _ _ => .refl v m, rfl,
      fun _ => hgoal, fun terms hterms => ?_⟩
    cases hterms
  | some terms =>
    obtain ⟨row, m₃, hlast, rfl, hmem, hfind, hfresh, huntouched⟩ := placeObjective_ok hrows.knows hthird
    refine ⟨m₁, m₂, m₃, hvariables, hopen, hsecond, hrows, hlast, huntouched, rfl, fun hnone => ?_, fun _ hterms => ?_⟩
    · cases hnone
    · cases hterms
      exact ⟨row, hmem, rfl, hfind, fun hfree => ⟨(hfresh hfree).1, (hfresh hfree).2 keys⟩⟩

/-- The goal is no part of what a row says. -/
theorem RowOf.withGoal {vid : Nat} {key : Value R} {lower upper : R} {terms : Terms R}
    (h : RowOf m keys vid key lower upper terms) (goal : Option (Goal R)) :
    RowOf { m with goal := goal } keys vid key lower upper terms :=
  ⟨h.entry, h.coefficient, h.named⟩

/-- The rows in front of one, that row, and the rows behind it are placed one after the other. -/
theorem forM_split {i : Nat} {row : RowData R} (hi : rows[i]? = some row) (hrun : rows.forM placeRow m₁ = .ok ⟨⟩ m₂) :
    ∃ a b, (rows.take i).forM placeRow m₁ = .ok ⟨⟩ a ∧ placeRow row a = .ok ⟨⟩ b ∧
      (rows.drop (i + 1)).forM placeRow b = .ok ⟨⟩ m₂ := by
  induction rows generalizing i m₁ with
  | nil => cases hi
  | cons first rows ih =>
    obtain ⟨⟨⟩, k, hfirst, hrest⟩ := Action.bind_eq_ok.1 hrun
    cases i with
    | zero =>
      cases hi
      exact ⟨m₁, k, rfl, hfirst, hrest⟩
    | succ i =>
      obtain ⟨a, b, hbefore, hrow, hafter⟩ := ih hi hrest
      exact ⟨a, b, (Action.bind_ok hfirst _).trans hbefore, hrow, hafter⟩

namespace Own

variable {i : Nat} {row : RowData R}

/-- No key that is added before the row's is the same. -/
theorem before (h : Own keys rows objective i row) :
    ∀ k ∈ keys ++ (rows.take i).map RowData.key, k.clashes row.key = false := by
  intro k hk
  rcases List.mem_append.1 hk with hvar | hrow
  · exact h.vars k hvar
  · obtain ⟨r, hr, rfl⟩ := List.mem_map.1 hrow
    refine h.others r ?_
    rw [List.eraseIdx_eq_take_drop_succ]
    exact List.mem_append_left _ hr

/-- No key that is added after the row's is the same. -/
theorem after (h : Own keys rows objective i row) :
    ∀ k ∈ (rows.drop (i + 1)).map RowData.key, k.clashes row.key = false := by
  intro k hk
  obtain ⟨r, hr, rfl⟩ := List.mem_map.1 hk
  refine h.others r ?_
  rw [List.eraseIdx_eq_take_drop_succ]
  exact List.mem_append_right _ hr

theorem last (h : Own keys rows objective i row) :
    ∀ k ∈ (if objective.isSome then [objectiveKey] else []), k.clashes row.key = false := by
  intro k hk
  split at hk
  · next hsome =>
    rw [List.mem_singleton.1 hk]
    exact h.objective hsome
  · exact (List.not_mem_nil hk).elim

end Own

namespace Stages

theorem length (h : Stages keys rows objective minimize m₁ m₂ m₃ m) (i : Nat) {a : Model R}
    (hadv : Advances true keys ((rows.take i).map RowData.key) m₁ a) : a.entries.length = placeOf keys rows i := by
  have hempty : (.empty : Model R).entries.length = 0 := rfl
  rw [hadv.length, h.first.length, hempty, Nat.zero_add, placeOf, newAmong_append, List.nil_append]

/-- The row at a place, when it shares its key with no other. -/
theorem rowAt (h : Stages keys rows objective minimize m₁ m₂ m₃ m) {i : Nat} {row : RowData R}
    (hi : rows[i]? = some row) (hown : Own keys rows objective i row) :
    ∃ l u, row.lower.toReal = .ok l ∧ row.upper.toReal = .ok u ∧
      RowOf m₃ keys (placeOf keys rows i) row.key l u row.terms := by
  obtain ⟨a, b, hbefore, hrow, hafter⟩ := forM_split hi h.run
  have hadva := placeRows_advances h.first.knows hbefore
  obtain ⟨hadvb, l, u, hl, hu, hfresh⟩ := placeRow_ok hadva.knows hrow
  have hadvc := placeRows_advances hadvb.knows hafter
  have hkey : row.key.isKey = true := hadvb.knows.isKey _ (by simp)
  -- The row is new when it is placed, and neither the rows behind it nor the objective touch it.
  have hb := hfresh ((hadva.knows.free row.key hkey).2 hown.before) keys
  rw [h.length i hadva] at hb
  have hc := hb.advances hadvb.knows (fun k hk => by simp [hk]) hadvc fun k hk => by
    rw [Value.clashes_comm hkey (hadvc.knows.isKey k (List.mem_append_right _ hk))]
    exact hown.after k hk
  refine ⟨l, u, hl, hu, hc.advances h.second.knows (fun k hk => by simp [hk]) h.third fun k hk => ?_⟩
  rw [Value.clashes_comm hkey (h.third.knows.isKey k (List.mem_append_right _ hk))]
  exact hown.last k hk

theorem eachRow (h : Stages keys rows objective minimize m₁ m₂ m₃ m) {i : Nat} {row : RowData R}
    (hi : rows[i]? = some row) (hown : Own keys rows objective i row) :
    ∃ l u, row.lower.toReal = .ok l ∧ row.upper.toReal = .ok u ∧
      RowOf m keys (placeOf keys rows i) row.key l u row.terms ∧ m.isGoal (placeOf keys rows i) = false := by
  obtain ⟨l, u, hl, hu, hrow⟩ := h.rowAt hi hown
  refine ⟨l, u, hl, hu, by rw [h.same]; exact hrow.withGoal _, ?_⟩
  cases objective with
  | none => simp [isGoal, goalOn?, h.noGoal rfl]
  | some terms =>
    obtain ⟨g, -, hgoal, hfind, -⟩ := h.goal terms rfl
    have hne : (g : Int) ≠ placeOf keys rows i := by
      rw [Ne, Int.natCast_inj]
      rintro rfl
      obtain ⟨d, hd, -, hkey, hclash⟩ := h.third.knows.reachable.named.entry_of_find? hfind
      obtain ⟨e, he, -, -, hekey, -⟩ := hrow.entry
      obtain rfl := Option.some.inj (hd.symm.trans (entry_natCast.1 he))
      rw [Value.clashes_comm hkey rfl, hekey, hown.objective rfl] at hclash
      cases hclash
    simp [isGoal, goalOn?, hgoal, objectiveGoal, Option.filter, hne]

theorem count (h : Stages keys rows objective minimize m₁ m₂ m₃ m) :
    m.entries.length = newAmong [] (keys ++ rowKeys rows objective) := by
  have hempty : (.empty : Model R).entries.length = 0 := rfl
  have hsame : m.entries = m₃.entries := by rw [h.same]
  rw [hsame, h.third.length, h.second.length, h.first.length, hempty, rowKeys, newAmong_append, newAmong_append,
    List.nil_append]
  omega

theorem rowCount (h : Stages keys rows objective minimize m₁ m₂ m₃ m) :
    m.rowVids.length = newAmong keys (rowKeys rows objective) := by
  have hempty : (.empty : Model R).rowVids.length = 0 := rfl
  have hsame : m.rowVids = m₃.rowVids := by rw [h.same]; rfl
  rw [hsame, h.third.rowVids, h.second.rowVids, h.first.rowVids, hempty, rowKeys, newAmong_append]
  simp

theorem vars (h : Stages keys rows objective minimize m₁ m₂ m₃ m) {k : Value R} (hk : k ∈ keys) :
    ∃ var ∈ m.variableVids, ∃ e, m.entry var = .ok e ∧ (e.key = k ∨ e.key.same k = true) ∧
      (k.clashes k = true → m.lookup k = .ok var) ∧
      ((∀ row ∈ rows, k.clashes row.key = false) → e.lower = Scalar.zero ∧ e.upper = Scalar.infinity) := by
  obtain ⟨var, d, hd, hdkey⟩ := h.first.added k hk
  obtain ⟨hvar, hopen⟩ := h.allOpen d (List.mem_of_getElem? hd)
  obtain ⟨e, he, hkin⟩ := (h.second.kept.trans h.third.kept) var d hd
  have hnamed := h.third.knows.reachable.named
  have hkeys : k.isKey = true ∧ d.key.isKey = true :=
    ⟨h.first.knows.isKey k hk, h.first.knows.reachable.named.isKey d (List.mem_of_getElem? hd)⟩
  have hget : m.entries[var]? = some e := by rw [h.same]; exact he
  refine ⟨var, mem_variableVids.2 ⟨e, hget, hkin.isRow.trans hvar⟩, e, entry_natCast.2 hget, ?_, ?_, ?_⟩
  · rw [hkin.key]
    exact hdkey.imp_right fun hclash => (Value.clashes_iff.1 hclash).2
  · intro hself
    have hclash : e.key.clashes k = true := by
      rw [hkin.key]
      exact hdkey.elim (fun heq => heq ▸ hself) id
    have hlookup : m₃.lookup k = .ok var := lookup_eq_ok.2 ⟨hkeys.1, hnamed.find?_eq hkeys.1 he hclash⟩
    rw [h.same]
    exact hlookup
  · intro hfree
    have hclash : ∀ key ∈ rows.map RowData.key, d.key.clashes key = false := by
      intro key hkey
      have hisKey : key.isKey = true := h.second.knows.isKey key (List.mem_append_right _ hkey)
      obtain ⟨row, hrow, rfl⟩ := List.mem_map.1 hkey
      rw [← hfree row hrow]
      rcases hdkey with heq | hdk
      · rw [heq]
      · exact Value.clashes_congr hkeys.2 hkeys.1 hisKey hdk
    have hmiddle := h.second.untouched var d hd hclash
    have hlast := h.untouched var d (hmiddle.entry.trans hd) hvar
    obtain rfl : d = e := Option.some.inj (hd.symm.trans ((hmiddle.trans hlast).entry.symm.trans he))
    exact hopen

/-- The key of the objective is free when no row has it: a goal cannot be on a variable. -/
theorem free (h : Stages keys rows objective minimize m₁ m₂ m₃ m) (hsome : objective.isSome = true)
    (hother : ∀ r ∈ rows, r.key.clashes objectiveKey = false) : m₂.find? objectiveKey = none := by
  obtain ⟨terms, hterms⟩ := Option.isSome_iff_exists.1 hsome
  obtain ⟨row, hrow, -, hfind, -⟩ := h.goal terms hterms
  refine (h.second.knows.free objectiveKey rfl).2 fun k hk => ?_
  rcases List.mem_append.1 hk with hvar | hrowKey
  · by_contra hclash
    have hused : m₁.find? objectiveKey ≠ none := fun hnone =>
      hclash ((h.first.knows.free objectiveKey rfl).1 hnone k hvar)
    obtain ⟨var, hvarFind⟩ := Option.ne_none_iff_exists'.1 hused
    obtain rfl : var = row := Option.some.inj ((h.third.find? (h.second.find? hvarFind)).symm.trans hfind)
    obtain ⟨d, hd, -⟩ := h.first.knows.reachable.named.entry_of_find? hvarFind
    obtain ⟨e, he, hkin⟩ := (h.second.kept.trans h.third.kept) var d hd
    obtain ⟨e', he', hisRow⟩ := mem_rowVids.1 hrow
    obtain rfl := Option.some.inj (he.symm.trans he')
    rw [hkin.isRow, (h.allOpen d (List.mem_of_getElem? hd)).1] at hisRow
    cases hisRow
  · obtain ⟨r, hr, rfl⟩ := List.mem_map.1 hrowKey
    exact hother r hr

theorem goalRow (h : Stages keys rows objective minimize m₁ m₂ m₃ m) {terms : Terms R}
    (hterms : objective = some terms) :
    ∃ row ∈ m.rowVids, m.goals = [objectiveGoal row minimize] ∧ m.lookup objectiveKey = .ok row ∧
      ((∀ r ∈ rows, r.key.clashes objectiveKey = false) → row = placeOf keys rows rows.length ∧
        RowOf m keys row objectiveKey (-Scalar.infinity) Scalar.infinity terms) := by
  obtain ⟨row, hrow, hgoal, hfind, hfresh⟩ := h.goal terms hterms
  have hlookup : m₃.lookup objectiveKey = .ok row := lookup_eq_ok.2 ⟨rfl, hfind⟩
  refine ⟨row, by rw [h.same]; exact hrow, by rw [goals, hgoal]; rfl, by rw [h.same]; exact hlookup, fun hother => ?_⟩
  obtain ⟨hplace, hrowOf⟩ := hfresh (h.free (by rw [hterms]; rfl) hother)
  refine ⟨?_, by rw [h.same]; exact hrowOf.withGoal _⟩
  have hall : rows.take rows.length = rows := List.take_length
  rw [hplace]
  exact h.length rows.length (by rw [hall]; exact h.second)

theorem allRows (h : Stages keys rows objective minimize m₁ m₂ m₃ m)
    (hown : ∀ i row, rows[i]? = some row → Own keys rows objective i row) :
    m.rowVids.length = rows.length + if objective.isSome then 1 else 0 := by
  have hrows : newAmong keys (rows.map RowData.key) = rows.length := by
    rw [newAmong_eq_length, List.length_map]
    intro i key hi
    obtain ⟨row, hrow, rfl⟩ := Option.map_eq_some_iff.1 (by rwa [List.getElem?_map] at hi)
    rw [← List.map_take]
    exact (hown i row hrow).before
  rw [h.rowCount, rowKeys, newAmong_append, hrows]
  split
  · next hsome =>
    have hfree : m₂.find? objectiveKey = none := by
      refine h.free hsome fun r hr => ?_
      obtain ⟨i, hi⟩ := List.mem_iff_getElem?.1 hr
      have hkey := h.second.knows.isKey r.key (List.mem_append_right _ (List.mem_map_of_mem hr))
      rw [Value.clashes_comm hkey rfl]
      exact (hown i r hi).objective hsome
    rw [h.second.knows.newAmong_free rfl hfree]
  · rfl

end Stages

theorem placeOf_lt {i j : Nat} {row : RowData R} (hij : i < j) (hi : rows[i]? = some row)
    (hown : Own keys rows objective i row) : placeOf keys rows i < placeOf keys rows j := by
  obtain ⟨rest, hrest⟩ : ∃ rest, rows.take j = rows.take i ++ row :: rest := by
    obtain ⟨rest, hrest⟩ : rows.take (i + 1) <+: rows.take j := List.take_prefix_take_left hij
    refine ⟨rest, ?_⟩
    rw [← hrest, List.take_add_one, hi, List.append_assoc]
    rfl
  have hany : (keys ++ (rows.take i).map RowData.key).any (·.clashes row.key) = false :=
    List.any_eq_false.2 fun k hk => by rw [hown.before k hk]; exact Bool.false_ne_true
  rw [placeOf, placeOf, hrest, List.map_append, ← List.append_assoc, newAmong_append [] (keys ++ _), List.nil_append,
    List.map_cons, newAmong, hany]
  simp only [Bool.false_eq_true, ↓reduceIte]
  omega

/-- A model that is made from plain data has what the data say, as far as keys are not shared. -/
theorem assemble_ok [Zeroed R] (hrun : assemble keys rows objective minimize = .ok m) :
    Assembled keys rows objective minimize m := by
  obtain ⟨m₁, m₂, m₃, h⟩ := assemble_stages hrun
  refine ⟨fun k hk => h.vars hk, h.count, h.rowCount, h.allRows, fun i row hi hown => h.eachRow hi hown,
    fun i j row hij hi hown => placeOf_lt hij hi hown, fun hnone => ?_, fun terms hterms => h.goalRow hterms⟩
  rw [goals, h.noGoal hnone]
  rfl

/-- Two rows that share their key. -/
def cappedTwice : List (RowData Extended) := [
  ⟨.text "cap", [(.text "x", .integer 1)], .integer 0, .integer 5⟩,
  ⟨.text "cap", [(.text "x", .integer 2)], .integer 1, .integer 7⟩]

/-- A row with a key of its own. -/
def floorRow : RowData Extended :=
  ⟨.text "floor", [(.text "y", .integer 3), (.text "x", .integer 0)], .integer 2, .real .posInf⟩

/-- The row that does not share its key has an entry of its own behind the one that the two others have. -/
theorem assemble_ok_shared : ∃ m, assemble [.text "x", .text "y"] (cappedTwice ++ [floorRow])
      (some [(.text "y", .integer 4)]) (.flag true) = .ok m ∧
    Assembled [.text "x", .text "y"] (cappedTwice ++ [floorRow]) (some [(.text "y", .integer 4)]) (.flag true) m ∧
    RowOf m [.text "x", .text "y"] 3 (.text "floor") (.rat 2) .posInf floorRow.terms := by
  have hok : (assemble [.text "x", .text "y"] (cappedTwice ++ [floorRow]) (some [(.text "y", .integer 4)])
      (.flag true)).isOk = true := by decide +kernel
  cases hrun : assemble [.text "x", .text "y"] (cappedTwice ++ [floorRow]) (some [(.text "y", .integer 4)])
      (.flag true) with
  | error fault =>
    rw [hrun] at hok
    cases hok
  | ok m =>
    have h := assemble_ok hrun
    have hown : Own [.text "x", .text "y"] (cappedTwice ++ [floorRow]) (some [(.text "y", .integer 4)]) 2 floorRow :=
      ⟨by decide +kernel, by decide +kernel, by decide +kernel⟩
    obtain ⟨l, u, hl, hu, hrow, -⟩ := h.eachRow 2 floorRow rfl hown
    obtain rfl : l = .rat 2 := Except.ok.inj (hl.symm.trans (by decide +kernel))
    obtain rfl : u = .posInf := Except.ok.inj (hu.symm.trans rfl)
    exact ⟨m, rfl, h, hrow⟩

/-- It is not so that each row has an entry of its own: two rows that share their key have one. -/
theorem rows_merged : ¬∀ (keys : List (Value Extended)) (rows : List (RowData Extended))
    (objective : Option (Terms Extended)) (minimize : Value Extended) (m : Model Extended),
    assemble keys rows objective minimize = .ok m →
      m.rowVids.length = rows.length + if objective.isSome then 1 else 0 := by
  intro hclaim
  have hcount : (assemble [.text "x"] cappedTwice none (.flag true)).map (fun m => m.rowVids.length) = .ok 1 := by
    decide +kernel
  cases hrun : (assemble [.text "x"] cappedTwice none (.flag true) : Except Fault (Model Extended)) with
  | error fault =>
    rw [hrun] at hcount
    cases hcount
  | ok m =>
    rw [hrun] at hcount
    have hone : m.rowVids.length = 1 := Except.ok.inj hcount
    have htwo : m.rowVids.length = 2 := hclaim _ _ _ _ m hrun
    omega

end Model

end Optima
