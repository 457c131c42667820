import Optima.Proofs.Engine.Built
import Optima.Proofs.Model.WriteOrder

/-!
# The calls that loading makes

Loading a model makes building calls on the engine, one after the other until one of them stops with a fault, and does
nothing else to it.  Which calls these are can be written down without an engine (`script`): the only answers that
loading uses are the numbers of the rows it adds, and an engine that begins without rows numbers them from one.

A script has the coefficients of a row in the order in which the variables were created.  So models that were made by
the same calls but for the order in which their coefficients were written are loaded in the same way, argument by
argument (`rewritten_unseen`).

That an action is the making of some calls (`Plays`) is shown part by part; the rows that the engine has so far are
carried along.
-/

namespace Optima.Encoding

variable {R : Type} [Scalar R]

/-! ### Scripts -/

def boundCalls (column : Int) (v : Entry R) : List (Engine.Call R) :=
  if v.ignoresBounds then [.setUnbounded column]
  else if Scalar.isInfinite v.lower then
    .setUnbounded column :: if Scalar.isInfinite v.upper then [] else [.setUpper column (.real v.upper)]
  else if Scalar.isInfinite v.upper then [.setLower column (.real v.lower)]
  else [.setBounds column (.real v.lower) (.real v.upper)]

def columnCalls (column : Int) (v : Entry R) : List (Engine.Call R) :=
  boundCalls column v ++ if v.integer then [.setInteger column (.flag true)] else []

/-- The calls for a variable and its column. -/
def variableCalls (m : Model R) (place : Nat × Nat) : List (Engine.Call R) :=
  match m.entries[place.1]? with
  | some v => columnCalls place.2 v
  | none => []

def objectiveCalls (m : Model R) (goal : Goal R) : List (Engine.Call R) :=
  [.setSense (.flag !goal.minimize), .setObjective (compact m goal.row).1 (compact m goal.row).2]

/-- The calls for a row that gets a number. -/
def rowCalls (m : Model R) (row number : Nat) (e : Entry R) (sentinel : R) : List (Engine.Call R) :=
  let add (relation : Relation) (rhs : R) : Engine.Call R :=
    .addRow (compact m row).1 (compact m row).2 (.ofMember relation) (.real rhs)
  match Scalar.isInfinite e.lower, Scalar.isInfinite e.upper with
  | false, false =>
    if Scalar.same e.lower e.upper then [add .equal e.upper]
    else [add .atMost e.upper, .setRange number (.real (e.upper - e.lower))]
  | false, true => [add .atLeast e.lower]
  | true, false => [add .atMost e.upper]
  | true, true => [add .atMost sentinel]

def setCall (m : Model R) (row number : Nat) (sos : SosType) : Engine.Call R :=
  .addSet ("SOS" ++ toString number) (.integer (if sos = .sos1 then 1 else 2)) (.integer number)
    (compact m row).2 (compact m row).1

/-- The calls for a row, and what has been numbered after it. -/
def entryScript (m : Model R) (sentinel : R) (done : Progress) (row : Nat) : List (Engine.Call R) × Progress :=
  match m.entries[row]? with
  | none => ([], done)
  | some e =>
    match m.goalOn? row with
    | some goal => (objectiveCalls m goal, done)
    | none =>
      if e.sos = .none then
        let number := done.rows.length + 1
        (rowCalls m row number e sentinel, { done with rows := done.rows ++ [(row, number)] })
      else ([setCall m row (done.sets + 1) e.sos], { done with sets := done.sets + 1 })

/-- The calls for rows, and what has been numbered after them. -/
def rowsScript (m : Model R) (sentinel : R) : Progress → List Nat → List (Engine.Call R) × Progress
  | done, [] => ([], done)
  | done, row :: rows =>
    let first := entryScript m sentinel done row
    let rest := rowsScript m sentinel first.2 rows
    (first.1 ++ rest.1, rest.2)

/-- The size from which on a number counts as infinite once the caller has had a say. -/
def chosenSentinel (infinite : Value R) (default : R) : R :=
  match infinite with
  | .nothing => default
  | v => v.toReal.toOption.getD default

def sentinelCalls (infinite : Value R) : List (Engine.Call R) :=
  match infinite with
  | .nothing => []
  | v => [.setInfinite v]

/-- The calls that load a model into an engine whose sentinel is settled. -/
def modelCalls (m : Model R) (sentinel : R) : List (Engine.Call R) :=
  .setRowMode (.flag true) :: ((columnMap m).flatMap (variableCalls m) ++
    ((rowsScript m sentinel ⟨[], 0⟩ m.rowVids).1 ++ [.setRowMode (.flag false)]))

/-- The calls that load a model into an engine with this sentinel. -/
def script (m : Model R) (infinite : Value R) (sentinel : R) : List (Engine.Call R) :=
  sentinelCalls infinite ++ modelCalls m (chosenSentinel infinite sentinel)

/-- The names of a model's variables and rows in an engine with this sentinel, and the number of its sets. -/
def namesOf (m : Model R) (sentinel : R) : Naming R × Nat :=
  let done := (rowsScript m sentinel ⟨[], 0⟩ m.rowVids).2
  (⟨columnMap m, done.rows, sentinel⟩, done.sets)

/-! ### Making calls -/

/-- Makes calls until one stops with a fault. -/
def makeAll (calls : List (Engine.Call R)) : Engine.Build R Unit :=
  calls.forM Engine.Call.perform

theorem makeAll_cons (c : Engine.Call R) (calls : List (Engine.Call R)) :
    makeAll (c :: calls) = c.perform >>= fun _ => makeAll calls := rfl

theorem makeAll_one (c : Engine.Call R) : makeAll [c] = c.perform :=
  bind_pure_unit

theorem makeAll_append (calls more : List (Engine.Call R)) :
    makeAll (calls ++ more) = makeAll calls >>= fun _ => makeAll more := by
  induction calls with
  | nil => rfl
  | cons c calls ih =>
    rw [List.cons_append, makeAll_cons, makeAll_cons, ih, bind_assoc]

/-- In an engine with `n` rows the action is the making of calls, with an answer and with `k` rows in the end. -/
structure Plays {α : Type} (n : Nat) (act : Engine.Build R α) (calls : List (Engine.Call R)) (a : α) (k : Nat) :
    Prop where
  run : ∀ e, e.rows.length = n → act e = (makeAll calls >>= fun _ => (pure a : Engine.Build R α)) e
  rows : ∀ e d, e.rows.length = n → makeAll calls e = .ok ⟨⟩ d → d.rows.length = k

namespace Plays

variable {α β : Type} {n k l : Nat} {act : Engine.Build R α} {calls more : List (Engine.Call R)} {a : α}

protected theorem pure (n : Nat) (a : α) : Plays n (pure a : Engine.Build R α) [] a n where
  run _ _ := rfl
  rows := by
    rintro e d hn ⟨⟩
    exact hn

protected theorem bind {f : α → Engine.Build R β} {b : β} (h : Plays n act calls a k)
    (hf : Plays k (f a) more b l) : Plays n (act >>= f) (calls ++ more) b l where
  run e hn := by
    rw [makeAll_append, bind_assoc]
    have hact := h.run e hn
    rcases Action.bind_cases (makeAll calls) (fun _ => makeAll more >>= fun _ => pure b) e with
      ⟨fault, d, hcalls, hrun⟩ | ⟨⟨⟩, d, hcalls, hrun⟩
    · rw [hrun]
      rw [Action.bind_error hcalls] at hact
      exact Action.bind_error hact f
    · rw [hrun]
      rw [Action.bind_ok hcalls] at hact
      rw [Action.bind_ok hact]
      exact hf.run d (h.rows e d hn hcalls)
  rows e d hn hrun := by
    rw [makeAll_append] at hrun
    obtain ⟨⟨⟩, c, hcalls, hmore⟩ := Action.bind_eq_ok.1 hrun
    exact hf.rows c d (h.rows e c hn hcalls) hmore

/-- A call that is made for what it does. -/
theorem call {c : Engine.Call R} (hrows : Action.Keeps (fun e => e.rows.length) c.perform) (n : Nat) :
    Plays n c.perform [c] ⟨⟩ n where
  run e _ := by rw [makeAll_one, bind_pure_unit]
  rows e d hn hrun := by
    rw [makeAll_one] at hrun
    exact (hrows.ok hrun).trans hn

/-- A call that is made for what it does, although it has an answer. -/
theorem discard {c : Engine.Call R} {first : Engine.Build R β}
    (hperform : c.perform = first >>= fun _ => (pure ⟨⟩ : Engine.Build R Unit))
    (hrows : Action.Keeps (fun e => e.rows.length) first) (h : Plays n act calls a k) :
    Plays n (first >>= fun _ => act) (c :: calls) a k := by
  have hcall : Action.Keeps (fun e => e.rows.length) c.perform := by
    rw [hperform]
    exact hrows.bind fun _ => .pure _
  have hboth := (call hcall n).bind (f := fun _ => act) h
  rw [hperform, bind_assoc] at hboth
  exact hboth

theorem ite {c : Prop} [Decidable c] {act' : Engine.Build R α} (h : Plays n act calls a k)
    (h' : Plays n act' more a k) : Plays n (if c then act else act') (if c then calls else more) a k := by
  split
  · exact h
  · exact h'

theorem forM {f : β → Engine.Build R Unit} {g : β → List (Engine.Call R)} (h : ∀ b, Plays n (f b) (g b) () n)
    (bs : List β) : Plays n (bs.forM f) (bs.flatMap g) () n := by
  induction bs with
  | nil => exact .pure n ()
  | cons b bs ih => exact (h b).bind ih

end Plays

/-! ### The parts of loading -/

/-- A call that adds a row. -/
def addsRow : Engine.Call R → Bool
  | .addRow .. => true
  | _ => false

section Kept

omit [Scalar R] in
theorem keeps_rows_modifyColumn (col : Int) (f : Column R → Column R) :
    Action.Keeps (fun e : Engine R => e.rows.length) (Engine.modifyColumn col f) :=
  .bind .get fun _ => .bind (.lift _) fun _ => .modify fun _ => rfl

omit [Scalar R] in
theorem keeps_rows_changed : Action.Keeps (fun e : Engine R => e.rows.length) Engine.changed :=
  .modify fun _ => rfl

theorem keeps_rows_writeLower (col : Int) (v : Value R) :
    Action.Keeps (fun e : Engine R => e.rows.length) (Engine.writeLower col v) :=
  .bind .get fun _ => .bind (.lift _) fun _ => keeps_rows_modifyColumn _ _

theorem keeps_rows_writeUpper (col : Int) (v : Value R) :
    Action.Keeps (fun e : Engine R => e.rows.length) (Engine.writeUpper col v) :=
  .bind .get fun _ => .bind (.lift _) fun _ => keeps_rows_modifyColumn _ _

/-- Only a call that adds a row changes the number of the rows. -/
theorem keeps_rows {c : Engine.Call R} (hc : addsRow c = false) :
    Action.Keeps (fun e => e.rows.length) c.perform := by
  have hput (x : Setting) (v : Value R) : Action.Keeps (fun e : Engine R => e.rows.length) (Engine.putSetting x v) := by
    refine .get_bind fun e => ?_
    cases e.settings.set x v <;> rfl
  cases c with
  | setParameter name v =>
    show Action.Keeps _ (Engine.setParameter name v)
    unfold Engine.setParameter
    split
    · exact .throw _
    · exact hput _ _
  | setInfinite infinite => exact hput _ _
  | setColumnName col name => exact (keeps_rows_modifyColumn _ _).bind fun _ => keeps_rows_changed
  | setInteger col integer => exact (keeps_rows_modifyColumn _ _).bind fun _ => keeps_rows_changed
  | setBounds col lower upper =>
    exact .bind .get fun _ => .bind (.lift _) fun _ => (keeps_rows_writeLower _ _).bind fun _ =>
      (keeps_rows_writeUpper _ _).bind fun _ => keeps_rows_changed
  | setLower col lower => exact (keeps_rows_writeLower _ _).bind fun _ => keeps_rows_changed
  | setUpper col upper => exact (keeps_rows_writeUpper _ _).bind fun _ => keeps_rows_changed
  | setUnbounded col => exact (keeps_rows_modifyColumn _ _).bind fun _ => keeps_rows_changed
  | setRowMode on => exact fun _ => rfl
  | addRow values columns relation rhs => cases hc
  | setRange row range =>
    refine .bind .get fun _ => .bind (.lift _) fun _ => .bind .get fun _ => .bind (.lift _) fun _ => ?_
    exact .bind (.modify fun _ => List.length_modify ..) fun _ => keeps_rows_changed
  | setObjective values columns =>
    exact .bind .get fun _ => .bind (.lift _) fun _ => .bind (.modify fun _ => rfl) fun _ => keeps_rows_changed
  | setSense maximize => exact .bind (.modify fun _ => rfl) fun _ => keeps_rows_changed
  | addSet name kind priority columns weights =>
    refine .bind (.bind .get fun _ => .bind (.forM fun _ _ => .lift _) fun _ => ?_) fun _ => .pure _
    refine .bind (.lift _) fun _ => .bind (.lift _) fun _ => .bind (.lift _) fun _ => ?_
    exact .bind (.modify fun _ => rfl) fun _ => keeps_rows_changed.bind fun _ => .pure _

end Kept

/-- A row gets the number after the last one. -/
theorem addRow_number {values : List (Value R)} {columns : List Int} {relation rhs : Value R} {e d : Engine R}
    {number : Nat} (hrun : Engine.addRow values columns relation rhs e = .ok number d) :
    number = e.rows.length + 1 ∧ d.rows.length = e.rows.length + 1 := by
  unfold Engine.addRow at hrun
  rw [Action.get_bind_run] at hrun
  cases hdefect : e.defects.row with
  | some text =>
    rw [hdefect] at hrun
    cases hrun
  | none =>
    rw [hdefect] at hrun
    obtain ⟨entries, -, hrun⟩ := Action.lift_bind_eq_ok.1 hrun
    obtain ⟨kind, -, hrun⟩ := Action.lift_bind_eq_ok.1 hrun
    obtain ⟨x, -, hrun⟩ := Action.lift_bind_eq_ok.1 hrun
    cases hrun
    exact ⟨rfl, List.length_append⟩

theorem plays_addRow (n : Nat) (values : List (Value R)) (columns : List Int) (relation rhs : Value R) :
    Plays n (Engine.addRow values columns relation rhs) [.addRow values columns relation rhs] (n + 1) (n + 1) where
  run e hn := by
    rw [makeAll_one]
    show _ = ((Engine.addRow values columns relation rhs >>= fun _ => (pure () : Engine.Build R Unit)) >>= _) e
    rw [bind_assoc]
    cases hrun : Engine.addRow values columns relation rhs e with
    | error fault d => rw [Action.bind_error hrun]
    | ok number d =>
      obtain ⟨hnumber, -⟩ := addRow_number hrun
      rw [Action.bind_ok hrun, hnumber, hn]
      rfl
  rows e d hn hrun := by
    rw [makeAll_one] at hrun
    obtain ⟨number, c, hadd, hpure⟩ := Action.bind_eq_ok.1 hrun
    cases hpure
    rw [(addRow_number hadd).2, hn]

theorem plays_call (n : Nat) (c : Engine.Call R) (hc : addsRow c = false) : Plays n c.perform [c] () n :=
  .call (keeps_rows hc) n

theorem plays_loadBounds (n : Nat) (column : Int) (v : Entry R) :
    Plays n (loadBounds column v) (boundCalls column v) () n := by
  have hupper : Plays n (if !Scalar.isInfinite v.upper then Engine.setUpper column (.real v.upper) else pure ())
      (if Scalar.isInfinite v.upper then [] else [.setUpper column (.real v.upper)]) () n := by
    cases Scalar.isInfinite v.upper with
    | true => exact .pure n ()
    | false => exact plays_call n (.setUpper column _) rfl
  refine .ite (plays_call n (.setUnbounded column) rfl) (.ite ?_ (.ite ?_ ?_))
  · exact (plays_call n (.setUnbounded column) rfl).bind hupper
  · exact plays_call n (.setLower column _) rfl
  · exact plays_call n (.setBounds column _ _) rfl

theorem plays_loadColumn (n : Nat) (column : Int) (v : Entry R) :
    Plays n (loadColumn column v) (columnCalls column v) () n :=
  (plays_loadBounds n column v).bind (.ite (plays_call n (.setInteger column _) rfl) (.pure n ()))

theorem plays_loadVariable (n : Nat) (m : Model R) (place : Nat × Nat) :
    Plays n (loadVariable m place.1 place.2) (variableCalls m place) () n := by
  unfold loadVariable variableCalls
  cases m.entries[place.1]? with
  | none => exact .pure n ()
  | some v => exact plays_loadColumn n place.2 v

theorem plays_loadObjective (n : Nat) (m : Model R) (goal : Goal R) :
    Plays n (loadObjective m goal) (objectiveCalls m goal) () n :=
  (plays_call n (.setSense _) rfl).bind (plays_call n (.setObjective _ _) rfl)

theorem plays_loadRow (n : Nat) (m : Model R) (row : Nat) (e : Entry R) (sentinel : R) :
    Plays n (loadRow m row e sentinel) (rowCalls m row (n + 1) e sentinel) (n + 1) (n + 1) := by
  have hadd (relation : Relation) (rhs : R) :=
    plays_addRow n (compact m row).1 (compact m row).2 (.ofMember relation) (.real rhs)
  unfold loadRow rowCalls
  cases Scalar.isInfinite e.lower <;> cases Scalar.isInfinite e.upper
  · refine .ite (hadd .equal e.upper) ((hadd .atMost e.upper).bind ?_)
    exact (plays_call (n + 1) (.setRange (n + 1 : Nat) _) rfl).bind (.pure (n + 1) (n + 1))
  · exact hadd .atLeast e.lower
  · exact hadd .atMost e.upper
  · exact hadd .atMost sentinel

theorem plays_loadSet (n : Nat) (m : Model R) (row number : Nat) (sos : SosType) :
    Plays n (loadSet m row number sos) [setCall m row number sos] () n :=
  plays_call n (setCall m row number sos) rfl

/-- A row is loaded as what it is, and numbered. -/
theorem plays_loadEntry (m : Model R) (sentinel : R) (done : Progress) (row : Nat) :
    Plays done.rows.length (loadEntry m sentinel done row) (entryScript m sentinel done row).1
      (entryScript m sentinel done row).2 (entryScript m sentinel done row).2.rows.length := by
  unfold loadEntry entryScript
  cases m.entries[row]? with
  | none => exact .pure _ done
  | some e =>
    cases m.goalOn? row with
    | some goal => exact (plays_loadObjective _ m goal).bind (.pure _ done)
    | none =>
      by_cases hsos : e.sos = .none
      · simp only [hsos, ↓reduceIte]
        rw [List.length_append, List.length_singleton, ← List.append_nil (rowCalls ..)]
        exact (plays_loadRow _ m row e sentinel).bind (.pure _ _)
      · simp only [hsos, ↓reduceIte]
        exact (plays_loadSet _ m row _ e.sos).bind (.pure _ _)

theorem plays_loadEntries (m : Model R) (sentinel : R) (done : Progress) (rows : List Nat) :
    Plays done.rows.length (rows.foldlM (loadEntry m sentinel) done) (rowsScript m sentinel done rows).1
      (rowsScript m sentinel done rows).2 (rowsScript m sentinel done rows).2.rows.length := by
  induction rows generalizing done with
  | nil => exact .pure _ done
  | cons row rows ih => exact (plays_loadEntry m sentinel done row).bind (ih _)

/-- What is left of loading a model when the sentinel is settled. -/
theorem plays_modelCalls (m : Model R) (sentinel : R) :
    Plays 0
      (do
        let _ ← Engine.setRowMode (.flag true)
        loadColumns m
        let done ← m.rowVids.foldlM (loadEntry m sentinel) ⟨[], 0⟩
        let _ ← Engine.setRowMode (.flag false)
        pure (⟨columnMap m, done.rows, sentinel⟩, done.sets))
      (modelCalls m sentinel) (namesOf m sentinel) (rowsScript m sentinel ⟨[], 0⟩ m.rowVids).2.rows.length := by
  refine .discard rfl (fun _ => rfl) ((Plays.forM (plays_loadVariable 0 m) _).bind ?_)
  refine (plays_loadEntries m sentinel ⟨[], 0⟩ m.rowVids).bind ?_
  exact .discard rfl (fun _ => rfl) (.pure _ _)

/-- Loading a model is the making of its script's calls. -/
theorem loadModel_script (m : Model R) (infinite : Value R) {e : Engine R} (hrows : e.rows = []) :
    loadModel m infinite e = (makeAll (script m infinite e.sentinel) >>= fun _ =>
      (pure (namesOf m (chosenSentinel infinite e.sentinel)) : Engine.Build R (Naming R × Nat))) e := by
  have hlength : e.rows.length = 0 := congrArg List.length hrows
  by_cases hnothing : infinite = .nothing
  · subst hnothing
    exact (plays_modelCalls m e.sentinel).run e hlength
  have hset : setSentinel infinite = Engine.setInfinite infinite ∧
      sentinelCalls infinite = [.setInfinite infinite] ∧
      chosenSentinel infinite e.sentinel = infinite.toReal.toOption.getD e.sentinel := by
    cases infinite with
    | nothing => exact absurd rfl hnothing
    | _ => exact ⟨rfl, rfl, rfl⟩
  obtain ⟨hset, hcalls, hchosen⟩ := hset
  unfold loadModel script
  rw [hset, hcalls, makeAll_append, makeAll_one, bind_assoc]
  cases hx : infinite.toReal with
  | error fault =>
    have hrun : Engine.setInfinite infinite e = .error fault e := by
      simp [Engine.setInfinite, Engine.putSetting, Settings.set, hx, Except.map]
    rw [Action.bind_error hrun]
    exact (Action.bind_error hrun _).symm
  | ok x =>
    have hrun := Engine.setInfinite_run (e := e) hx
    rw [Action.bind_ok hrun]
    refine Eq.trans ?_ (Action.bind_ok hrun _).symm
    rw [hchosen, hx]
    exact (plays_modelCalls m x).run _ hlength

/-! ### Models that differ in the order of their coefficients -/

section Order

open Model (SameFrame SamePlaces)

variable {m n : Model R}

omit [Scalar R] in
theorem columnMap_congr (h : SameFrame m n) : columnMap n = columnMap m := by
  unfold columnMap Model.variableVids
  rw [h.vidsWhere]

omit [Scalar R] in
theorem compact_congr (h : SameFrame m n) (hplaces : SamePlaces m n) : compact n = compact m := by
  funext row
  unfold compact
  rw [Model.rowTerms_eq h hplaces, columnMap_congr h]

theorem entryScript_congr (h : SameFrame m n) (hplaces : SamePlaces m n) : entryScript n = entryScript m := by
  have hgoal (vid : Int) : n.goalOn? vid = m.goalOn? vid := by
    unfold Model.goalOn?
    rw [h.goal]
  funext sentinel done row
  unfold entryScript objectiveCalls rowCalls setCall
  rw [compact_congr h hplaces, h.entries, hgoal]

theorem rowsScript_congr (h : SameFrame m n) (hplaces : SamePlaces m n) (sentinel : R) (done : Progress)
    (rows : List Nat) : rowsScript n sentinel done rows = rowsScript m sentinel done rows := by
  induction rows generalizing done with
  | nil => rfl
  | cons row rows ih =>
    unfold rowsScript
    rw [entryScript_congr h hplaces]
    simp only [ih]

theorem script_congr (h : SameFrame m n) (hplaces : SamePlaces m n) (infinite : Value R) (sentinel : R) :
    script n infinite sentinel = script m infinite sentinel := by
  have hvariable : variableCalls n = variableCalls m := by
    funext place
    unfold variableCalls
    rw [h.entries]
  have hrows : n.rowVids = m.rowVids := h.vidsWhere _
  unfold script modelCalls
  rw [columnMap_congr h, hvariable, hrows, rowsScript_congr h hplaces]

theorem namesOf_congr (h : SameFrame m n) (hplaces : SamePlaces m n) : namesOf n = namesOf m := by
  have hrows : n.rowVids = m.rowVids := h.vidsWhere _
  funext sentinel
  unfold namesOf
  rw [columnMap_congr h, hrows, rowsScript_congr h hplaces]

/-- An engine that has just been made has no rows. -/
theorem makeEngine_rows {factory : Factory} {columns : Nat} {host host' : Host R} {e : Engine R}
    (hrun : makeEngine factory columns host = .ok e host') : e.rows = [] := by
  cases factory with
  | makes defects =>
    obtain ⟨search, host₁, -, hpure⟩ := Action.bind_eq_ok.1 hrun
    cases hpure
    rfl
  | makesNone => cases hrun
  | fails reason => cases hrun

/-- Encodings of the two models are the same, however the engine is made. -/
theorem ofModel_congr (h : SameFrame m n) (hplaces : SamePlaces m n) (factory : Factory) (infinite : Value R) :
    ofModel n factory infinite = ofModel m factory infinite := by
  have hvids : n.variableVids = m.variableVids := h.vidsWhere _
  have hload {e : Engine R} (hrows : e.rows = []) : loadModel n infinite e = loadModel m infinite e := by
    rw [loadModel_script n infinite hrows, loadModel_script m infinite hrows, script_congr h hplaces,
      namesOf_congr h hplaces]
  funext host
  unfold ofModel
  rw [hvids]
  by_cases hempty : m.variableVids.isEmpty = true
  · simp [hempty]
  · simp only [hempty, Bool.false_eq_true, ↓reduceIte]
    cases hmake : makeEngine factory m.variableVids.length host with
    | error fault host' => rw [Action.bind_error hmake, Action.bind_error hmake]
    | ok e host' => rw [Action.bind_ok hmake, Action.bind_ok hmake, hload (makeEngine_rows hmake)]

end Order

open Model (Rewritten SameListings performed)

/-- The order in which coefficients are written, how often and by way of which other numbers, cannot be seen: all
listings of the two models are the same, loading them makes the same calls with the same arguments, and the engines
they are encoded in are the same. -/
theorem rewritten_unseen {calls more : List (Model.Call R)} (h : Rewritten calls more) :
    SameListings (performed calls) (performed more) ∧
      (∀ infinite sentinel,
        script (performed more) infinite sentinel = script (performed calls) infinite sentinel) ∧
      (∀ m ∈ [performed calls, performed more], ∀ infinite (e : Engine R), e.rows = [] →
        loadModel m infinite e = (makeAll (script m infinite e.sentinel) >>= fun _ =>
          (pure (namesOf m (chosenSentinel infinite e.sentinel)) : Engine.Build R (Naming R × Nat))) e) ∧
      ∀ factory infinite, ofModel (performed more) factory infinite = ofModel (performed calls) factory infinite := by
  refine ⟨h.listings, script_congr h.frame h.places, ?_, ofModel_congr h.frame h.places⟩
  intro m _ infinite e hrows
  exact loadModel_script m infinite hrows

/-- Two variables, a row with a range and an objective. -/
def written : List (Model.Call Extended) := [
  .addVariable (.text "x"), .addVariable (.text "y"), .addRow (.text "cap") (.integer 0),
  .setCoefficient 2 0 (.integer 1), .setCoefficient 2 1 (.integer 2), .setBounds 2 (.integer 1) (.integer 8),
  .addRow (.text "cost") (.integer 0), .setCoefficient 3 0 (.integer 5), .addGoal 3 .nothing (.flag true)]

/-- The same, with coefficients written in another order, twice, and by way of other numbers. -/
def rewritten : List (Model.Call Extended) := [
  .addVariable (.text "x"), .setCoefficient 2 0 (.integer 1), .addVariable (.text "y"),
  .addRow (.text "cap") (.integer 0), .setCoefficient 2 0 (.integer 4), .setCoefficient 2 1 (.integer 2),
  .setBounds 2 (.integer 1) (.integer 8), .setCoefficient 2 0 (.integer 0), .addRow (.text "cost") (.integer 0),
  .setCoefficient 3 1 (.integer 7), .addGoal 3 .nothing (.flag true), .setCoefficient 3 0 (.integer 5),
  .setCoefficient 2 0 (.integer 1), .setCoefficient 3 1 (.integer 0), .setCoefficient 3 0 (.integer 5)]

/-- The line of the row has its coefficients in another order, and still nothing can be told apart. -/
theorem rewritten_unseen_twice : Rewritten written rewritten ∧
    (performed written).matrix.rows.line 2 = [(0, .rat 1), (1, .rat 2)] ∧
    (performed rewritten).matrix.rows.line 2 = [(1, .rat 2), (0, .rat 1)] ∧
    SameListings (performed written) (performed rewritten) ∧
    (∀ infinite sentinel, script (performed rewritten) infinite sentinel =
      script (performed written) infinite sentinel) ∧
    ofModel (performed rewritten) .standard .nothing = ofModel (performed written) .standard .nothing := by
  have hrewritten : Rewritten written rewritten := .of_places rfl (by decide +kernel)
  obtain ⟨hlistings, hscripts, -, hencodings⟩ := rewritten_unseen hrewritten
  exact ⟨hrewritten, by decide +kernel, by decide +kernel, hlistings, hscripts, hencodings _ _⟩

example : script (performed rewritten) .nothing Scalar.infinity = [
    .setRowMode (.flag true), .setUnbounded 1, .setUnbounded 2,
    .addRow [.real (.rat 1), .real (.rat 2)] [1, 2] (.ofMember Relation.atMost) (.real (.rat 8)),
    .setRange 1 (.real (.rat 7)),
    .setSense (.flag false), .setObjective [.real (.rat 5)] [1], .setRowMode (.flag false)] := by cbv

end Optima.Encoding
