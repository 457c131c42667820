import Optima.Proofs.Engine.Core

/-!
# What a solve does with the outcomes

A solve asks for outcomes one after the other.  On the core of its session each outcome is one step, `Core.take`: the
clock goes on, the outcome is used up, its point is kept if it is complete and better than the best one so far, and its
bound is noted.  So what a solve leaves is a fold over the outcomes it used (`slices_ok`, `searchProgram_ok`), and what
it kept is known from them: there is a best point exactly when one of them was complete, and then the objective and the
solution are those at the best point (`Core.Standing`).
-/

namespace Optima

namespace Search.Outcome

variable {R : Type}

/-- The point an outcome has to show, if it has a value for each of the columns. -/
def found? (o : Outcome R) (count : Nat) : Option (List R) :=
  if o.status.hasPoint then o.values? count else none

private theorem mapM_length {α β : Type} {f : α → Option β} {l : List α} {bs : List β} (h : l.mapM f = some bs) :
    bs.length = l.length := by
  induction l generalizing bs with
  | nil =>
    obtain rfl : [] = bs := by simpa using h
    rfl
  | cons a l ih =>
    simp only [List.mapM_cons, Option.bind_eq_bind, Option.bind_eq_some_iff, Option.pure_def, Option.some.injEq] at h
    obtain ⟨b, -, cs, hcs, rfl⟩ := h
    rw [List.length_cons, List.length_cons, ih hcs]

theorem found?_length {o : Outcome R} {count : Nat} {point : List R} (h : o.found? count = some point) :
    point.length = count := by
  unfold found? at h
  split at h
  · rw [mapM_length h, List.length_range]
  · cases h

end Search.Outcome

namespace Engine

variable {R : Type} [Scalar R]

open Search (Outcome)

namespace Core

/-- Whether an objective is better than the best one so far. -/
def improves (c : Core R) (objective : R) : Bool :=
  match c.results.incumbent with
  | none => true
  | some _ =>
    if c.maximize then Scalar.lt c.results.objective.value objective
    else Scalar.lt objective c.results.objective.value

/-- The results when a point has been looked at. -/
def captured (c : Core R) (point : List R) : Results R :=
  let objective := activity c.objective point
  if c.improves objective.value then
    { c.results with incumbent := some point, objective := objective, pointCount := c.results.pointCount + 1 }
  else c.results

/-- The results when an outcome has been looked at. -/
def noted (c : Core R) (o : Outcome R) : Results R :=
  let kept := ((o.found? c.columns.length).map c.captured).getD c.results
  (o.bound.map fun b => { kept with bound := b }).getD kept

/-- An outcome has been used. -/
def take (c : Core R) (o : Outcome R) : Core R :=
  { c with results := c.noted o, clock := c.clock + o.seconds, source := c.source.next }

theorem foldl_take_requests (outs : List (Outcome R)) (c : Core R) (requests : List (Search.Request R)) :
    outs.foldl take { c with requests := requests } = { outs.foldl take c with requests := requests } := by
  induction outs generalizing c with
  | nil => rfl
  | cons o outs ih => exact ih (c.take o)

/-- Outcomes change the results, the clock and the outcomes to come. -/
theorem foldl_take_eq (outs : List (Outcome R)) (c : Core R) : outs.foldl take c =
    { c with
      results := (outs.foldl take c).results
      clock := (outs.foldl take c).clock
      source := (outs.foldl take c).source } := by
  induction outs generalizing c with
  | nil => rfl
  | cons o outs ih => exact ih (c.take o)

theorem noted_solution (c : Core R) (o : Outcome R) : (c.noted o).solution = c.results.solution := by
  have hcaptured (point : List R) : (c.captured point).solution = c.results.solution := by
    unfold captured
    by_cases h : c.improves (activity c.objective point).value = true
    · simp only [h, ↓reduceIte]
    · simp only [h, Bool.false_eq_true, ↓reduceIte]
  have hkept : (((o.found? c.columns.length).map c.captured).getD c.results).solution = c.results.solution := by
    cases o.found? c.columns.length with
    | none => rfl
    | some point => exact hcaptured point
  unfold noted
  cases o.bound <;> exact hkept

theorem foldl_take_solution (outs : List (Outcome R)) (c : Core R) :
    (outs.foldl take c).results.solution = c.results.solution := by
  induction outs generalizing c with
  | nil => rfl
  | cons o outs ih => exact (ih (c.take o)).trans (c.noted_solution o)

/-- The outcomes that were used are gone from the script. -/
theorem foldl_take_source {used rest : List (Outcome R)} {c : Core R} (h : c.source = .script (used ++ rest)) :
    (used.foldl take c).source = .script rest := by
  induction used generalizing c with
  | nil => exact h
  | cons o used ih =>
    refine ih (c := c.take o) ?_
    simp only [take, h]
    rfl

/-- What is known of the best point when these outcomes have been used. -/
structure Best (c : Core R) (used : List (Outcome R)) : Prop where
  none_iff : c.results.incumbent = none ↔ ∀ o ∈ used, o.found? c.columns.length = none
  point : ∀ x, c.results.incumbent = some x → ∃ o ∈ used, o.found? c.columns.length = some x
  objective : ∀ x, c.results.incumbent = some x → c.results.objective = activity c.objective x

/-- A point that is not kept was not better than one that had been kept. -/
theorem captured_cases (c : Core R) (point : List R) :
    ((c.captured point).incumbent = some point ∧ (c.captured point).objective = activity c.objective point) ∨
      (c.captured point = c.results ∧ c.results.incumbent ≠ none) := by
  unfold captured
  by_cases h : c.improves (activity c.objective point).value = true
  · exact .inl (by simp [h])
  · refine .inr ⟨by simp [h], fun hnone => h ?_⟩
    simp [improves, hnone]

/-- What an outcome does to the best point and its objective. -/
theorem noted_cases (c : Core R) (o : Outcome R) :
    (∃ point, o.found? c.columns.length = some point ∧ (c.noted o).incumbent = some point ∧
      (c.noted o).objective = activity c.objective point) ∨
    ((c.noted o).incumbent = c.results.incumbent ∧ (c.noted o).objective = c.results.objective ∧
      (o.found? c.columns.length ≠ none → c.results.incumbent ≠ none)) := by
  have hbound : (c.noted o).incumbent = (((o.found? c.columns.length).map c.captured).getD c.results).incumbent ∧
      (c.noted o).objective = (((o.found? c.columns.length).map c.captured).getD c.results).objective := by
    unfold noted
    cases o.bound <;> exact ⟨rfl, rfl⟩
  rw [hbound.1, hbound.2]
  cases o.found? c.columns.length with
  | none => exact .inr ⟨rfl, rfl, fun h => absurd rfl h⟩
  | some point =>
    simp only [Option.map_some, Option.getD_some]
    rcases c.captured_cases point with ⟨hpoint, hobjective⟩ | ⟨hsame, hsome⟩
    · exact .inl ⟨point, rfl, hpoint, hobjective⟩
    · exact .inr ⟨by rw [hsame], by rw [hsame], fun _ => hsome⟩

theorem Best.take {c : Core R} {used : List (Outcome R)} (h : c.Best used) (o : Outcome R) :
    (c.take o).Best (used ++ [o]) := by
  have hincumbent : (c.take o).results.incumbent = (c.noted o).incumbent := rfl
  have hobjective : (c.take o).results.objective = (c.noted o).objective := rfl
  have hcolumns : (c.take o).columns = c.columns := rfl
  rcases c.noted_cases o with ⟨point, hfound, hpoint, hat⟩ | ⟨hsame, hat, hfound⟩
  · refine ⟨?_, ?_, ?_⟩
    · rw [hincumbent, hpoint, hcolumns]
      simp [hfound]
    · intro x hx
      rw [hincumbent, hpoint] at hx
      exact ⟨o, by simp, hfound.trans hx⟩
    · intro x hx
      rw [hincumbent, hpoint] at hx
      cases hx
      exact hobjective.trans hat
  · refine ⟨?_, ?_, ?_⟩
    · rw [hincumbent, hsame, hcolumns, h.none_iff]
      constructor
      · intro hnone o' ho'
        rcases List.mem_append.1 ho' with ho' | ho'
        · exact hnone o' ho'
        · rw [List.mem_singleton.1 ho']
          exact Classical.not_not.1 fun hne => hfound hne (h.none_iff.2 hnone)
      · exact fun hnone o' ho' => hnone o' (List.mem_append_left _ ho')
    · intro x hx
      rw [hincumbent, hsame] at hx
      obtain ⟨o', ho', hx'⟩ := h.point x hx
      exact ⟨o', List.mem_append_left _ ho', hx'⟩
    · intro x hx
      rw [hincumbent, hsame] at hx
      exact (hobjective.trans hat).trans (h.objective x hx)

theorem best_foldl {c : Core R} (h : c.results.incumbent = none) (outs : List (Outcome R)) :
    (outs.foldl take c).Best outs := by
  suffices hall : ∀ used, c.Best used → (outs.foldl take c).Best (used ++ outs) from
    hall [] ⟨by simp [h], by simp [h], by simp [h]⟩
  clear h
  induction outs generalizing c with
  | nil => exact fun used hused => by simpa using hused
  | cons o outs ih => exact fun used hused => by simpa using ih (used ++ [o]) (hused.take o)

end Core

/-! ### One outcome -/

/-- The message that there is a point at all. -/
def feasibleMessage (e : Engine R) : Message :=
  if e.isMixed then .milpFeasible else .lpFeasible

/-- The message that there is a better point. -/
def betterMessage (e : Engine R) : Message :=
  if e.isMixed then .milpBetter else .lpOptimal

/-- The session when a point is kept as the best one. -/
def Session.keeping (s : Session R) (point : List R) : Session R :=
  { s with engine := { s.engine with results := { s.engine.results with
      incumbent := some point
      objective := activity s.engine.objective point
      pointCount := s.engine.results.pointCount + 1 } } }

/-- A point is told of when it is the first one, and told of and kept when it is better than the best one so far. -/
theorem capture_steps {point : List R} {s t : Session R} (h : capture point s = .ok ⟨⟩ t) : ∃ u,
    (if s.engine.results.incumbent.isNone then send s.engine.feasibleMessage s = .ok ⟨⟩ u else u = s) ∧
    (if s.engine.improves (activity s.engine.objective point).value then
      send s.engine.betterMessage (u.keeping point) = .ok ⟨⟩ t else t = u) := by
  have hkeep (u : Session R) (hu : u.engine.objective = s.engine.objective)
      (hrun : (if s.engine.improves (activity s.engine.objective point).value then do
        updateResults fun r => { r with
          incumbent := some point, objective := activity s.engine.objective point, pointCount := r.pointCount + 1 }
        send s.engine.betterMessage
      else pure () : Work R Unit) u = .ok ⟨⟩ t) : if s.engine.improves (activity s.engine.objective point).value then
        send s.engine.betterMessage (u.keeping point) = .ok ⟨⟩ t else t = u := by
    split at hrun
    · next hbetter =>
      rw [if_pos hbetter, Session.keeping, hu]
      exact hrun
    · next hbetter =>
      cases hrun
      rw [if_neg hbetter]
  unfold capture at h
  rw [Action.get_bind_run] at h
  simp only at h
  split at h
  · next hfirst =>
    obtain ⟨⟨⟩, u, hsend, hcapture⟩ := Action.bind_eq_ok.1 h
    refine ⟨u, ?_, hkeep u (congrArg Core.objective ((keeps_send _).ok hsend)) hcapture⟩
    rw [if_pos hfirst]
    exact hsend
  · next hfirst => exact ⟨s, if_neg hfirst ▸ rfl, hkeep s rfl h⟩

theorem capture_ok {point : List R} {s t : Session R} (h : capture point s = .ok ⟨⟩ t) :
    t.core = { s.core with results := s.core.captured point } := by
  obtain ⟨u, hfirst, hbetter⟩ := capture_steps h
  -- the first message does not change what the point is compared with
  have hu : u.core = s.core := by
    split at hfirst
    · exact (keeps_send _).ok hfirst
    · rw [hfirst]
  have himproves : s.engine.improves (activity s.engine.objective point).value =
    s.core.improves (activity s.core.objective point).value := rfl
  rw [himproves] at hbetter
  unfold Core.captured
  split at hbetter
  · next himproved =>
    simp only [himproved, ↓reduceIte]
    rw [(keeps_send _).ok hbetter, ← hu]
    rfl
  · next himproved =>
    simp only [himproved, Bool.false_eq_true, ↓reduceIte]
    rw [hbetter]
    exact hu

/-- An outcome that is no failure is used, its point is looked at if it is complete, and then its bound is noted. -/
theorem takeOutcome_steps {o : Outcome R} {s t : Session R} (h : takeOutcome o s = .ok ⟨⟩ t) : o.failure = none ∧
    ∃ u, (match o.found? s.engine.columns.length with
      | some point => capture point (s.spent o) = .ok ⟨⟩ u
      | none => u = s.spent o) ∧ noteBound o.bound u = .ok ⟨⟩ t := by
  unfold takeOutcome at h
  obtain ⟨⟨⟩, w, hspent, h⟩ := Action.bind_eq_ok.1 h
  obtain rfl : s.spent o = w := by
    cases hspent
    rfl
  cases hfailure : o.failure with
  | some text =>
    rw [hfailure] at h
    cases h
  | none =>
    refine ⟨rfl, ?_⟩
    simp only [hfailure] at h
    unfold Outcome.found?
    split at h
    · next hpoint =>
      rw [if_pos hpoint]
      rw [Action.get_bind_run] at h
      cases hvalues : o.values? s.engine.columns.length with
      | none =>
        simp only [Session.spent, hvalues] at h
        exact ⟨_, rfl, h⟩
      | some point =>
        simp only [Session.spent, hvalues] at h
        obtain ⟨⟨⟩, u, hcapture, h⟩ := Action.bind_eq_ok.1 h
        exact ⟨u, hcapture, h⟩
    · next hpoint =>
      rw [if_neg hpoint]
      exact ⟨_, rfl, h⟩

theorem takeOutcome_ok {o : Outcome R} {s t : Session R} (h : takeOutcome o s = .ok ⟨⟩ t) :
    o.failure = none ∧ t.core = s.core.take o := by
  obtain ⟨hfailure, u, hpoint, hbound⟩ := takeOutcome_steps h
  refine ⟨hfailure, ?_⟩
  have hu : u.core = { (s.spent o).core with
      results := ((o.found? s.engine.columns.length).map s.core.captured).getD s.core.results } := by
    cases hfound : o.found? s.engine.columns.length with
    | none =>
      rw [hfound] at hpoint
      rw [hpoint]
      rfl
    | some point =>
      rw [hfound] at hpoint
      exact capture_ok hpoint
  unfold noteBound at hbound
  unfold Core.take Core.noted
  cases hb : o.bound with
  | none =>
    rw [hb] at hbound
    cases hbound
    exact hu
  | some b =>
    rw [hb] at hbound
    cases hbound
    exact congrArg (fun c : Core R => { c with results := { c.results with bound := b } }) hu

/-! ### Slices -/

omit [Scalar R] in
/-- A request is for the program that the search holds. -/
theorem request_ok (budget : R) (pointLimit : Nat) (s : Session R) : ∃ t more,
    request budget pointLimit s = .ok ⟨⟩ t ∧ t.core = { s.core with requests := s.core.requests ++ more } ∧
      more.map (fun r => r.search.program) = s.core.handed.toList := by
  unfold request
  rw [Action.get_bind_run]
  cases hsearch : s.engine.search with
  | none => exact ⟨s, [], rfl, by simp, by simp [Session.core, hsearch]⟩
  | some search => exact ⟨_, [⟨search, budget, pointLimit⟩], rfl, rfl, by simp [Session.core, hsearch]⟩

/-- A slice is asked for unless the time is up. -/
theorem beginSlice_ok {plan : Plan R} {slice : R} {s t : Session R} {v : Option Verdict}
    (h : beginSlice plan slice s = .ok v t) :
    (v = some s.engine.expired ∧ t = s) ∨
      (v = none ∧ ∃ more, t.core = { s.core with requests := s.core.requests ++ more } ∧
        more.map (fun r => r.search.program) = s.core.handed.toList) := by
  unfold beginSlice at h
  rw [Action.get_bind_run] at h
  split at h
  · cases h
    exact .inl ⟨rfl, rfl⟩
  · obtain ⟨⟨⟩, u, hrequest, hend⟩ := Action.bind_eq_ok.1 h
    obtain ⟨u', more, hrun, hcore, hmore⟩ := request_ok _ _ s
    cases hrequest.symm.trans hrun
    cases hend
    exact .inr ⟨rfl, more, hcore, hmore⟩

/-- What slices that go through leave: the outcomes they used have been taken note of, one after the other, and every
request was for the program that the search held.  When no request was made, the time was up at once. -/
theorem slices_ok {plan : Plan R} {slice : R} {outs : List (Outcome R)} {s t : Session R} {v : Verdict}
    (h : slices plan slice outs s = .ok v t) : ∃ used rest more, outs = used ++ rest ∧
      t.core = { used.foldl Core.take s.core with requests := s.core.requests ++ more } ∧
      (∀ r ∈ more, some r.search.program = s.core.handed) ∧
      (more = [] → s.core.handed = none ∨ v = s.engine.expired) := by
  induction outs generalizing slice s with
  | nil =>
    obtain ⟨first, u, hbegin, hrest⟩ := Action.bind_eq_ok.1 h
    rcases beginSlice_ok hbegin with ⟨rfl, rfl⟩ | ⟨rfl, more, hcore, hmore⟩
    · cases hrest
      exact ⟨[], [], [], rfl, by simp, by simp, fun _ => .inr rfl⟩
    · cases hrest
  | cons o outs ih =>
    obtain ⟨first, u, hbegin, hrest⟩ := Action.bind_eq_ok.1 h
    rcases beginSlice_ok hbegin with ⟨rfl, rfl⟩ | ⟨rfl, more, hcore, hmore⟩
    · cases hrest
      exact ⟨[], o :: outs, [], rfl, by simp, by simp, fun _ => .inr rfl⟩
    · simp only at hrest
      obtain ⟨⟨⟩, w, htake, hrest⟩ := Action.bind_eq_ok.1 hrest
      have hw : w.core = { s.core.take o with requests := s.core.requests ++ more } := by
        rw [(takeOutcome_ok htake).2, hcore]
        rfl
      have hhanded : w.core.handed = s.core.handed := by
        rw [hw]
        rfl
      have hmem : ∀ r ∈ more, some r.search.program = s.core.handed := by
        intro r hr
        have hprogram := List.mem_map_of_mem (f := fun r => r.search.program) hr
        rw [hmore] at hprogram
        exact (Option.mem_toList.1 hprogram).symm
      -- what follows the outcome uses more outcomes and makes more requests
      suffices hlater : ∃ used rest later, outs = used ++ rest ∧
          t.core = { used.foldl Core.take w.core with requests := w.core.requests ++ later } ∧
          ∀ r ∈ later, some r.search.program = w.core.handed by
        obtain ⟨used, rest, later, rfl, ht, hlater⟩ := hlater
        refine ⟨o :: used, rest, more ++ later, rfl, ?_, ?_, ?_⟩
        · rw [ht, hw, Core.foldl_take_requests, List.foldl_cons, List.append_assoc]
        · intro r hr
          rcases List.mem_append.1 hr with hr | hr
          · exact hmem r hr
          · exact (hlater r hr).trans hhanded
        · intro hnil
          obtain ⟨rfl, -⟩ := List.append_eq_nil_iff.1 hnil
          exact .inl (Option.toList_eq_nil_iff.1 hmore.symm)
      split at hrest
      · cases hrest
        exact ⟨[], outs, [], rfl, by simp, by simp⟩
      · obtain ⟨abort, x, habort, hrest⟩ := Action.bind_eq_ok.1 hrest
        have hx := keeps_abortRequested.ok habort
        split at hrest
        · cases hrest
          exact ⟨[], outs, [], rfl, by simp [hx], by simp⟩
        · obtain ⟨⟨⟩, y, hrestart, hslices⟩ := Action.bind_eq_ok.1 hrest
          obtain ⟨used, rest, later, rfl, ht, hlater, -⟩ := ih hslices
          rw [keeps_restart.ok hrestart, hx] at ht hlater
          exact ⟨used, rest, later, rfl, ht, hlater⟩

/-! ### Whole solves -/

/-- The outcomes to come for the program that the search holds. -/
def Core.outcomes (c : Core R) : List (Outcome R) :=
  c.source.outcomes (c.handed.getD .empty)

theorem optimize_ok {s t : Session R} {v : Verdict} (h : optimize s = .ok v t) :
    ∃ used rest more, s.core.outcomes = used ++ rest ∧
      t.core = { used.foldl Core.take s.core with requests := s.core.requests ++ more } ∧
      (∀ r ∈ more, some r.search.program = s.core.handed) ∧
      (more = [] → s.core.handed = none ∨ v = s.engine.expired) := by
  unfold optimize at h
  rw [Action.get_bind_run] at h
  obtain ⟨plan, -, hslices⟩ := Action.lift_bind_eq_ok.1 h
  exact slices_ok hslices

/-- The objective, the activities of the rows and the values of the columns at a point. -/
def Core.solutionAt (c : Core R) (point : List R) : List (Total R) :=
  c.results.objective :: c.rows.map (fun r => activity r.entries point) ++ point.map .scalar

/-- The solution at the best point is kept, if there is one. -/
def Core.store (c : Core R) : Core R :=
  match c.results.incumbent with
  | none => c
  | some point => { c with results := { c.results with solution := some (c.solutionAt point) } }

theorem storeSolution_core (s : Session R) : (storeSolution.after s).core = s.core.store := by
  unfold storeSolution Core.store
  rw [Action.after_get_bind, show s.core.results.incumbent = s.engine.results.incumbent from rfl]
  cases hpoint : s.engine.results.incumbent with
  | none =>
    simp only [hpoint]
    rfl
  | some point =>
    simp only [hpoint]
    rfl

theorem Core.store_requests (c : Core R) (requests : List (Search.Request R)) :
    { c with requests := requests }.store = { c.store with requests := requests } := by
  unfold store
  cases c.results.incumbent <;> rfl

theorem Core.store_incumbent (c : Core R) : c.store.results.incumbent = c.results.incumbent := by
  unfold store
  split <;> rfl

theorem Core.store_pointCount (c : Core R) : c.store.results.pointCount = c.results.pointCount := by
  unfold store
  split <;> rfl

/-- A core without what a solve notes about itself: its verdict, its time, and what the ranging pass found. -/
def Core.plain (c : Core R) : Core R :=
  { c with results :=
      { c.results with verdict := .notRun, sensitivity := none, iterations := 0, elapsed := Scalar.zero } }

theorem keeps_rangeSolution : Action.Keeps (fun s => s.core.plain) (rangeSolution : Work R Unit) := by
  have hhand (calls : List (Ranging.Call R)) : Action.Keeps (fun s => s.core.plain) (handOver calls) := fun _ => rfl
  have hfound (found : Option (Sensitivity R)) (iterations : Int) :
      Action.Keeps (fun s => s.core.plain)
        (updateResults fun r => { r with sensitivity := found, iterations := iterations } : Work R Unit) :=
    fun _ => rfl
  have htake (e : Engine R) (answer : Ranging.Answer R) :
      Action.Keeps (fun s => s.core.plain) (e.takeAnswer answer) := by
    unfold takeAnswer
    split
    · exact .throw _
    · split
      · exact (hfound _ _).bind fun _ => (keeps_log _).map Core.plain
      · exact (keeps_of_quiet (quiet_outside (unnoted_record _ _))).map Core.plain
  refine Action.Keeps.get.bind fun s => (hhand _).bind fun _ => ?_
  simp only
  split
  · exact .throw _
  · exact (hhand _).bind fun _ => Action.Keeps.get.bind fun u => htake _ _

/-- The core when the program has been handed over. -/
def Session.loadedCore (s : Session R) : Core R :=
  { s.core with handed := if s.engine.loaded then s.core.handed else some s.engine.program }

/-- What a search leaves, when there was no best point before. -/
theorem searchProgram_ok {s t : Session R} {v : Verdict} (hstart : s.engine.results.incumbent = none)
    (h : searchProgram s = .ok v t) :
    ∃ used rest more, s.loadedCore.outcomes = used ++ rest ∧
      t.core.plain = { (used.foldl Core.take s.loadedCore).store with requests := s.core.requests ++ more }.plain ∧
      (∀ r ∈ more, some r.search.program = s.loadedCore.handed) ∧
      (more = [] → s.loadedCore.handed = none ∨ v ≠ .infeasible) := by
  obtain ⟨l, hload, hl⟩ := load_ok s
  unfold searchProgram at h
  rw [Action.bind_ok hload] at h
  obtain ⟨⟨⟩, c, hconfigure, h⟩ := Action.bind_eq_ok.1 h
  have hc : c.core = s.loadedCore := (keeps_configure.ok hconfigure).trans hl
  rw [Action.get_bind_run] at h
  obtain ⟨⟨⟩, d, hlog, h⟩ := Action.bind_eq_ok.1 h
  have hd : d.core = s.loadedCore := ((keeps_log _).ok hlog).trans hc
  obtain ⟨abort, a, habort, h⟩ := Action.bind_eq_ok.1 h
  have ha : a.core = s.loadedCore := (keeps_abortRequested.ok habort).trans hd
  split at h
  · cases h
    refine ⟨[], s.loadedCore.outcomes, [], rfl, ?_, by simp, fun _ => .inr (by simp)⟩
    have hnone : s.loadedCore.results.incumbent = none := hstart
    simp only [List.foldl_nil, Core.store, hnone, List.append_nil, ha]
    rfl
  · obtain ⟨⟨⟩, x, hsend, h⟩ := Action.bind_eq_ok.1 h
    have hx : x.core = s.loadedCore := ((keeps_send _).ok hsend).trans ha
    obtain ⟨verdict, y, hoptimize, h⟩ := Action.bind_eq_ok.1 h
    obtain ⟨used, rest, more, houts, hy, hmore, hnil⟩ := optimize_ok hoptimize
    rw [hx] at houts hy hmore hnil
    obtain ⟨⟨⟩, z, hstore, h⟩ := Action.bind_eq_ok.1 h
    have hz : z.core = { (used.foldl Core.take s.loadedCore).store with requests := s.core.requests ++ more } := by
      rw [← Action.after_ok hstore, storeSolution_core, hy, Core.store_requests]
      rfl
    have hlast : t.core.plain = z.core.plain ∧ v = verdict := by
      rw [Action.get_bind_run] at h
      split at h
      · obtain ⟨⟨⟩, w, hrange, h⟩ := Action.bind_eq_ok.1 h
        cases h
        exact ⟨keeps_rangeSolution.ok hrange, rfl⟩
      · cases h
        exact ⟨rfl, rfl⟩
    obtain ⟨ht, rfl⟩ := hlast
    refine ⟨used, rest, more, houts, by rw [ht, hz], hmore, fun h => (hnil h).imp_right fun hv => ?_⟩
    rw [hv, expired]
    split <;> simp

/-- A solve that goes through either finds a row without entries that rules out every point, and then it asks for
nothing, or it searches the program. -/
theorem run_ok {s t : Session R} {v : Verdict} (h : run s = .ok v t) :
    (∃ r, violatedEmptyRow? (s.engine.settings.get .epsint) s.engine.rows = .ok (some r) ∧ v = .infeasible ∧
      t.core = s.core) ∨
    (violatedEmptyRow? (s.engine.settings.get .epsint) s.engine.rows = .ok none ∧ searchProgram s = .ok v t) := by
  unfold run at h
  rw [Action.get_bind_run] at h
  obtain ⟨violated, hviolated, h⟩ := Action.lift_bind_eq_ok.1 h
  cases violated with
  | some r =>
    obtain ⟨⟨⟩, w, hlog, h⟩ := Action.bind_eq_ok.1 h
    cases h
    exact .inl ⟨r, hviolated, rfl, (keeps_log _).ok hlog⟩
  | none => exact .inr ⟨hviolated, h⟩

/-- The session when a solve begins: the results of the solve before it are gone. -/
def Session.begun (s : Session R) : Session R :=
  { s with engine := { s.engine with results := .start s.engine.maximize s.engine.sentinel } }

/-- The session when a solve has ended: the verdict and the time are kept. -/
def Session.ended (s : Session R) (v : Verdict) (elapsed : R) : Session R :=
  { s with engine := { s.engine with results := { s.engine.results with verdict := v, elapsed := elapsed } } }

/-- What is left of a solve when its engine can solve. -/
theorem solve_eq {s : Session R} (hdefect : s.engine.defects.solve = none) :
    solve s = (do
      Action.finish runAndKeep fun t => t.ended t.engine.results.verdict (t.host.clock - s.host.clock)
      let r := (← get).engine.results
      log ("Solve finished with status " ++ Enumeration.label r.verdict ++ " in " ++ Scalar.fixedText 3 r.elapsed
        ++ "s")
      pure r.verdict : Work R Verdict) s.begun := by
  unfold solve
  rw [Action.get_bind_run, hdefect]
  rfl

/-- A solve that goes through runs, keeps the verdict and the time, and writes a line of the log. -/
theorem solve_steps {s t : Session R} {v : Verdict} (h : solve s = .ok v t) : ∃ w text, run s.begun = .ok v w ∧
    log text (w.ended v (w.host.clock - s.host.clock)) = .ok ⟨⟩ t := by
  unfold solve at h
  rw [Action.get_bind_run] at h
  cases hdefect : s.engine.defects.solve with
  | some text =>
    rw [hdefect] at h
    cases h
  | none =>
    simp only [hdefect] at h
    rw [Action.modify_bind_run, Action.get_bind_run] at h
    obtain ⟨⟨⟩, f, hfinish, h⟩ := Action.bind_eq_ok.1 h
    obtain ⟨u, hkeep, rfl⟩ := Action.finish_eq_ok.1 hfinish
    obtain ⟨verdict, w, hrun, hkeep⟩ := Action.bind_eq_ok.1 hkeep
    cases hkeep
    rw [Action.get_bind_run] at h
    obtain ⟨⟨⟩, l, hlog, h⟩ := Action.bind_eq_ok.1 h
    cases h
    exact ⟨w, _, hrun, hlog⟩

/-- What a solve leaves. -/
theorem solve_ok {s t : Session R} {v : Verdict} (h : solve s = .ok v t) :
    (∃ r, violatedEmptyRow? (s.engine.settings.get .epsint) s.engine.rows = .ok (some r) ∧ v = .infeasible ∧
      t.core.plain = s.begun.core.plain) ∨
    (violatedEmptyRow? (s.engine.settings.get .epsint) s.engine.rows = .ok none ∧
      ∃ used rest more, s.begun.loadedCore.outcomes = used ++ rest ∧
        t.core.plain =
          { (used.foldl Core.take s.begun.loadedCore).store with requests := s.core.requests ++ more }.plain ∧
        (∀ r ∈ more, some r.search.program = s.begun.loadedCore.handed) ∧
        (more = [] → s.begun.loadedCore.handed = none ∨ v ≠ .infeasible)) := by
  obtain ⟨w, text, hrun, hlog⟩ := solve_steps h
  -- the verdict, the time and the line of the log leave the plain core as the run left it
  have hplain : t.core.plain = w.core.plain := by
    rw [(keeps_log _).ok hlog]
    rfl
  rw [hplain]
  rcases run_ok hrun with ⟨r, hviolated, hv, hw⟩ | ⟨hviolated, hsearch⟩
  · exact .inl ⟨r, hviolated, hv, congrArg Core.plain hw⟩
  · exact .inr ⟨hviolated, searchProgram_ok rfl hsearch⟩

/-- The program and the settings. -/
def Core.given (c : Core R) : List (Column R) × List (Row R) × List (Nat × R) × Bool × List (OrderedSet R) ×
    Settings R :=
  (c.columns, c.rows, c.objective, c.maximize, c.sets, c.settings)

/-- The program and the settings of an engine. -/
def given (e : Engine R) : List (Column R) × List (Row R) × List (Nat × R) × Bool × List (OrderedSet R) ×
    Settings R :=
  (e.columns, e.rows, e.objective, e.maximize, e.sets, e.settings)

theorem Core.foldl_take_given (outs : List (Outcome R)) (c : Core R) : (outs.foldl take c).given = c.given := by
  rw [foldl_take_eq]
  rfl

/-- A solve leaves the program and the settings alone. -/
theorem solve_given {s t : Session R} {v : Verdict} (h : solve s = .ok v t) : t.core.given = s.core.given := by
  have hgiven (c : Core R) : c.plain.given = c.given := rfl
  rcases solve_ok h with ⟨r, -, -, hplain⟩ | ⟨-, used, rest, more, -, hplain, -⟩
  · rw [← hgiven t.core, hplain]
    rfl
  · have hstore (c : Core R) : c.store.given = c.given := by
      unfold Core.store
      cases c.results.incumbent <;> rfl
    rw [← hgiven t.core, hplain, hgiven]
    exact (hstore _).trans (Core.foldl_take_given used _)

/-- What a solve of an engine found when it used these outcomes: nothing if none of them was complete, and otherwise
the point of one of them, with the objective and the solution there. -/
def Found (e : Engine R) (used : List (Outcome R)) (r : Results R) : Prop :=
  ((∀ o ∈ used, o.found? e.columns.length = none) ∧ r.solution = none) ∨
    ∃ x, (∃ o ∈ used, o.found? e.columns.length = some x) ∧ r.incumbent = some x ∧
      r.objective = activity e.objective x ∧
      r.solution = some (r.objective :: e.rows.map (fun row => activity row.entries x) ++ x.map .scalar)

/-- A solve with a script uses the first outcomes of it and leaves the program alone. -/
theorem solve_found {s t : Session R} {v : Verdict} (h : solve s = .ok v t) {outs : List (Outcome R)}
    (hsource : s.host.source = .script outs) : ∃ used rest, outs = used ++ rest ∧ t.host.source = .script rest ∧
      t.engine.rows = s.engine.rows ∧ Found s.engine used t.engine.results := by
  rcases solve_ok h with ⟨r, -, -, hplain⟩ | ⟨-, used, rest, more, houts, hplain, -⟩
  · exact ⟨[], outs, rfl, (congrArg Core.source hplain).trans hsource, congrArg Core.rows hplain,
      .inl ⟨by simp, congrArg (fun c => c.results.solution) hplain⟩⟩
  · have hscript : s.begun.loadedCore.source = .script outs := hsource
    rw [Core.outcomes, hscript] at houts
    obtain rfl : outs = used ++ rest := houts
    have hbest := Core.best_foldl (c := s.begun.loadedCore) rfl used
    have hsolution := Core.foldl_take_solution used s.begun.loadedCore
    have hrest := Core.foldl_take_source hscript
    have hgiven : (used.foldl Core.take s.begun.loadedCore).given = s.core.given := Core.foldl_take_given used _
    generalize used.foldl Core.take s.begun.loadedCore = best at hbest hsolution hrest hgiven hplain
    have hcolumns : best.columns = s.engine.columns := congrArg Prod.fst hgiven
    have hrows : best.rows = s.engine.rows := congrArg (fun g => g.2.1) hgiven
    have hobjective : best.objective = s.engine.objective := congrArg (fun g => g.2.2.1) hgiven
    unfold Core.store at hplain
    refine ⟨used, rest, rfl, ?_⟩
    cases hpoint : best.results.incumbent with
    | none =>
      rw [hpoint] at hplain
      refine ⟨(congrArg Core.source hplain).trans hrest, (congrArg Core.rows hplain).trans hrows, .inl ⟨?_, ?_⟩⟩
      · rw [← hcolumns]
        exact hbest.none_iff.1 hpoint
      · exact (congrArg (fun c => c.results.solution) hplain).trans hsolution
    | some x =>
      rw [hpoint] at hplain
      have hat : t.engine.results.objective = activity s.engine.objective x :=
        (congrArg (fun c => c.results.objective) hplain).trans (hobjective ▸ hbest.objective x hpoint)
      refine ⟨(congrArg Core.source hplain).trans hrest, (congrArg Core.rows hplain).trans hrows,
        .inr ⟨x, hcolumns ▸ hbest.point x hpoint, (congrArg (fun c => c.results.incumbent) hplain).trans hpoint, hat,
          (congrArg (fun c => c.results.solution) hplain).trans ?_⟩⟩
      show some (best.solutionAt x) = _
      rw [Core.solutionAt, hrows, hbest.objective x hpoint, hobjective, hat]

end Engine

end Optima
