import Mathlib.Algebra.Order.Ring.Rat
import Optima.Proofs.Engine.Course
import Optima.Proofs.Value

/-!
# The best point of a solve

Of the points that a solve is shown it keeps the first one with the best value of the objective
(`Engine.FirstBest`).  Its count goes up at each point that is better than all points before it
(`Engine.improvements`), and it sends one message for each of these.  All this is decided by comparing each point with
the best one so far, and it comes to the same since being better is a strict order whose incomparable points have the
same value (`Extended.lt_trans`, `Extended.lt_or_lt`), as long as the values are numbers.

A point whose value is no number is better than no other point and no other is better than it.  So it goes unnoticed
unless it is the first point of all, and then it is kept for ever.
-/

namespace Optima

/-! ### The order of numbers -/

namespace Extended

theorem lt_trans {x y z : Extended} (hxy : x.lt y = true) (hyz : y.lt z = true) : x.lt z = true := by
  cases x <;> cases y <;> cases z <;> simp only [lt, Bool.false_eq_true, decide_eq_true_eq] at hxy hyz ⊢
  exact Std.lt_trans hxy hyz

/-- Every number lies below the greater or above the smaller one of two. -/
theorem lt_or_lt {x z : Extended} (hxz : x.lt z = true) {y : Extended} (hy : y ≠ .nan) :
    x.lt y = true ∨ y.lt z = true := by
  cases y with
  | nan => exact absurd rfl hy
  | negInf => cases x <;> cases z <;> simp_all [lt]
  | posInf => cases x <;> cases z <;> simp_all [lt]
  | rat b =>
    cases x <;> cases z <;> simp only [lt, Bool.false_eq_true, decide_eq_true_eq, or_true, true_or] at hxz ⊢
    exact (lt_or_ge _ b).imp_right fun hba => hba.trans_lt hxz

end Extended

namespace Engine

variable {R : Type} [Scalar R]

open Search (Outcome)

/-! ### Better points -/

/-- The value of the objective at a point. -/
def valueOf (e : Engine R) (point : List R) : R :=
  (activity e.objective point).value

/-- Whether the value of the objective at a point is a number. -/
def weighs (e : Engine R) (point : List R) : Bool :=
  !Scalar.isNaN (e.valueOf point)

/-- Whether the first of two points is the better one. -/
def better (e : Engine R) (x y : List R) : Bool :=
  if e.maximize then Scalar.lt (e.valueOf y) (e.valueOf x) else Scalar.lt (e.valueOf x) (e.valueOf y)

/-- Of these points `x` is the first one with the best value. -/
def FirstBest (e : Engine R) (points : List (List R)) (x : List R) : Prop :=
  ∃ front back, points = front ++ x :: back ∧ (∀ y ∈ front, e.better x y = true) ∧ ∀ y ∈ points, e.better y x = false

/-- The number of points that are better than all points before them. -/
def improvements (e : Engine R) (points : List (List R)) : Nat :=
  points.zipIdx.countP fun (x, i) => (points.take i).all (e.better x)

variable {e : Engine R}

theorem weighs_iff {x : List R} : e.weighs x = true ↔ Scalar.exact (e.valueOf x) ≠ .nan := by
  unfold weighs Scalar.isNaN
  cases Scalar.exact (e.valueOf x) <;> simp

theorem better_irrefl (x : List R) : e.better x x = false := by
  unfold better
  split <;> exact Extended.lt_irrefl _

theorem better_trans {x y z : List R} (hxy : e.better x y = true) (hyz : e.better y z = true) :
    e.better x z = true := by
  unfold better at hxy hyz ⊢
  split at hxy <;> simp_all only [↓reduceIte]
  · exact Extended.lt_trans hyz hxy
  · exact Extended.lt_trans hxy hyz

/-- Every point with a value is worse than the better or better than the worse one of two. -/
theorem better_or_better {x z : List R} (hxz : e.better x z = true) {y : List R} (hy : e.weighs y = true) :
    e.better x y = true ∨ e.better y z = true := by
  unfold better at hxz ⊢
  split at hxz <;> simp_all only [↓reduceIte]
  · exact (Extended.lt_or_lt hxz (weighs_iff.1 hy)).symm
  · exact Extended.lt_or_lt hxz (weighs_iff.1 hy)

/-- A point without a value is not better than any other. -/
theorem better_of_not_weighs {x : List R} (hx : e.weighs x = false) (y : List R) : e.better x y = false := by
  have hnan : Scalar.exact (e.valueOf x) = .nan := by
    by_contra hne
    rw [weighs_iff.2 hne] at hx
    cases hx
  unfold better Scalar.lt
  rw [hnan]
  cases Scalar.exact (e.valueOf y) <;> simp [Extended.lt]

/-! ### One more point -/

theorem firstBest_one (x : List R) : e.FirstBest [x] x :=
  ⟨[], [], rfl, by simp, by simp [better_irrefl]⟩

/-- A point is better than the best one so far exactly when it is better than all points so far. -/
theorem FirstBest.all_iff {points : List (List R)} {b : List R} (h : e.FirstBest points b)
    (hpoints : ∀ y ∈ points, e.weighs y = true) (x : List R) : points.all (e.better x) = e.better x b := by
  obtain ⟨front, back, hsplit, -, hbest⟩ := h
  rw [Bool.eq_iff_iff, List.all_eq_true]
  constructor
  · exact fun hall => hall b (by simp [hsplit])
  · intro hxb y hy
    rcases better_or_better hxb (hpoints y hy) with hxy | hyb
    · exact hxy
    · rw [hbest y hy] at hyb
      cases hyb

/-- A point that is better than the best one so far is the first best one now. -/
theorem FirstBest.replace {points : List (List R)} {b x : List R} (h : e.FirstBest points b)
    (hpoints : ∀ y ∈ points, e.weighs y = true) (hx : e.better x b = true) : e.FirstBest (points ++ [x]) x := by
  have hall : ∀ y ∈ points, e.better x y = true := List.all_eq_true.1 ((h.all_iff hpoints x).trans hx)
  refine ⟨points, [], rfl, hall, fun y hy => ?_⟩
  rcases List.mem_append.1 hy with hy | hy
  · by_contra hyx
    rw [Bool.not_eq_false] at hyx
    have hself := better_trans hyx (hall y hy)
    rw [better_irrefl] at hself
    cases hself
  · rw [List.mem_singleton.1 hy, better_irrefl]

/-- A point that is not better than the best one so far leaves it the first best one. -/
theorem FirstBest.stay {points : List (List R)} {b x : List R} (h : e.FirstBest points b)
    (hx : e.better x b = false) : e.FirstBest (points ++ [x]) b := by
  obtain ⟨front, back, hsplit, hfront, hbest⟩ := h
  refine ⟨front, back ++ [x], by simp [hsplit], hfront, fun y hy => ?_⟩
  rcases List.mem_append.1 hy with hy | hy
  · exact hbest y hy
  · rw [List.mem_singleton.1 hy, hx]

theorem improvements_concat (points : List (List R)) (x : List R) :
    e.improvements (points ++ [x]) = e.improvements points + if points.all (e.better x) then 1 else 0 := by
  unfold improvements
  have hsame : points.zipIdx.countP (fun (y, i) => ((points ++ [x]).take i).all (e.better y)) =
      points.zipIdx.countP fun (y, i) => (points.take i).all (e.better y) := by
    refine List.countP_congr fun ⟨y, i⟩ hy => ?_
    have hi : i < points.length := by
      have hlt := List.snd_lt_of_mem_zipIdx hy
      simpa using hlt
    simp only [List.take_append_of_le_length (Nat.le_of_lt hi)]
  rw [List.zipIdx_append, List.countP_append, hsame]
  simp [List.countP_cons]

/-! ### What results say of points -/

/-- The results are about these points. -/
structure Leads (e : Engine R) (points : List (List R)) (r : Results R) : Prop where
  weighs : ∀ y ∈ points, e.weighs y = true
  none : points = [] → r.incumbent = none
  best : points ≠ [] → ∃ x, r.incumbent = some x ∧ r.objective = activity e.objective x ∧ e.FirstBest points x
  count : r.pointCount = e.improvements points

theorem Leads.congr {points : List (List R)} {r r' : Results R} (h : e.Leads points r)
    (hincumbent : r'.incumbent = r.incumbent) (hobjective : r'.objective = r.objective)
    (hcount : r'.pointCount = r.pointCount) : e.Leads points r' := by
  refine ⟨h.weighs, ?_, ?_, hcount.trans h.count⟩
  · rw [hincumbent]
    exact h.none
  · rw [hincumbent, hobjective]
    exact h.best

/-- An engine and a core are about the same objective. -/
def Aims (e : Engine R) (c : Core R) : Prop :=
  c.objective = e.objective ∧ c.maximize = e.maximize

/-- The engine compares a point with the best one so far. -/
theorem Aims.improves {c : Core R} (hc : e.Aims c) {b : List R} (hincumbent : c.results.incumbent = some b)
    (hat : c.results.objective = activity e.objective b) (x : List R) :
    c.improves (activity c.objective x).value = e.better x b := by
  unfold Core.improves better valueOf
  rw [hincumbent, hc.1, hc.2, hat]

/-- A point with a value is one more of the points. -/
theorem Leads.captured {c : Core R} (hc : e.Aims c) {points : List (List R)} (h : e.Leads points c.results)
    {x : List R} (hx : e.weighs x = true) : e.Leads (points ++ [x]) (c.captured x) := by
  have hweighs : ∀ y ∈ points ++ [x], e.weighs y = true := by
    intro y hy
    rcases List.mem_append.1 hy with hy | hy
    · exact h.weighs y hy
    · rw [List.mem_singleton.1 hy, hx]
  have hkept (himproves : c.improves (activity c.objective x).value = true)
      (hbest : e.FirstBest (points ++ [x]) x) (hall : points.all (e.better x) = true) :
      e.Leads (points ++ [x]) (c.captured x) := by
    unfold Core.captured
    simp only [himproves, ↓reduceIte]
    refine ⟨hweighs, by simp, fun _ => ⟨x, rfl, by rw [hc.1], hbest⟩, ?_⟩
    rw [improvements_concat, hall, ← h.count]
    rfl
  by_cases hnil : points = []
  · subst hnil
    exact hkept (by simp [Core.improves, h.none rfl]) (firstBest_one x) rfl
  · obtain ⟨b, hincumbent, hat, hbest⟩ := h.best hnil
    have himproves := hc.improves hincumbent hat x
    have hall := hbest.all_iff h.weighs x
    cases hbetter : e.better x b with
    | true => exact hkept (himproves.trans hbetter) (hbest.replace h.weighs hbetter) (hall.trans hbetter)
    | false =>
      unfold Core.captured
      simp only [himproves, hbetter, Bool.false_eq_true, ↓reduceIte]
      refine ⟨hweighs, by simp, fun _ => ⟨b, hincumbent, hat, hbest.stay hbetter⟩, ?_⟩
      rw [improvements_concat, hall, hbetter, h.count]
      rfl

/-- A point without a value goes unnoticed when there are points already. -/
theorem Leads.captured_of_not_weighs {c : Core R} (hc : e.Aims c) {points : List (List R)}
    (h : e.Leads points c.results) (hnil : points ≠ []) {x : List R} (hx : e.weighs x = false) :
    c.captured x = c.results := by
  obtain ⟨b, hincumbent, hat, -⟩ := h.best hnil
  unfold Core.captured
  simp only [hc.improves hincumbent hat x, better_of_not_weighs hx, Bool.false_eq_true, ↓reduceIte]

/-- The points of outcomes that have a value for every column. -/
def shown (e : Engine R) (outs : List (Outcome R)) : List (List R) :=
  outs.filterMap fun o => o.found? e.columns.length

/-- Taking note of an outcome is looking at its point, if it has one with a value. -/
theorem Leads.take {c : Core R} (hc : e.Aims c) {points : List (List R)} (h : e.Leads points c.results)
    {o : Outcome R} (hfirst : points = [] → ∀ x, o.found? c.columns.length = some x → e.weighs x = true) :
    e.Leads (points ++ (o.found? c.columns.length).toList.filter e.weighs) (c.take o).results := by
  have hbound : e.Leads (points ++ (o.found? c.columns.length).toList.filter e.weighs)
      (((o.found? c.columns.length).map c.captured).getD c.results) := by
    cases hfound : o.found? c.columns.length with
    | none => simpa using h
    | some x =>
      cases hx : e.weighs x with
      | true => simpa [hx] using h.captured hc hx
      | false =>
        have hnil : points ≠ [] := fun hnil => by simp [hfirst hnil x hfound] at hx
        simpa [hx, h.captured_of_not_weighs hc hnil hx] using h
  refine hbound.congr ?_ ?_ ?_ <;>
  · unfold Core.take Core.noted
    cases o.bound <;> rfl

/-- The results of many outcomes are about those of their points that have a value. -/
theorem leads_foldl {outs : List (Outcome R)} {c : Core R} (hc : e.Aims c) (hcolumns : c.columns = e.columns)
    {points : List (List R)} (h : e.Leads points c.results)
    (hfirst : points = [] → ∀ x ∈ (e.shown outs).head?, e.weighs x = true) :
    e.Leads (points ++ (e.shown outs).filter e.weighs) (outs.foldl Core.take c).results := by
  induction outs generalizing c points with
  | nil => simpa [shown] using h
  | cons o outs ih =>
    have hshown : e.shown (o :: outs) = (o.found? e.columns.length).toList ++ e.shown outs := by
      unfold shown
      rw [List.filterMap_cons]
      cases o.found? e.columns.length <;> rfl
    rw [hshown] at hfirst ⊢
    have htake := h.take hc (o := o) fun hnil x hx => hfirst hnil x (by simp [← hcolumns, hx])
    rw [List.filter_append, ← List.append_assoc, ← hcolumns]
    refine ih (c := c.take o) hc hcolumns htake fun hnil x hx => ?_
    obtain ⟨rfl, hnone⟩ := List.append_eq_nil_iff.1 hnil
    refine hfirst rfl x ?_
    cases hfound : o.found? e.columns.length with
    | none => simpa using hx
    | some y =>
      rw [hcolumns, hfound] at hnone
      have hy := hfirst rfl y (by simp [hfound])
      simp [hy] at hnone

/-! ### A whole solve -/

/-- What a solve keeps of the points it was shown. -/
structure Kept (e : Engine R) (points : List (List R)) (r : Results R) : Prop where
  /-- Without points there is no solution. -/
  nothing : points = [] → r.solution = none ∧ r.pointCount = 0
  /-- The first best point is kept, and the solution is the one there. -/
  best : points ≠ [] → ∃ x, e.FirstBest points x ∧ r.incumbent = some x ∧ r.objective = activity e.objective x ∧
    r.solution = some (r.objective :: e.rows.map (fun row => activity row.entries x) ++ x.map .scalar)
  count : r.pointCount = e.improvements points

/-- What a solve with a script keeps: of the points of the outcomes it used those count that have a value, unless the
first of all has none. -/
theorem solve_keeps {s t : Session R} {v : Verdict} (h : solve s = .ok v t) {outs : List (Outcome R)}
    (hsource : s.host.source = .script outs) : ∃ used rest, outs = used ++ rest ∧ t.host.source = .script rest ∧
      ((∀ x ∈ (s.engine.shown used).head?, s.engine.weighs x = true) →
        s.engine.Kept ((s.engine.shown used).filter s.engine.weighs) t.engine.results) := by
  rcases solve_ok h with ⟨r, -, -, hplain⟩ | ⟨-, used, rest, more, houts, hplain, -⟩
  · have hsolution : t.engine.results.solution = none := congrArg (fun c => c.results.solution) hplain
    have hcount : t.engine.results.pointCount = 0 := congrArg (fun c => c.results.pointCount) hplain
    exact ⟨[], outs, rfl, (congrArg Core.source hplain).trans hsource, fun _ =>
      ⟨fun _ => ⟨hsolution, hcount⟩, fun hpoints => absurd rfl hpoints, hcount⟩⟩
  · have hscript : s.begun.loadedCore.source = .script outs := hsource
    rw [Core.outcomes, hscript] at houts
    obtain rfl : outs = used ++ rest := houts
    have hleads (hfirst : ∀ x ∈ (s.engine.shown used).head?, s.engine.weighs x = true) :
        s.engine.Leads ((s.engine.shown used).filter s.engine.weighs)
          (used.foldl Core.take s.begun.loadedCore).results := by
      have hnone : s.engine.Leads [] s.begun.loadedCore.results :=
        ⟨by simp, fun _ => rfl, fun hpoints => absurd rfl hpoints, rfl⟩
      exact leads_foldl ⟨rfl, rfl⟩ rfl hnone fun _ => hfirst
    have hsolution := Core.foldl_take_solution used s.begun.loadedCore
    have hrest := Core.foldl_take_source hscript
    have hgiven : (used.foldl Core.take s.begun.loadedCore).given = s.core.given := Core.foldl_take_given used _
    generalize used.foldl Core.take s.begun.loadedCore = best at hleads hsolution hrest hgiven hplain
    have hrows : best.rows = s.engine.rows := congrArg (fun g => g.2.1) hgiven
    have hobjective : best.objective = s.engine.objective := congrArg (fun g => g.2.2.1) hgiven
    unfold Core.store at hplain
    refine ⟨used, rest, rfl, ?_, fun hfirst => ?_⟩
    · cases hpoint : best.results.incumbent <;> rw [hpoint] at hplain
      · exact (congrArg Core.source hplain).trans hrest
      · exact (congrArg Core.source hplain).trans hrest
    replace hleads := hleads hfirst
    generalize (s.engine.shown used).filter s.engine.weighs = points at hleads
    cases hpoint : best.results.incumbent with
    | none =>
      rw [hpoint] at hplain
      have hnil : points = [] := by
        by_contra hne
        obtain ⟨x, hx, -⟩ := hleads.best hne
        rw [hpoint] at hx
        cases hx
      have hcount : t.engine.results.pointCount = s.engine.improvements points :=
        (congrArg (fun c => c.results.pointCount) hplain).trans hleads.count
      refine ⟨fun _ => ⟨?_, ?_⟩, fun hne => absurd hnil hne, hcount⟩
      · exact (congrArg (fun c => c.results.solution) hplain).trans hsolution
      · rw [hcount, hnil]
        rfl
    | some x =>
      rw [hpoint] at hplain
      have hne : points ≠ [] := by
        intro hnil
        rw [hleads.none hnil] at hpoint
        cases hpoint
      obtain ⟨x', hx', hat, hbest⟩ := hleads.best hne
      obtain rfl : x' = x := Option.some.inj (hx'.symm.trans hpoint)
      have hobjectiveAt : t.engine.results.objective = activity s.engine.objective x' :=
        (congrArg (fun c => c.results.objective) hplain).trans hat
      refine ⟨fun hnil => absurd hnil hne, fun _ => ⟨x', hbest, ?_, hobjectiveAt, ?_⟩, ?_⟩
      · exact (congrArg (fun c => c.results.incumbent) hplain).trans hx'
      · refine (congrArg (fun c => c.results.solution) hplain).trans ?_
        show some (best.solutionAt x') = _
        rw [Core.solutionAt, hrows, hat, hobjectiveAt]
      · exact (congrArg (fun c => c.results.pointCount) hplain).trans hleads.count

/-- The messages of a solve are those that go with the points it kept, after the one that says that the search
begins, or none at all when it does not come to a search. -/
theorem solve_tells {s t : Session R} {v : Verdict} (hfit : s.engine.Fit) (h : solve s = .ok v t) :
    ∃ sent, Told s sent t ∧ (sent = [] ∧ t.host.source = s.host.source ∨
      sent = .presolve :: s.engine.news t.engine.results.pointCount) := by
  rcases solve_course hfit with ⟨-, hok⟩ | ⟨plan, x, calls, res, -, hbegins, hslicing, -, hok⟩
  · obtain ⟨-, hcalm⟩ := hok v t h
    have hsource : t.host.source = s.host.source := congrArg (fun calm => calm.1.1.2.1) hcalm
    exact ⟨[], .of_listening (congrArg Prod.snd hcalm), .inl ⟨rfl, hsource⟩⟩
  · obtain ⟨y, rfl, hlistening, hplain⟩ := hok v t h
    -- the search begins without a point, when the first message has been sent
    have hresults : x.engine.results = s.begun.engine.results := congrArg Core.results hbegins.core
    have hx : Telling s.begun [.presolve] x := by
      refine ⟨?_, ?_, ?_⟩
      · rw [hresults]
        exact ⟨fun _ => rfl, fun _ => rfl⟩
      · exact congrArg (fun c : Core R => !c.sets.isEmpty || c.columns.any Column.integer) hbegins.core
      · rw [hresults]
        exact hbegins.told
    have hy := hslicing.telling hx rfl
    have hcount : t.engine.results.pointCount = y.engine.results.pointCount :=
      (congrArg (fun c => c.results.pointCount) hplain).trans y.core.store_pointCount
    have htold := hy.told.congr hlistening
    rw [← hcount] at htold
    exact ⟨_, ⟨htold.messages, htold.observer, htold.mask⟩, .inr rfl⟩

/-- The best point of a solve: whatever its verdict is, a solve that goes through has kept the first best one of the
points it was shown, with the solution there and the number of improvements, and it has sent the messages that go with
them.  The values of the points have to be numbers, but it is enough that the first one is: no other point is better
than one whose value is none. -/
theorem solve_best {s t : Session R} {v : Verdict} (hused : Used s.engine) (h : solve s = .ok v t)
    {outs : List (Outcome R)} (hsource : s.host.source = .script outs) :
    ∃ used rest sent, outs = used ++ rest ∧ t.host.source = .script rest ∧
      ((∀ x ∈ (s.engine.shown used).head?, s.engine.weighs x = true) →
        s.engine.Kept ((s.engine.shown used).filter s.engine.weighs) t.engine.results) ∧
      t.messages = s.messages ++ s.engine.hooks.heard sent ∧
      (sent = [] ∧ used = [] ∨ sent = .presolve :: s.engine.news t.engine.results.pointCount) := by
  obtain ⟨used, rest, rfl, hrest, hkept⟩ := solve_keeps h hsource
  obtain ⟨sent, htold, hsent⟩ := solve_tells hused.fit h
  refine ⟨used, rest, sent, rfl, hrest, hkept, htold.messages, hsent.imp_left fun ⟨hnone, hsame⟩ => ⟨hnone, ?_⟩⟩
  rw [hrest, hsource] at hsame
  injection hsame with hsame
  exact List.append_left_eq_self.1 hsame.symm

/-- Outcomes in the course of which the best point is replaced once: the first one has no value for the column, the third
one is worse than the second, and the last one is as good as the fourth. -/
def improvingOutcomes : List (Outcome Extended) := [
  ⟨.rat 1, none, .feasible, [none], none⟩,
  ⟨.rat 2, none, .feasible, [some (.rat 5)], none⟩,
  ⟨.rat 4, none, .feasible, [some (.rat 7)], none⟩,
  ⟨.rat 8, none, .feasible, [some (.rat 3)], none⟩,
  ⟨.rat 9, none, .optimal, [some (.rat 3)], none⟩]

/-- Somebody who is never sure whether to abort is asked after each slice, and all messages are noted. -/
def improvingStart : Session Extended :=
  (Operation.setMessages (some ⟨[.notes]⟩) none (.integer 1023)).perform.after
    (asking [.answers (.flag false)] [] improvingOutcomes)

theorem solve_best_improvingStart : ∃ v t, solve improvingStart = .ok v t ∧
    improvingStart.engine.Kept [[.rat 5], [.rat 7], [.rat 3], [.rat 3]] t.engine.results ∧
    t.messages = [.presolve, .milpFeasible, .milpBetter, .milpBetter] := by
  have hused : Used improvingStart.engine := .operated _ _ (asking_used _ (by simp) _)
  have hreturned : (match solve improvingStart with
      | .ok _ t => t.host.source.upcoming.isEmpty
      | .error _ _ => false) = true := by decide +kernel
  cases hsolve : solve improvingStart with
  | error fault t => simp [hsolve] at hreturned
  | ok v t =>
    obtain ⟨used, rest, sent, houts, hrest, hkept, hmessages, hsent⟩ :=
      solve_best hused hsolve (show improvingStart.host.source = .script improvingOutcomes from rfl)
    -- all outcomes have been used
    rw [hsolve] at hreturned
    simp only [hrest, Search.Source.upcoming, List.isEmpty_iff] at hreturned
    rw [hreturned, List.append_nil] at houts
    subst houts
    have hshown : improvingStart.engine.shown improvingOutcomes = [[.rat 5], [.rat 7], [.rat 3], [.rat 3]] := by
      decide +kernel
    have hweighs : ∀ x ∈ improvingStart.engine.shown improvingOutcomes, improvingStart.engine.weighs x = true := by
      decide +kernel
    replace hkept := hkept fun x hx => hweighs x (List.mem_of_mem_head? hx)
    rw [List.filter_eq_self.2 hweighs, hshown] at hkept
    refine ⟨v, t, rfl, hkept, ?_⟩
    have hcount : t.engine.results.pointCount = 2 := hkept.count.trans (by decide +kernel)
    rcases hsent with ⟨-, hnone⟩ | rfl
    · cases hnone
    · rw [hmessages, hcount]
      decide +kernel

end Engine

end Optima
