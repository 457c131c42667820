import Optima.Number.Binary64
import Optima.Proofs.Model.Reachable
import Optima.Proofs.Value

/-!
# Vids, keys, bounds and the goal

After any calls, the vids that have been handed out are `0, …, n - 1` in the order of creation; a key leads to the vid
whose key it is, and back; all bounds are in order; the goal, if there is one, is on a row whose key it has; and no
later call changes what an entry is or how it is called (`performed_identity`).

The key table is what the induction is about: it has the keys of the keyed entries, and none of them is the same as an
earlier one (`Named`).  The rest follows from what a change leaves as it is (`Change.frame`).
-/

namespace Optima

/-- Scalars whose infinities are beyond all their numbers. -/
class Unbounded (R : Type) [Scalar R] : Prop where
  exact_infinity : Scalar.exact (Scalar.infinity : R) = .posInf
  exact_neg_infinity : Scalar.exact (-Scalar.infinity : R) = .negInf

instance : Unbounded Extended := ⟨rfl, rfl⟩

instance : Unbounded Float := ⟨by decide +kernel, by decide +kernel⟩

/-- What an entry is and how it is called are the same for two entries. -/
structure Entry.Kin {R : Type} (d e : Entry R) : Prop where
  key : e.key = d.key
  isRow : e.isRow = d.isRow
  sos : e.sos = d.sos

/-- The bounds of an entry are numbers, and in order. -/
structure Entry.InOrder {R : Type} [Scalar R] (e : Entry R) : Prop where
  lower : Scalar.isNaN e.lower = false
  upper : Scalar.isNaN e.upper = false
  order : Scalar.le e.lower e.upper = true

namespace Model

variable {R : Type}

/-- Each entry of a model is one of another model, with the same vid, and goes on to be what it is. -/
def Kept (m n : Model R) : Prop :=
  ∀ (vid : Nat) (d : Entry R), m.entries[vid]? = some d → ∃ e, n.entries[vid]? = some e ∧ d.Kin e

theorem Kept.refl (m : Model R) : Kept m m :=
  fun _ d hd => ⟨d, hd, rfl, rfl, rfl⟩

theorem Kept.trans {l m n : Model R} (h : Kept l m) (h' : Kept m n) : Kept l n := by
  intro vid c hc
  obtain ⟨d, hd, hcd⟩ := h vid c hc
  obtain ⟨e, he, hde⟩ := h' vid d hd
  exact ⟨e, he, hde.key.trans hcd.key, hde.isRow.trans hcd.isRow, hde.sos.trans hcd.sos⟩

/-- The entries of a model with one more entry. -/
theorem append_get {m : Model R} {e d : Entry R} {vid : Nat} :
    (m.append e).entries[vid]? = some d ↔ m.entries[vid]? = some d ∨ vid = m.entries.length ∧ d = e := by
  rw [append, List.getElem?_append]
  by_cases hlt : vid < m.entries.length
  · simp [hlt, Nat.ne_of_lt hlt]
  · rw [if_neg hlt, List.getElem?_singleton, List.getElem?_eq_none (by omega)]
    by_cases hvid : vid = m.entries.length
    · simp [hvid, eq_comm]
    · have hne : ¬vid - m.entries.length = 0 := by omega
      simp [hvid, hne]

theorem kept_append (m : Model R) (e : Entry R) : Kept m (m.append e) := by
  intro vid d hd
  exact ⟨d, append_get.2 (.inl hd), rfl, rfl, rfl⟩

/-- What stands at a place after a change of the entry at one place. -/
theorem modify_get {entries : List (Entry R)} {vid : Nat} {e : Entry R} (he : entries[vid]? = some e)
    (f : Entry R → Entry R) {v : Nat} {d : Entry R} :
    (entries.modify vid f)[v]? = some d ↔ v = vid ∧ d = f e ∨ v ≠ vid ∧ entries[v]? = some d := by
  rw [List.getElem?_modify]
  by_cases hv : vid = v
  · subst hv
    simp [he, eq_comm]
  · simp [hv, Ne.symm hv]

theorem kept_modify {m : Model R} {vid : Nat} {e : Entry R} (he : m.entries[vid]? = some e)
    {f : Entry R → Entry R} (hf : e.Kin (f e)) : Kept m { m with entries := m.entries.modify vid f } := by
  intro v d hd
  by_cases hv : v = vid
  · subst hv
    obtain rfl := Option.some.inj (he.symm.trans hd)
    exact ⟨f e, (modify_get he f).2 (.inl ⟨rfl, rfl⟩), hf⟩
  · exact ⟨d, (modify_get he f).2 (.inr ⟨hv, hd⟩), rfl, rfl, rfl⟩

variable [Scalar R]

/-- A change adds an entry whose key is in use nowhere, or leaves the names and the number of the entries. -/
theorem Change.frame {m n : Model R} {effect : Effect R} (h : Change m effect n) :
    (∃ key role, key.isKey = true ∧ m.find? key = none ∧ n = m.append (Entry.new key role)) ∨
      n.names = m.names ∧ n.entries.length = m.entries.length ∧ Kept m n := by
  cases h with
  | add key role hkey hnew hrole => exact .inl ⟨key, role, hkey, hnew, rfl⟩
  | bounds vid e he | basic vid e he | value vid e he =>
    exact .inr ⟨rfl, List.length_modify .., kept_modify he ⟨rfl, rfl, rfl⟩⟩
  | flags vid e he hvar =>
    refine .inr ⟨rfl, List.length_modify .., kept_modify he ⟨rfl, hvar.symm, ?_⟩⟩
    unfold Entry.isRow at hvar
    cases hrole : e.role with
    | row sos => simp [hrole] at hvar
    | «variable» => simp [Entry.sos, hrole]
  | nothing | known | coefficient | goal | noGoal => exact .inr ⟨rfl, rfl, fun _ d hd => ⟨d, hd, rfl, rfl, rfl⟩⟩

theorem Change.kept {m n : Model R} {effect : Effect R} (h : Change m effect n) : Kept m n := by
  rcases h.frame with ⟨key, role, -, -, rfl⟩ | ⟨-, -, hkept⟩
  · exact kept_append m _
  · exact hkept

/-- No later call changes what an entry is or how it is called. -/
theorem kept_performed (calls more : List (Call R)) : Kept (performed calls) (performed (calls ++ more)) := by
  induction more using List.reverseRecOn with
  | nil =>
    rw [List.append_nil]
    exact Kept.refl _
  | append_singleton more c ih =>
    rw [← List.append_assoc, performed_concat]
    exact ih.trans (c.change _).kept

/-! ### Keys -/

theorem find?_eq_none {m : Model R} {key : Value R} :
    m.find? key = none ↔ ∀ name ∈ m.names, name.1.same key = false := by
  rw [find?, Option.map_eq_none_iff, List.find?_eq_none]
  exact forall₂_congr fun name _ => Bool.not_eq_true _ ▸ Iff.rfl

/-- A key that is in use names a vid by a key that is the same. -/
theorem find?_mem {m : Model R} {key : Value R} {vid : Nat} (h : m.find? key = some vid) :
    ∃ k, (k, vid) ∈ m.names ∧ k.same key = true := by
  obtain ⟨name, hname, rfl⟩ := Option.map_eq_some_iff.1 h
  have hsame := List.find?_some hname
  exact ⟨name.1, List.mem_of_find?_eq_some hname, hsame⟩

/-- The key table has the keys of the keyed entries with their vids, and no key that is the same as an earlier one. -/
structure Named (m : Model R) : Prop where
  isKey : ∀ e ∈ m.entries, e.key.isKey = true
  name : ∀ key vid, (key, vid) ∈ m.names ↔ ∃ e, m.entries[vid]? = some e ∧ e.keyed = true ∧ e.key = key
  distinct : m.names.Pairwise fun a b => a.1.same b.1 = false

theorem named_append {m : Model R} (hm : m.Named) {e : Entry R} (hkey : e.key.isKey = true)
    (hnew : m.find? e.key = none) : (m.append e).Named where
  isKey d hd := by
    rcases List.mem_append.1 hd with hold | hnew
    · exact hm.isKey d hold
    · rw [List.mem_singleton.1 hnew]
      exact hkey
  name key vid := by
    simp only [append_get]
    have hold := hm.name key vid
    cases hkeyed : e.keyed with
    | true =>
      simp only [append, hkeyed, ↓reduceIte, List.mem_append, List.mem_singleton, Prod.mk.injEq, hold]
      constructor
      · rintro (⟨d, hd, hk⟩ | ⟨rfl, rfl⟩)
        · exact ⟨d, .inl hd, hk⟩
        · exact ⟨e, .inr ⟨rfl, rfl⟩, hkeyed, rfl⟩
      · rintro ⟨d, hd | ⟨rfl, rfl⟩, hk, rfl⟩
        · exact .inl ⟨d, hd, hk, rfl⟩
        · exact .inr ⟨rfl, rfl⟩
    | false =>
      simp only [append, hkeyed, Bool.false_eq_true, ↓reduceIte, hold]
      constructor
      · rintro ⟨d, hd, hk⟩
        exact ⟨d, .inl hd, hk⟩
      · rintro ⟨d, hd | ⟨rfl, rfl⟩, hk, rfl⟩
        · exact ⟨d, hd, hk, rfl⟩
        · rw [hkeyed] at hk
          cases hk
  distinct := by
    unfold append
    split
    · refine List.pairwise_append.2 ⟨hm.distinct, List.pairwise_singleton .., ?_⟩
      intro a ha b hb
      rw [List.mem_singleton.1 hb]
      exact find?_eq_none.1 hnew a ha
    · exact hm.distinct

theorem Change.named {m n : Model R} {effect : Effect R} (hm : m.Named) (h : Change m effect n) : n.Named := by
  rcases h.frame with ⟨key, role, hkey, hnew, rfl⟩ | ⟨hnames, hlength, hkept⟩
  · exact named_append hm hkey hnew
  · -- Each entry of the one model is kin to the entry of the other that has its vid.
    have hback {vid : Nat} {e : Entry R} (he : n.entries[vid]? = some e) :
        ∃ d, m.entries[vid]? = some d ∧ d.Kin e := by
      have hlt : vid < m.entries.length := hlength ▸ (List.getElem?_eq_some_iff.1 he).1
      obtain ⟨e', he', hkin⟩ := hkept vid _ (List.getElem?_eq_getElem hlt)
      obtain rfl := Option.some.inj (he'.symm.trans he)
      exact ⟨_, List.getElem?_eq_getElem hlt, hkin⟩
    have hkeyed {d e : Entry R} (hkin : d.Kin e) : e.keyed = d.keyed := by rw [Entry.keyed, hkin.key, Entry.keyed]
    refine ⟨?_, ?_, hnames ▸ hm.distinct⟩
    · intro e he
      obtain ⟨vid, hvid⟩ := List.mem_iff_getElem?.1 he
      obtain ⟨d, hd, hkin⟩ := hback hvid
      rw [hkin.key]
      exact hm.isKey d (List.mem_of_getElem? hd)
    · intro key vid
      rw [hnames, hm.name]
      constructor
      · rintro ⟨d, hd, hk, hkey⟩
        obtain ⟨e, he, hkin⟩ := hkept vid d hd
        exact ⟨e, he, (hkeyed hkin).trans hk, hkin.key.trans hkey⟩
      · rintro ⟨e, he, hk, hkey⟩
        obtain ⟨d, hd, hkin⟩ := hback he
        exact ⟨d, hd, (hkeyed hkin).symm.trans hk, hkin.key.symm.trans hkey⟩

theorem Reachable.named {m : Model R} (h : m.Reachable) : m.Named := by
  refine h.induct ⟨fun e he => (List.not_mem_nil he).elim, fun key vid => ?_, .nil⟩ Change.named
  simp [Model.empty]

/-- A key that is in the table, and that is the same as itself, leads to its vid. -/
theorem Named.find? {m : Model R} (hm : m.Named) {key : Value R} {vid : Nat} (hmem : (key, vid) ∈ m.names)
    (hself : key.same key = true) : m.find? key = some vid := by
  obtain ⟨before, after, hnames⟩ := List.append_of_mem hmem
  have hdistinct := hm.distinct
  rw [hnames, List.pairwise_append] at hdistinct
  have hfind : m.names.find? (fun name => name.1.same key) = some (key, vid) := by
    refine List.find?_eq_some_iff_append.2 ⟨hself, before, after, hnames, fun name hname => ?_⟩
    rw [hdistinct.2.2 name hname (key, vid) (List.mem_cons_self ..)]
    rfl
  rw [Model.find?, hfind]
  rfl

/-- No two entries are called the same. -/
theorem Named.unique {m : Model R} (hm : m.Named) {v w : Nat} {d e : Entry R} (hd : m.entries[v]? = some d)
    (he : m.entries[w]? = some e) (hdkeyed : d.keyed = true) (hekeyed : e.keyed = true)
    (hsame : d.key.same e.key = true) : v = w := by
  have hdname := (hm.name d.key v).2 ⟨d, hd, hdkeyed, rfl⟩
  have hename := (hm.name e.key w).2 ⟨e, he, hekeyed, rfl⟩
  have hsame' : e.key.same d.key = true := by
    rw [Value.same_comm (hm.isKey e (List.mem_of_getElem? he)) (hm.isKey d (List.mem_of_getElem? hd))]
    exact hsame
  obtain ⟨i, hi⟩ := List.mem_iff_getElem?.1 hdname
  obtain ⟨j, hj⟩ := List.mem_iff_getElem?.1 hename
  rw [List.getElem?_eq_some_iff] at hi hj
  obtain ⟨hilt, hi⟩ := hi
  obtain ⟨hjlt, hj⟩ := hj
  have hdistinct := List.pairwise_iff_getElem.1 hm.distinct
  rcases Nat.lt_trichotomy i j with hij | rfl | hji
  · have hfalse := hdistinct i j hilt hjlt hij
    rw [hi, hj, hsame] at hfalse
    cases hfalse
  · exact congrArg Prod.snd (hi.symm.trans hj)
  · have hfalse := hdistinct j i hjlt hilt hji
    rw [hi, hj, hsame'] at hfalse
    cases hfalse

theorem lookup_eq_ok {m : Model R} {key : Value R} {vid : Nat} :
    m.lookup key = .ok vid ↔ key.isKey = true ∧ m.find? key = some vid := by
  simp only [lookup, lookup?, except_bind_eq_ok]
  cases key.isKey with
  | false => simp
  | true =>
    cases m.find? key with
    | none => simp [throw, throwThe, MonadExceptOf.throw]
    | some v => simp [pure, Except.pure]

/-! ### Bounds and the goal -/

theorem inOrder_new [Unbounded R] (key : Value R) (role : Role) : (Entry.new key role).InOrder := by
  have hlower : Scalar.exact (Entry.new key role).lower = .negInf := Unbounded.exact_neg_infinity
  have hupper : Scalar.exact (Entry.new key role).upper = .posInf := Unbounded.exact_infinity
  refine ⟨?_, ?_, ?_⟩
  · rw [Scalar.isNaN, hlower]
  · rw [Scalar.isNaN, hupper]
  · rw [Scalar.le, hlower, hupper]
    rfl

theorem exact_ne_nan {x : R} (h : Scalar.isNaN x = false) : Scalar.exact x ≠ .nan := by
  intro hnan
  rw [Scalar.isNaN, hnan] at h
  cases h

theorem Change.inOrder [Unbounded R] {m n : Model R} {effect : Effect R} (hm : ∀ e ∈ m.entries, e.InOrder)
    (h : Change m effect n) : ∀ e ∈ n.entries, e.InOrder := by
  have hmodify {vid : Nat} {d : Entry R} (hd : m.entries[vid]? = some d) {f : Entry R → Entry R}
      (hf : (f d).InOrder) : ∀ e ∈ m.entries.modify vid f, e.InOrder := by
    intro e he
    obtain ⟨v, hv⟩ := List.mem_iff_getElem?.1 he
    rcases (modify_get hd f).1 hv with ⟨rfl, rfl⟩ | ⟨-, hv⟩
    · exact hf
    · exact hm e (List.mem_of_getElem? hv)
  cases h with
  | add key role hkey hnew hrole =>
    intro e he
    rcases List.mem_append.1 he with he | he
    · exact hm e he
    · rw [List.mem_singleton.1 he]
      exact inOrder_new key role
  | bounds vid d hd lower upper hlower hupper horder =>
    refine hmodify hd ⟨hlower, hupper, ?_⟩
    exact Extended.le_of_not_lt (exact_ne_nan hlower) (exact_ne_nan hupper) horder
  | flags vid d hd | basic vid d hd | value vid d hd =>
    obtain ⟨hlower, hupper, horder⟩ := hm d (List.mem_of_getElem? hd)
    exact hmodify hd ⟨hlower, hupper, horder⟩
  | nothing | known | coefficient | goal | noGoal => exact hm

theorem Reachable.inOrder [Unbounded R] {m : Model R} (h : m.Reachable) : ∀ e ∈ m.entries, e.InOrder :=
  h.induct (fun _ he => (List.not_mem_nil he).elim) Change.inOrder

/-- The goal is on a row whose key it has. -/
def GoalOnRow (m : Model R) : Prop :=
  ∀ g, m.goal = some g → ∃ e, m.entries[g.row]? = some e ∧ e.isRow = true ∧ e.key = g.key

theorem Change.goalOnRow {m n : Model R} {effect : Effect R} (hm : m.GoalOnRow) (h : Change m effect n) :
    n.GoalOnRow := by
  intro g hg
  have hold (hg : m.goal = some g) : ∃ e, n.entries[g.row]? = some e ∧ e.isRow = true ∧ e.key = g.key := by
    obtain ⟨d, hd, hrow, hkey⟩ := hm g hg
    obtain ⟨e, he, hkin⟩ := h.kept g.row d hd
    exact ⟨e, he, hkin.isRow.trans hrow, hkin.key.trans hkey⟩
  cases h with
  | goal vid e he hrow hnone priority minimize =>
    obtain rfl := Option.some.inj hg
    exact ⟨e, he, hrow, rfl⟩
  | noGoal => cases hg
  | _ => exact hold hg

theorem Reachable.goalOnRow {m : Model R} (h : m.Reachable) : m.GoalOnRow := by
  refine h.induct ?_ Change.goalOnRow
  intro g hg
  cases hg

/-! ### The vids that have been handed out -/

/-- The vid that has been handed out, if one was. -/
def Effect.handed? : Effect R → Option Nat
  | .handed vid => some vid
  | .nothing | .wrote .. => none

/-- The vids that the calls returned that added a variable or a row, with those of entries that were there already. -/
def handedOut (calls : List (Call R)) : List Nat :=
  (effects calls).filterMap Effect.handed?

private theorem eraseDups_concat (l : List Nat) (a : Nat) :
    (l ++ [a]).eraseDups = if a ∈ l then l.eraseDups else l.eraseDups ++ [a] := by
  rw [List.eraseDups_append, List.removeAll, List.filter_singleton, List.elem_eq_mem]
  by_cases ha : a ∈ l
  · simp [ha]
  · simp [ha, List.eraseDups_cons]

/-- No vid is handed out before its entry is there, and they are handed out in the order of creation. -/
theorem eraseDups_handedOut (calls : List (Call R)) : (handedOut calls).eraseDups = (performed calls).vids := by
  refine performed_induct (p := fun es m => (es.filterMap Effect.handed?).eraseDups = m.vids) rfl ?_ calls
  intro es m n e hm ih hchange
  have hmem {vid : Nat} : vid ∈ es.filterMap Effect.handed? ↔ vid < m.entries.length := by
    rw [← List.mem_eraseDups, ih, vids, List.mem_range]
  rw [filterMap_concat]
  cases hchange with
  | known key vid hkey hknown =>
    obtain ⟨k, hk, -⟩ := find?_mem hknown
    obtain ⟨d, hd, -⟩ := (hm.named.name k vid).1 hk
    have hold := hmem.2 (List.getElem?_eq_some_iff.1 hd).1
    rw [Effect.handed?, Option.toList_some, eraseDups_concat, if_pos hold, ih]
  | add key role hkey hnew hrole =>
    have hnew : m.entries.length ∉ es.filterMap Effect.handed? := fun h => Nat.lt_irrefl _ (hmem.1 h)
    rw [Effect.handed?, Option.toList_some, eraseDups_concat, if_neg hnew, ih, vids, vids, append,
      List.length_append, List.length_singleton, List.range_succ]
  | bounds | flags | basic | value =>
    rw [Effect.handed?, Option.toList_none, List.append_nil, ih, vids, vids, List.length_modify]
  | nothing | coefficient | goal | noGoal =>
    rw [Effect.handed?, Option.toList_none, List.append_nil]
    exact ih

/-! ### The whole model -/

/-- The vids, the keys, the bounds and the goal of a model are as they should be. -/
structure Coherent (m : Model R) : Prop where
  listed : ∀ vid, vid ∈ m.vids ↔ vid ∈ m.variableVids ∨ vid ∈ m.rowVids
  apart : m.variableVids.Disjoint m.rowVids
  variablesSorted : m.variableVids.Pairwise (· < ·)
  rowsSorted : m.rowVids.Pairwise (· < ·)
  /-- The key of an entry leads to its vid, if it is the same as itself. -/
  toVid : ∀ (vid : Nat) e, m.entry vid = .ok e → e.keyed = true → e.key.same e.key = true →
    m.lookup e.key = .ok vid
  /-- A key leads to the vid of an entry whose key is the same. -/
  toKey : ∀ key (vid : Nat), m.lookup key = .ok vid →
    ∃ e, m.entry vid = .ok e ∧ e.keyed = true ∧ e.key.same key = true
  unique : ∀ (v w : Nat) d e, m.entry v = .ok d → m.entry w = .ok e → d.keyed = true → e.keyed = true →
    d.key.same e.key = true → v = w
  bounds : ∀ (vid : Nat) e, m.entry vid = .ok e → e.InOrder
  oneGoal : m.goals.length ≤ 1
  goal : ∀ g ∈ m.goals, g.row ∈ m.rowVids ∧ ∃ e, m.entry g.row = .ok e ∧ e.key = g.key
  mixed : m.isMixed = true ↔ (∃ vid ∈ m.variableVids, ∃ e, m.entry vid = .ok e ∧ e.integer = true) ∨
    ∃ vid ∈ m.rowVids, ∃ e, m.entry vid = .ok e ∧ e.sos ≠ .none

section Listings

omit [Scalar R]

theorem entry_natCast {m : Model R} {vid : Nat} {e : Entry R} :
    m.entry vid = .ok e ↔ m.entries[vid]? = some e := by
  rw [entry_eq_ok, Int.toNat_natCast]
  exact and_iff_right (Int.natCast_nonneg vid)

theorem vidsWhere_sorted (m : Model R) (p : Entry R → Bool) : (m.vidsWhere p).Pairwise (· < ·) :=
  List.pairwise_lt_range.filter _

theorem mem_vids {m : Model R} {vid : Nat} : vid ∈ m.vids ↔ ∃ e, m.entries[vid]? = some e := by
  rw [vids, List.mem_range]
  exact ⟨fun h => ⟨_, List.getElem?_eq_getElem h⟩, fun ⟨_, h⟩ => (List.getElem?_eq_some_iff.1 h).1⟩

theorem vids_listed (m : Model R) (vid : Nat) : vid ∈ m.vids ↔ vid ∈ m.variableVids ∨ vid ∈ m.rowVids := by
  rw [mem_vids, mem_variableVids, mem_rowVids]
  constructor
  · rintro ⟨e, he⟩
    cases hrow : e.isRow with
    | false => exact .inl ⟨e, he, hrow⟩
    | true => exact .inr ⟨e, he, hrow⟩
  · rintro (⟨e, he, -⟩ | ⟨e, he, -⟩)
    · exact ⟨e, he⟩
    · exact ⟨e, he⟩

/-- A model needs a search when a variable is integer or a row is a set. -/
theorem isMixed_iff (m : Model R) :
    m.isMixed = true ↔ (∃ vid ∈ m.variableVids, ∃ e, m.entry vid = .ok e ∧ e.integer = true) ∨
      ∃ vid ∈ m.rowVids, ∃ e, m.entry vid = .ok e ∧ e.sos ≠ .none := by
  have hinteger : 0 < m.integerCount ↔ ∃ vid ∈ m.variableVids, ∃ e, m.entry vid = .ok e ∧ e.integer = true := by
    rw [integerCount, List.length_pos_iff_exists_mem]
    constructor
    · rintro ⟨e, he⟩
      obtain ⟨hmem, hint⟩ := List.mem_filter.1 he
      obtain ⟨vid, hvid⟩ := List.mem_iff_getElem?.1 hmem
      have hvar : e.isRow = false := by
        unfold Entry.integer at hint
        cases hrole : e.role with
        | row sos => simp [hrole] at hint
        | «variable» => simp [Entry.isRow, hrole]
      exact ⟨vid, mem_variableVids.2 ⟨e, hvid, hvar⟩, e, entry_natCast.2 hvid, hint⟩
    · rintro ⟨vid, -, e, he, hint⟩
      exact ⟨e, List.mem_filter.2 ⟨List.mem_of_getElem? (entry_natCast.1 he), hint⟩⟩
  have hsos : m.hasSos = true ↔ ∃ vid ∈ m.rowVids, ∃ e, m.entry vid = .ok e ∧ e.sos ≠ .none := by
    simp only [hasSos, List.any_eq_true, Bool.and_eq_true, bne_iff_ne]
    constructor
    · rintro ⟨e, hmem, hrow, hset⟩
      obtain ⟨vid, hvid⟩ := List.mem_iff_getElem?.1 hmem
      exact ⟨vid, mem_rowVids.2 ⟨e, hvid, hrow⟩, e, entry_natCast.2 hvid, hset⟩
    · rintro ⟨vid, hrow, e, he, hset⟩
      have hvid := entry_natCast.1 he
      obtain ⟨d, hd, hisRow⟩ := mem_rowVids.1 hrow
      obtain rfl := Option.some.inj (hd.symm.trans hvid)
      exact ⟨d, List.mem_of_getElem? hvid, hisRow, hset⟩
  rw [isMixed, Bool.or_eq_true, decide_eq_true_eq, hinteger, hsos]

end Listings

theorem Reachable.coherent [Unbounded R] {m : Model R} (h : m.Reachable) : m.Coherent where
  listed := vids_listed m
  apart := variableVids_disjoint m
  variablesSorted := vidsWhere_sorted m _
  rowsSorted := vidsWhere_sorted m _
  toVid vid e he hkeyed hself := by
    have hget := entry_natCast.1 he
    have hname := (h.named.name e.key vid).2 ⟨e, hget, hkeyed, rfl⟩
    exact lookup_eq_ok.2 ⟨h.named.isKey e (List.mem_of_getElem? hget), h.named.find? hname hself⟩
  toKey key vid hlookup := by
    obtain ⟨k, hname, hsame⟩ := find?_mem (lookup_eq_ok.1 hlookup).2
    obtain ⟨e, he, hkeyed, rfl⟩ := (h.named.name k vid).1 hname
    exact ⟨e, entry_natCast.2 he, hkeyed, hsame⟩
  unique v w d e hd he hdkeyed hekeyed hsame :=
    h.named.unique (entry_natCast.1 hd) (entry_natCast.1 he) hdkeyed hekeyed hsame
  bounds vid e he := h.inOrder e (List.mem_of_getElem? (entry_natCast.1 he))
  oneGoal := Option.length_toList_le
  goal g hg := by
    obtain ⟨e, he, hrow, hkey⟩ := h.goalOnRow g (Option.mem_toList.1 hg)
    exact ⟨mem_rowVids.2 ⟨e, he, hrow⟩, e, entry_natCast.2 he, hkey⟩
  mixed := isMixed_iff m

/-- After any calls, the vids that were handed out are `0, …, n - 1` in the order of creation, the model is as it
should be, and all its entries stay what they are whatever calls come next. -/
theorem performed_identity [Unbounded R] (calls : List (Call R)) :
    (handedOut calls).eraseDups = List.range (performed calls).entries.length ∧
      Coherent (performed calls) ∧ ∀ more, Kept (performed calls) (performed (calls ++ more)) :=
  ⟨eraseDups_handedOut calls, (reachable_performed calls).coherent, kept_performed calls⟩

/-- A model with five entries, two of which are variables. -/
theorem performed_identity_mixture :
    (handedOut mixture).eraseDups = [0, 1, 2, 3, 4] ∧ Coherent (performed mixture) ∧
      ∀ more, Kept (performed mixture) (performed (mixture ++ more)) := by
  obtain ⟨hvids, hcoherent, hkept⟩ := performed_identity mixture
  exact ⟨hvids.trans (by decide), hcoherent, hkept⟩

end Model

end Optima
