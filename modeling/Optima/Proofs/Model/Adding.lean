import Optima.Proofs.Model.Identity
import Optima.Proofs.Model.WriteOrder

/-!
# Adding keys

All keys of a model are in one table, and adding a key that is in use gives the vid it names instead of a new entry.
So when keys are added one after the other, each key has a new entry unless an earlier one is the same, and the number
of new entries is `newAmong`.

`Knows` ties a model to the keys that have been added so far.  `Advances` is what adding some more keys does when
nothing is written in between but to the entries that were given for these keys: the entries of other keys are
untouched.
-/

namespace Optima.Model

variable {R : Type} [Scalar R]

/-- The number of new entries when keys are added one after the other, and others have been added before. -/
def newAmong (before : List (Value R)) : List (Value R) → Nat
  | [] => 0
  | key :: keys => (if before.any (·.clashes key) then 0 else 1) + newAmong (before ++ [key]) keys

theorem newAmong_append (before keys more : List (Value R)) :
    newAmong before (keys ++ more) = newAmong before keys + newAmong (before ++ keys) more := by
  induction keys generalizing before with
  | nil => simp [newAmong]
  | cons key keys ih => simp [newAmong, ih, Nat.add_assoc]

/-- Each key has a new entry when no two of them are the same. -/
theorem newAmong_eq_length {before keys : List (Value R)}
    (h : ∀ i key, keys[i]? = some key → ∀ k ∈ before ++ keys.take i, k.clashes key = false) :
    newAmong before keys = keys.length := by
  induction keys generalizing before with
  | nil => rfl
  | cons key keys ih =>
    have hany : before.any (·.clashes key) = false := by
      refine List.any_eq_false.2 fun k hk => ?_
      rw [h 0 key rfl k (by simpa using hk)]
      exact Bool.false_ne_true
    have hrest : newAmong (before ++ [key]) keys = keys.length := ih fun i k hi => by simpa using h (i + 1) k hi
    rw [newAmong, hany, hrest, List.length_cons, Nat.add_comm]
    rfl

/-! ### Finding keys -/

omit [Scalar R] in
theorem keyed_iff {e : Entry R} : e.keyed = true ↔ e.key ≠ .nothing := by
  unfold Entry.keyed
  cases e.key <;> simp

/-- What a key in use names: an entry whose key is the same. -/
theorem Named.entry_of_find? {m : Model R} (hm : m.Named) {key : Value R} {vid : Nat} (h : m.find? key = some vid) :
    ∃ e, m.entries[vid]? = some e ∧ e.keyed = true ∧ e.key.isKey = true ∧ e.key.clashes key = true := by
  obtain ⟨k, hname, hsame⟩ := find?_mem h
  obtain ⟨e, he, hkeyed, rfl⟩ := (hm.name k vid).1 hname
  exact ⟨e, he, hkeyed, hm.isKey e (List.mem_of_getElem? he), Value.clashes_iff.2 ⟨keyed_iff.1 hkeyed, hsame⟩⟩

theorem Named.isKey_of_find? {m : Model R} (hm : m.Named) {key : Value R} {vid : Nat} (h : m.find? key = some vid) :
    key.isKey = true := by
  obtain ⟨e, -, -, hkey, hclash⟩ := hm.entry_of_find? h
  have hsame := (Value.clashes_iff.1 hclash).2
  cases key with
  | list items => cases hk : e.key <;> simp [hk, Value.same, Value.isKey] at hsame hkey
  | _ => rfl

/-- Two keys in use name the same entry when they are the same. -/
theorem Named.find?_inj {m : Model R} (hm : m.Named) {key key' : Value R} {v v' : Nat} (h : m.find? key = some v)
    (h' : m.find? key' = some v') : key.same key' = true ↔ v = v' := by
  obtain ⟨e, he, hkeyed, hkey, hclash⟩ := hm.entry_of_find? h
  obtain ⟨e', he', hkeyed', hkey', hclash'⟩ := hm.entry_of_find? h'
  have hk := hm.isKey_of_find? h
  have hk' := hm.isKey_of_find? h'
  have hsame := (Value.clashes_iff.1 hclash).2
  have hsame' := (Value.clashes_iff.1 hclash').2
  constructor
  · intro hkk
    have hback : key'.same e'.key = true := by rwa [Value.same_comm hk' hkey']
    exact hm.unique he he' hkeyed hkeyed'
      (Value.same_trans hkey hk hkey' hsame (Value.same_trans hk hk' hkey' hkk hback))
  · rintro rfl
    obtain rfl := Option.some.inj (he.symm.trans he')
    have hback : key.same e.key = true := by rwa [Value.same_comm hk hkey]
    exact Value.same_trans hk hkey hk' hback hsame'

/-- An entry is named by its key, and by the keys that are the same. -/
theorem Named.find?_eq {m : Model R} (hm : m.Named) {key : Value R} {vid : Nat} {e : Entry R} (hkey : key.isKey = true)
    (he : m.entries[vid]? = some e) (hclash : e.key.clashes key = true) : m.find? key = some vid := by
  obtain ⟨hne, hsame⟩ := Value.clashes_iff.1 hclash
  have hname := (hm.name e.key vid).2 ⟨e, he, keyed_iff.2 hne, rfl⟩
  cases hfind : m.find? key with
  | none =>
    rw [Model.find?, Option.map_eq_none_iff, List.find?_eq_none] at hfind
    exact absurd hsame (hfind _ hname)
  | some w =>
    obtain ⟨d, hd, hkeyed, hdkey, hdclash⟩ := hm.entry_of_find? hfind
    have hekey := hm.isKey e (List.mem_of_getElem? he)
    rw [Value.clashes_comm hekey hkey, ← Value.clashes_congr hdkey hkey hekey hdclash] at hclash
    rw [hm.unique hd he hkeyed (keyed_iff.2 hne) (Value.clashes_iff.1 hclash).2]

/-- A key in use is the same as itself. -/
theorem Named.same_self {m : Model R} (hm : m.Named) {key : Value R} {vid : Nat} (h : m.find? key = some vid) :
    key.clashes key = true := by
  obtain ⟨e, -, -, hkey, hclash⟩ := hm.entry_of_find? h
  have hk := hm.isKey_of_find? h
  exact Value.clashes_trans hk hkey hk (by rwa [Value.clashes_comm hk hkey]) hclash

theorem find?_append {m : Model R} (key : Value R) (role : Role) (k : Value R) :
    (m.append (Entry.new key role)).find? k =
      (m.find? k).or (if key.clashes k then some m.entries.length else none) := by
  have hclash : key.clashes k = ((Entry.new key role).keyed && key.same k) := by cases key <;> rfl
  rw [hclash, find?, find?, append]
  cases (Entry.new key role).keyed with
  | false => simp
  | true =>
    simp only [↓reduceIte, Bool.true_and, List.find?_append, Option.map_or, List.find?_singleton]
    congr 1
    cases hsame : key.same k with
    | true => simp [Entry.new, hsame]
    | false => simp [Entry.new, hsame]

/-! ### What is left alone -/

/-- The entry and its row are the same. -/
structure Untouched (v : Nat) (m n : Model R) : Prop where
  entry : n.entries[v]? = m.entries[v]?
  row : ∀ var, n.matrix.get? v var = m.matrix.get? v var

omit [Scalar R] in
theorem Untouched.refl (v : Nat) (m : Model R) : Untouched v m m := ⟨rfl, fun _ => rfl⟩

omit [Scalar R] in
theorem Untouched.trans {v : Nat} {l m n : Model R} (h : Untouched v l m) (h' : Untouched v m n) : Untouched v l n :=
  ⟨h'.entry.trans h.entry, fun var => (h'.row var).trans (h.row var)⟩

/-- Something has been written to one entry or to its row, and to nothing else. -/
structure Writes (vid : Nat) (m n : Model R) : Prop where
  reachable : n.Reachable
  names : n.names = m.names
  goal : n.goal = m.goal
  length : n.entries.length = m.entries.length
  rowVids : n.rowVids = m.rowVids
  kept : Kept m n
  others : ∀ v, v ≠ vid → Untouched v m n

namespace Writes

variable {vid : Nat} {l m n : Model R}

theorem refl (h : m.Reachable) : Writes vid m m :=
  ⟨h, rfl, rfl, rfl, rfl, .refl m, fun v _ => .refl v m⟩

theorem trans (h : Writes vid l m) (h' : Writes vid m n) : Writes vid l n :=
  ⟨h'.reachable, h'.names.trans h.names, h'.goal.trans h.goal, h'.length.trans h.length,
    h'.rowVids.trans h.rowVids, h.kept.trans h'.kept, fun v hv => (h.others v hv).trans (h'.others v hv)⟩

theorem find? (h : Writes vid m n) (key : Value R) : n.find? key = m.find? key := by
  rw [Model.find?, Model.find?, h.names]

end Writes

/-- What adding a key gives: the vid that it names already, or that of a new entry. -/
inductive Found (m : Model R) (key : Value R) (role : Role) : Nat → Model R → Prop where
  | known {vid : Nat} (h : m.find? key = some vid) : Found m key role vid m
  | new (h : m.find? key = none) : Found m key role m.entries.length (m.append (Entry.new key role))

namespace Found

variable {m base : Model R} {key : Value R} {role : Role} {vid : Nat}

theorem find? (h : Found m key role vid base) (hself : key.clashes key = true) : base.find? key = some vid := by
  cases h with
  | known h => exact h
  | new h => rw [find?_append, h, hself, Option.none_or, if_pos rfl]

/-- A key that is free gets a new entry. -/
theorem of_free (h : Found m key role vid base) (hfree : m.find? key = none) :
    vid = m.entries.length ∧ base = m.append (Entry.new key role) := by
  cases h with
  | known h =>
    rw [hfree] at h
    cases h
  | new => exact ⟨rfl, rfl⟩

/-- Entries that were there stay as they are. -/
theorem untouched (h : Found m key role vid base) {v : Nat} {e : Entry R} (he : m.entries[v]? = some e) :
    Untouched v m base := by
  cases h with
  | known => exact .refl v m
  | new => exact ⟨List.getElem?_append_left (List.getElem?_eq_some_iff.1 he).1, fun var => get?_append m _ v var⟩

end Found

theorem add_ok {m n : Model R} {key : Value R} {role : Role} {vid : Nat} (hrun : add key role m = .ok vid n) :
    key.isKey = true ∧ Found m key role vid n := by
  unfold add lookup? at hrun
  rw [Action.get_bind_run] at hrun
  obtain ⟨known, hknown, hrun⟩ := Action.lift_bind_eq_ok.1 hrun
  split at hknown
  · next hkey =>
    cases hknown
    cases hfind : m.find? key with
    | none =>
      rw [hfind] at hrun
      cases hrun
      exact ⟨hkey, .new hfind⟩
    | some v =>
      rw [hfind] at hrun
      cases hrun
      exact ⟨hkey, .known hfind⟩
  · cases hknown

/-! ### Adding keys one after the other -/

/-- These are the keys that have been added to a model. -/
structure Knows (m : Model R) (keys : List (Value R)) : Prop where
  reachable : m.Reachable
  isKey : ∀ k ∈ keys, k.isKey = true
  free : ∀ key, key.isKey = true → (m.find? key = none ↔ ∀ k ∈ keys, k.clashes key = false)

theorem knows_empty : Knows (.empty : Model R) [] where
  reachable := .empty
  isKey _ h := (List.not_mem_nil h).elim
  free _ _ := iff_of_true rfl fun _ h => (List.not_mem_nil h).elim

/-- Keys have been added one after the other, and nothing has been written but to their entries. -/
structure Advances (isRow : Bool) (before keys : List (Value R)) (m n : Model R) : Prop where
  knows : Knows n (before ++ keys)
  length : n.entries.length = m.entries.length + newAmong before keys
  rowVids : n.rowVids.length = m.rowVids.length + if isRow then newAmong before keys else 0
  names : ∃ more, n.names = m.names ++ more
  goal : n.goal = m.goal
  kept : Kept m n
  /-- Each key is that of an entry, or the same. -/
  added : ∀ key ∈ keys, ∃ (vid : Nat) (e : Entry R),
    n.entries[vid]? = some e ∧ (e.key = key ∨ e.key.clashes key = true)
  untouched : ∀ v e, m.entries[v]? = some e → (∀ key ∈ keys, e.key.clashes key = false) → Untouched v m n

namespace Advances

variable {isRow : Bool} {before keys more : List (Value R)} {l m n : Model R}

theorem refl (h : Knows m before) : Advances isRow before [] m m where
  knows := by rwa [List.append_nil]
  length := rfl
  rowVids := by cases isRow <;> rfl
  names := ⟨[], (List.append_nil _).symm⟩
  goal := rfl
  kept := .refl m
  added _ hkey := (List.not_mem_nil hkey).elim
  untouched v _ _ _ := .refl v m

theorem trans (h : Advances isRow before keys l m) (h' : Advances isRow (before ++ keys) more m n) :
    Advances isRow before (keys ++ more) l n where
  knows := by
    rw [← List.append_assoc]
    exact h'.knows
  length := by rw [h'.length, h.length, newAmong_append, Nat.add_assoc]
  rowVids := by
    rw [h'.rowVids, h.rowVids, newAmong_append]
    cases isRow with
    | true => exact Nat.add_assoc ..
    | false => rfl
  names := by
    obtain ⟨some, hsome⟩ := h.names
    obtain ⟨others, hothers⟩ := h'.names
    exact ⟨some ++ others, by rw [hothers, hsome, List.append_assoc]⟩
  goal := h'.goal.trans h.goal
  kept := h.kept.trans h'.kept
  added key hkey := by
    rcases List.mem_append.1 hkey with hold | hnew
    · obtain ⟨vid, d, hd, hsame⟩ := h.added key hold
      obtain ⟨e, he, hkin⟩ := h'.kept vid d hd
      exact ⟨vid, e, he, hkin.key ▸ hsame⟩
    · exact h'.added key hnew
  untouched v e he hclash := by
    have hfirst := h.untouched v e he fun key hkey => hclash key (List.mem_append_left _ hkey)
    have hrest := h'.untouched v e (hfirst.entry.trans he) fun key hkey => hclash key (List.mem_append_right _ hkey)
    exact hfirst.trans hrest

/-- A key goes on to name what it names. -/
theorem find? (h : Advances isRow before keys m n) {key : Value R} {vid : Nat} (hfind : m.find? key = some vid) :
    n.find? key = some vid := by
  obtain ⟨more, hmore⟩ := h.names
  unfold Model.find? at hfind ⊢
  obtain ⟨name, hname, rfl⟩ := Option.map_eq_some_iff.1 hfind
  rw [hmore, List.find?_append, hname]
  rfl

/-- A key that has been added names in the end what it named in the beginning. -/
theorem find?_back (h : Advances isRow before keys m n) (hm : Knows m before) {key : Value R} {vid : Nat}
    (hkey : key ∈ before) (hfind : n.find? key = some vid) : m.find? key = some vid := by
  cases hold : m.find? key with
  | some v => rw [← h.find? hold, hfind]
  | none =>
    have hself := h.knows.reachable.named.same_self hfind
    rw [(hm.free key (hm.isKey key hkey)).1 hold key hkey] at hself
    cases hself

end Advances

namespace Knows

variable {m : Model R} {before : List (Value R)} {key : Value R}

/-- A key has a new entry when it is free. -/
theorem newAmong_free (hm : Knows m before) (hkey : key.isKey = true) (h : m.find? key = none) :
    newAmong before [key] = 1 := by
  have hany : before.any (·.clashes key) = false := by
    rw [List.any_eq_false]
    intro k hk
    rw [(hm.free key hkey).1 h k hk]
    exact Bool.false_ne_true
  simp [newAmong, hany]

theorem newAmong_known (hm : Knows m before) {vid : Nat} (h : m.find? key = some vid) :
    newAmong before [key] = 0 := by
  have hany : before.any (·.clashes key) = true := by
    by_contra hnone
    have hfree : m.find? key = none := by
      refine (hm.free key (hm.reachable.named.isKey_of_find? h)).2 fun k hk => ?_
      by_contra hclash
      exact hnone (List.any_eq_true.2 ⟨k, hk, Bool.not_eq_false _ ▸ hclash⟩)
    rw [hfree] at h
    cases h
  simp [newAmong, hany]

/-- A key that is the same as one that has been added is not free. -/
theorem not_clashes (hm : Knows m before) {vid : Nat} (h : m.find? key = some vid) {k : Value R}
    (hk : k.isKey = true) (hfree : m.find? k = none) : key.clashes k = false := by
  have hkey := hm.reachable.named.isKey_of_find? h
  by_contra hclash
  rw [Bool.not_eq_false] at hclash
  have hnone : m.find? key = none := by
    refine (hm.free key hkey).2 fun k' hk' => ?_
    by_contra hclash'
    rw [Bool.not_eq_false] at hclash'
    rw [← Value.clashes_congr (hm.isKey k' hk') hkey hk hclash', (hm.free k hk).1 hfree k' hk'] at hclash
    cases hclash
  rw [hnone] at h
  cases h

/-- One more key is added. -/
theorem advances {base n : Model R} {role : Role} {vid : Nat} (hm : Knows m before) (hkey : key.isKey = true)
    (hfound : Found m key role vid base) (hwrites : Writes vid base n) :
    Advances (Entry.new key role).isRow before [key] m n := by
  have hisKey : ∀ k ∈ before ++ [key], k.isKey = true := by
    intro k hk
    rcases List.mem_append.1 hk with hold | hnew
    · exact hm.isKey k hold
    · rw [List.mem_singleton.1 hnew]
      exact hkey
  have hforall (k : Value R) : (∀ k' ∈ before ++ [key], k'.clashes k = false) ↔
      (∀ k' ∈ before, k'.clashes k = false) ∧ key.clashes k = false := by
    simp [or_imp, forall_and]
  have hadded {d : Entry R} (hd : base.entries[vid]? = some d) (hsame : d.key = key ∨ d.key.clashes key = true) :
      ∀ k ∈ [key], ∃ (v : Nat) (e : Entry R), n.entries[v]? = some e ∧ (e.key = k ∨ e.key.clashes k = true) := by
    intro k hk
    obtain ⟨e, he, hkin⟩ := hwrites.kept vid d hd
    exact ⟨vid, e, he, by rwa [hkin.key, List.mem_singleton.1 hk]⟩
  cases hfound with
  | known h =>
    have hnew := hm.newAmong_known h
    obtain ⟨d, hd, -, -, hsame⟩ := hm.reachable.named.entry_of_find? h
    refine ⟨⟨hwrites.reachable, hisKey, fun k hk => ?_⟩, ?_, ?_, ⟨[], ?_⟩, hwrites.goal, hwrites.kept,
      hadded hd (.inr hsame), fun v e he hclash => ?_⟩
    · rw [hwrites.find?, hforall, ← hm.free k hk]
      exact ⟨fun hfree => ⟨hfree, hm.not_clashes h hk hfree⟩, fun hboth => hboth.1⟩
    · rw [hwrites.length, hnew, Nat.add_zero]
    · rw [hwrites.rowVids, hnew]
      split <;> rfl
    · rw [hwrites.names, List.append_nil]
    · refine hwrites.others v ?_
      rintro rfl
      obtain rfl := Option.some.inj (hd.symm.trans he)
      rw [hclash key (List.mem_singleton_self key)] at hsame
      cases hsame
  | new h =>
    have hnew := hm.newAmong_free hkey h
    refine ⟨⟨hwrites.reachable, hisKey, fun k hk => ?_⟩, ?_, ?_, ?_, hwrites.goal,
      (kept_append m _).trans hwrites.kept, hadded (append_get.2 (.inr ⟨rfl, rfl⟩)) (.inl rfl), fun v e he _ => ?_⟩
    · rw [hwrites.find?, find?_append, hforall, ← hm.free k hk, Option.or_eq_none_iff]
      cases key.clashes k <;> simp
    · rw [hwrites.length, hnew]
      exact List.length_append
    · rw [hwrites.rowVids, rowVids, vidsWhere_append, List.length_append, hnew]
      split <;> rfl
    · rw [hwrites.names, append]
      split
      · exact ⟨_, rfl⟩
      · exact ⟨[], (List.append_nil _).symm⟩
    · have hlt : v < m.entries.length := (List.getElem?_eq_some_iff.1 he).1
      exact ((Found.new h).untouched he).trans (hwrites.others v (Nat.ne_of_lt hlt))

end Knows

/-- A loop that adds one key in each step. -/
theorem advances_forM {α : Type} {isRow : Bool} {act : α → Edit R Unit} (key : α → Value R)
    (hact : ∀ a {before : List (Value R)} {m n : Model R}, Knows m before → act a m = .ok ⟨⟩ n →
      Advances isRow before [key a] m n)
    {l : List α} {before : List (Value R)} {m n : Model R} (hm : Knows m before) (hrun : l.forM act m = .ok ⟨⟩ n) :
    Advances isRow before (l.map key) m n := by
  induction l generalizing before m with
  | nil =>
    cases hrun
    exact .refl hm
  | cons a l ih =>
    obtain ⟨⟨⟩, k, hfirst, hrest⟩ := Action.bind_eq_ok.1 hrun
    have hone := hact a hm hfirst
    exact hone.trans (ih hone.knows hrest)

end Optima.Model
