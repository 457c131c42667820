import Mathlib.Data.List.Nodup

/-!
# Looking up in lists of pairs

A list of pairs taken as a table: the first component is the key, and a look-up finds the first pair with the key.  The
keys of a table are `l.map Prod.fst`.
-/

namespace Optima

variable {α β : Type} [BEq α] [LawfulBEq α]

theorem lookup_isSome {l : List (α × β)} {a : α} : (l.lookup a).isSome = true ↔ a ∈ l.map Prod.fst := by
  rw [List.lookup_isSome_iff, List.mem_map]
  simp only [beq_iff_eq]
  exact exists_congr fun p => and_congr_right fun _ => eq_comm

theorem lookup_eq_none {l : List (α × β)} {a : α} (h : a ∉ l.map Prod.fst) : l.lookup a = none := by
  rw [← lookup_isSome, Bool.not_eq_true] at h
  exact Option.isNone_iff_eq_none.1 (by simpa using h)

theorem lookup_eq_some_iff_mem {l : List (α × β)} (h : (l.map Prod.fst).Nodup) {a : α} {b : β} :
    l.lookup a = some b ↔ (a, b) ∈ l := by
  induction l with
  | nil => simp
  | cons p l ih =>
    rw [List.map_cons, List.nodup_cons] at h
    rw [List.lookup_cons, List.mem_cons]
    by_cases hp : a = p.1
    · subst hp
      have hrest : (p.1, b) ∉ l := fun hmem => h.1 (List.mem_map.2 ⟨_, hmem, rfl⟩)
      simp only [BEq.rfl, Option.some.injEq, hrest, or_false]
      constructor
      · exact fun hb => Prod.ext rfl hb.symm
      · exact fun hb => (congrArg Prod.snd hb).symm
    · have hne : (a == p.1) = false := by simpa using hp
      rw [hne, ih h.2]
      constructor
      · exact .inr
      · rintro (rfl | hmem)
        · exact absurd rfl hp
        · exact hmem

/-- Taking away what stands under one key leaves what stands under the others. -/
theorem lookup_filter_ne {a n : α} (hne : a ≠ n) (l : List (α × β)) :
    (l.filter fun p => p.1 != n).lookup a = l.lookup a := by
  induction l with
  | nil => rfl
  | cons p l ih =>
    by_cases hp : p.1 = n
    · have hother : (a == p.1) = false := beq_false_of_ne (hp ▸ hne)
      rw [List.filter_cons_of_neg (by simp [hp]), List.lookup_cons, hother, ih]
    · rw [List.filter_cons_of_pos (by simp [hp]), List.lookup_cons, List.lookup_cons, ih]

/-- Changing what stands under one key leaves the keys. -/
theorem map_fst_mapAt (l : List (α × β)) (n : α) (f : β → β) :
    (l.map fun p => if p.1 == n then (n, f p.2) else p).map Prod.fst = l.map Prod.fst := by
  rw [List.map_map]
  refine List.map_congr_left fun p _ => ?_
  rw [Function.comp_apply]
  split
  · next h => exact (eq_of_beq h).symm
  · rfl

/-- What is found after a change of what stands under one key. -/
theorem lookup_mapAt (l : List (α × β)) (n : α) (f : β → β) (a : α) :
    (l.map fun p => if p.1 == n then (n, f p.2) else p).lookup a =
      if a == n then (l.lookup a).map f else l.lookup a := by
  induction l with
  | nil => simp
  | cons p l ih =>
    rw [List.map_cons, List.lookup_cons, List.lookup_cons, ih]
    by_cases hp : p.1 = n
    · subst hp
      by_cases ha : a = p.1
      · simp [ha]
      · have hne : (a == p.1) = false := by simpa using ha
        simp [hne]
    · have hpn : (p.1 == n) = false := by simpa using hp
      simp only [hpn, Bool.false_eq_true, ↓reduceIte]
      by_cases ha : a = p.1
      · subst ha
        simp [hpn]
      · have hne : (a == p.1) = false := by simpa using ha
        simp [hne]

end Optima
