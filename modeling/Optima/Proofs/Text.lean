import Optima.Text.Blank
import Optima.Text.Line

/-!
# Words and lines

What `strip`, `words` and `lines` do to texts that are put together from solid pieces: the blanks after such a piece
are dropped (`strip_append`), the words of a text are solid (`mem_words`), and a line is split off together with its
line feed (`lines_cons`).
-/

namespace Optima.Text

/-- A text without blanks. -/
def Solid (s : List Char) : Prop :=
  ∀ c ∈ s, isBlank c = false

/-- A text on one line. -/
def Unbroken (s : List Char) : Prop :=
  ∀ c ∈ s, c ≠ '\n' ∧ c ≠ '\r'

theorem Solid.of_all {s : List Char} (h : s.all (fun c => !isBlank c) = true) : Solid s := by
  intro c hc
  have hsolid := List.all_eq_true.1 h c hc
  rwa [Bool.not_eq_true'] at hsolid

theorem Unbroken.append {s t : List Char} (hs : Unbroken s) (ht : Unbroken t) : Unbroken (s ++ t) := by
  intro c hc
  rcases List.mem_append.1 hc with hc | hc
  · exact hs c hc
  · exact ht c hc

theorem Solid.unbroken {s : List Char} (hs : Solid s) : Unbroken s := by
  intro c hc
  have hsolid := hs c hc
  constructor
  · rintro rfl
    cases hsolid
  · rintro rfl
    cases hsolid

/-! ### The ends of a text -/

theorem dropWhile_eq_self {p : Char → Bool} {s : List Char} (hs : ∀ c ∈ s.head?, p c = false) :
    s.dropWhile p = s := by
  cases s with
  | nil => rfl
  | cons c rest =>
    rw [List.dropWhile_cons_of_neg]
    rw [hs c rfl]
    exact Bool.false_ne_true

theorem dropEndWhile_eq_self {p : Char → Bool} {s : List Char} (hs : ∀ c ∈ s.getLast?, p c = false) :
    dropEndWhile p s = s := by
  have hdrop : s.reverse.dropWhile p = s.reverse := dropWhile_eq_self (by rwa [List.head?_reverse])
  rw [dropEndWhile, hdrop, List.reverse_reverse]

theorem dropEndWhile_append {p : Char → Bool} {s t : List Char} (hs : ∀ c ∈ s.getLast?, p c = false)
    (ht : ∀ c ∈ t, p c = true) : dropEndWhile p (s ++ t) = s := by
  have hdrop : (s ++ t).reverse.dropWhile p = s.reverse.dropWhile p := by
    rw [List.reverse_append]
    exact List.dropWhile_append_of_pos fun c hc => ht c (List.mem_reverse.1 hc)
  rw [dropEndWhile, hdrop]
  exact dropEndWhile_eq_self hs

theorem strip_eq_self {s : List Char} (hfirst : ∀ c ∈ s.head?, isBlank c = false)
    (hlast : ∀ c ∈ s.getLast?, isBlank c = false) : strip s = s := by
  rw [strip, dropWhile_eq_self hfirst, dropEndWhile_eq_self hlast]

theorem getLast?_append_right (s : List Char) {t : List Char} (ht : t ≠ []) : (s ++ t).getLast? = t.getLast? := by
  rw [List.getLast?_append]
  cases hlast : t.getLast? with
  | none => exact absurd (List.getLast?_eq_none_iff.1 hlast) ht
  | some c => rfl

/-- A text that starts and ends with no blank is what is left of it with blanks after it. -/
theorem strip_append {s t : List Char} (hne : s ≠ []) (hfirst : ∀ c ∈ s.head?, isBlank c = false)
    (hlast : ∀ c ∈ s.getLast?, isBlank c = false) (ht : ∀ c ∈ t, isBlank c = true) : strip (s ++ t) = s := by
  have hhead : (s ++ t).head? = s.head? := by
    cases s with
    | nil => exact absurd rfl hne
    | cons c rest => rfl
  rw [strip, dropWhile_eq_self (hhead ▸ hfirst), dropEndWhile_append hlast ht]

theorem Solid.head {s : List Char} (hs : Solid s) : ∀ c ∈ s.head?, isBlank c = false :=
  fun c hc => hs c (List.mem_of_head? hc)

theorem Solid.last {s : List Char} (hs : Solid s) : ∀ c ∈ s.getLast?, isBlank c = false :=
  fun c hc => hs c (List.mem_of_getLast? hc)

/-! ### Words -/

private theorem mem_runsFrom {p : Char → Bool} {s run w : List Char} (hrun : ∀ c ∈ run, p c = false)
    (h : w ∈ runsFrom p run s) : w ≠ [] ∧ ∀ c ∈ w, p c = false := by
  induction s generalizing run with
  | nil =>
    unfold runsFrom at h
    split at h
    · cases h
    · next hne =>
      rw [List.mem_singleton.1 h]
      exact ⟨fun hnil => hne (List.isEmpty_iff.2 hnil), hrun⟩
  | cons c rest ih =>
    unfold runsFrom at h
    split at h
    · split at h
      · exact ih (fun d hd => (List.not_mem_nil hd).elim) h
      · next hne =>
        rcases List.mem_cons.1 h with rfl | h
        · exact ⟨fun hnil => hne (List.isEmpty_iff.2 hnil), hrun⟩
        · exact ih (fun d hd => (List.not_mem_nil hd).elim) h
    · next hc =>
      refine ih (List.forall_mem_append.2 ⟨hrun, ?_⟩) h
      intro d hd
      rw [List.mem_singleton.1 hd]
      exact Bool.not_eq_true _ ▸ hc

/-- A word is not empty, and it has no blanks. -/
theorem mem_words {s w : List Char} (h : w ∈ words s) : w ≠ [] ∧ Solid w :=
  mem_runsFrom (fun _ hc => (List.not_mem_nil hc).elim) h

/-! ### Lines -/

private theorem normalizeLines_append {line : List Char} (hline : Unbroken line) (rest : List Char) :
    normalizeLines (line ++ '\n' :: rest) = line ++ '\n' :: normalizeLines rest := by
  induction line with
  | nil => rfl
  | cons c line ih =>
    have hc := hline c (List.mem_cons_self ..)
    rw [List.cons_append, normalizeLines, ih fun d hd => hline d (List.mem_cons_of_mem _ hd)]
    · rfl
    · rintro rest' rfl
      exact absurd rfl hc.2
    · rintro rfl
      exact absurd rfl hc.2

private theorem linesFrom_append {line : List Char} (hline : Unbroken line) (piece rest : List Char) :
    linesFrom piece (line ++ '\n' :: rest) = (piece ++ line ++ ['\n']) :: linesFrom [] rest := by
  induction line generalizing piece with
  | nil => rw [List.nil_append, linesFrom, List.append_nil]
  | cons c line ih =>
    have hc := hline c (List.mem_cons_self ..)
    rw [List.cons_append, linesFrom, ih fun d hd => hline d (List.mem_cons_of_mem _ hd)]
    · simp
    · exact hc.1

/-- The first line of a text. -/
theorem lines_cons {line : List Char} (hline : Unbroken line) (rest : List Char) :
    lines (line ++ '\n' :: rest) = (line ++ ['\n']) :: lines rest := by
  rw [lines, normalizeLines_append hline, linesFrom_append hline, List.nil_append]
  rfl

end Optima.Text
