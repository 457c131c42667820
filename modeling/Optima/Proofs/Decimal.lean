import Mathlib.Data.List.Basic
import Mathlib.Data.List.TakeWhile
import Optima.Decimal.Notation
import Optima.Decimal.Numeral
import Optima.Number.Binary64
import Optima.Proofs.Text

/-!
# Numbers that are read back

The written form of an integer is read back as the integer (`readInteger?_toString`).  The written forms of integers
and of floating-point numbers are made of digits, signs, points and a few letters, so they have no blanks and no
percent signs (`plain_toString`, `plain_text`).
-/

namespace Optima.Decimal

open Text (isBlank asciiDigit?)

/-- The characters that numbers are written with. -/
def isNumeric (c : Char) : Bool :=
  c.isDigit || ['.', '+', '-', 'e', 'i', 'n', 'f', 'a'].contains c

/-- A text that is not empty and made of the characters of numbers. -/
structure Plain (s : List Char) : Prop where
  nonempty : s ≠ []
  numeric : ∀ c ∈ s, isNumeric c = true

/-- All of them are in ASCII, above the blanks and the percent sign. -/
theorem isNumeric_range {c : Char} (h : isNumeric c = true) : 43 ≤ c.toNat ∧ c.toNat ≤ 110 := by
  rcases Bool.or_eq_true_iff.1 h with h | h
  · simp only [Char.isDigit, Bool.and_eq_true, decide_eq_true_eq] at h
    have hrange : 48 ≤ c.toNat ∧ c.toNat ≤ 57 := h
    omega
  · simp only [List.contains_eq_mem, decide_eq_true_eq, List.mem_cons, List.not_mem_nil, or_false] at h
    rcases h with rfl | rfl | rfl | rfl | rfl | rfl | rfl | rfl <;> decide

namespace Plain

variable {s : List Char}

theorem of_all (h : (!s.isEmpty && s.all isNumeric) = true) : Plain s := by
  rw [Bool.and_eq_true, Bool.not_eq_true', List.isEmpty_eq_false_iff] at h
  exact ⟨h.1, List.all_eq_true.1 h.2⟩

variable (h : Plain s)

include h

theorem solid : Text.Solid s := by
  intro c hc
  have hrange := isNumeric_range (h.numeric c hc)
  simp only [isBlank, Bool.or_eq_false_iff, Bool.and_eq_false_iff, decide_eq_false_iff_not, beq_eq_false_iff_ne]
  omega

theorem percent : '%' ∉ s :=
  fun hmem => absurd (isNumeric_range (h.numeric '%' hmem)).1 (by decide)

theorem normalize : Numeral.normalize s = s := by
  have hascii : Text.isAscii s = true := by
    refine List.all_eq_true.2 fun c hc => decide_eq_true ?_
    have hrange := isNumeric_range (h.numeric c hc)
    omega
  rw [Numeral.normalize, if_pos hascii]

theorem trimBlanks : Numeral.trimBlanks s = s := by
  have hblank : ∀ c ∈ s, Text.isAsciiBlank c = false := by
    intro c hc
    have hrange := isNumeric_range (h.numeric c hc)
    simp only [Text.isAsciiBlank, Bool.or_eq_false_iff, Bool.and_eq_false_iff, decide_eq_false_iff_not,
      beq_eq_false_iff_ne]
    omega
  rw [Numeral.trimBlanks, Text.dropWhile_eq_self fun c hc => hblank c (List.mem_of_head? hc),
    Text.dropEndWhile_eq_self fun c hc => hblank c (List.mem_of_getLast? hc)]

end Plain

/-! ### Integers -/

/-- A text of digits alone, as natural numbers are written. -/
def AllDigits (s : List Char) : Prop :=
  ∀ c ∈ s, c.isDigit = true

theorem allDigits_digitsOf (n : Nat) : AllDigits (digitsOf n) :=
  fun _ hc => Nat.isDigit_of_mem_toDigits (by decide) (by decide) hc

theorem asciiDigit?_of_isDigit {c : Char} (h : c.isDigit = true) : asciiDigit? c = some (c.toNat - 48) := by
  have hrange : ('0' ≤ c && c ≤ '9') = true := by
    rw [Char.isDigit, Bool.and_eq_true, decide_eq_true_eq, decide_eq_true_eq] at h
    rw [Bool.and_eq_true, decide_eq_true_eq, decide_eq_true_eq]
    exact h
  rw [asciiDigit?, hrange]
  rfl

namespace AllDigits

variable {s : List Char} (hs : AllDigits s)

include hs

theorem spanDigits : Numeral.spanDigits s = (s, []) := by
  have hall : ∀ c ∈ s, (asciiDigit? c).isSome = true := by
    intro c hc
    rw [asciiDigit?_of_isDigit (hs c hc)]
    rfl
  rw [Numeral.spanDigits, List.takeWhile_eq_self_iff.2 hall, List.dropWhile_eq_nil_iff.2 hall]

theorem joinDigits? (afterDigit : Bool) : Numeral.joinDigits? afterDigit s = some s := by
  induction s generalizing afterDigit with
  | nil => rfl
  | cons c s ih =>
    have hc := hs c (List.mem_cons_self ..)
    have hscore : c ≠ '_' := by
      rintro rfl
      cases hc
    rw [Numeral.joinDigits?, ih fun d hd => hs d (List.mem_cons_of_mem _ hd)]
    · rfl
    · exact fun heq _ => absurd heq hscore
    · exact fun _ _ heq _ => absurd heq hscore

theorem valueOf : Numeral.valueOf s = Nat.ofDigitChars 10 s 0 := by
  rw [Numeral.valueOf, Nat.ofDigitChars_eq_foldl]
  refine List.foldl_ext _ _ 0 fun n c hc => ?_
  rw [asciiDigit?_of_isDigit (hs c hc)]
  rfl

end AllDigits

/-- A sign for a negative number, and digits. -/
def signed (negative : Bool) (digits : List Char) : List Char :=
  if negative then '-' :: digits else digits

theorem toString_eq_signed (n : Int) : (toString n).toList = signed (n < 0) (digitsOf n.natAbs) := by
  cases n with
  | ofNat m =>
    show (Nat.repr m).toList = _
    rw [Nat.repr_eq_ofList_toDigits, String.toList_ofList]
    rfl
  | negSucc m =>
    have hnegative : decide (Int.negSucc m < 0) = true := decide_eq_true (Int.negSucc_lt_zero m)
    show ("-" ++ Nat.repr (m + 1)).toList = _
    simp only [Nat.repr_eq_ofList_toDigits, String.toList_append, String.toList_ofList, hnegative]
    rfl

theorem plain_digitsOf (n : Nat) : Plain (digitsOf n) :=
  ⟨Nat.toDigits_ne_nil, fun c hc => Bool.or_eq_true_iff.2 (.inl (allDigits_digitsOf n c hc))⟩

theorem plain_signed (negative : Bool) {s : List Char} (h : Plain s) : Plain (signed negative s) := by
  cases negative with
  | false => exact h
  | true => exact ⟨List.cons_ne_nil _ _, List.forall_mem_cons.2 ⟨rfl, h.numeric⟩⟩

theorem plain_toString (n : Int) : Plain (toString n).toList := by
  rw [toString_eq_signed]
  exact plain_signed _ (plain_digitsOf _)

theorem splitSign_signed (negative : Bool) {s : List Char} (h : AllDigits s) :
    Numeral.splitSign (signed negative s) = (negative, s) := by
  cases negative with
  | true => rfl
  | false =>
    show Numeral.splitSign s = (false, s)
    unfold Numeral.splitSign
    split
    · exact absurd (h '-' (List.mem_cons_self ..)) (by decide)
    · exact absurd (h '+' (List.mem_cons_self ..)) (by decide)
    · rfl

/-- An integer is read back from its written form. -/
theorem readInteger?_toString (n : Int) : readInteger? (toString n) = some n := by
  have hplain := plain_toString n
  have hdigits := allDigits_digitsOf n.natAbs
  have hvalue : Numeral.valueOf (digitsOf n.natAbs) = n.natAbs := by
    rw [hdigits.valueOf]
    exact Nat.ofDigitChars_ten_toDigits
  unfold readInteger?
  rw [hplain.normalize, hplain.trimBlanks, toString_eq_signed, splitSign_signed _ hdigits]
  simp only [hdigits.joinDigits?, hdigits.spanDigits, hvalue]
  obtain ⟨c, rest, hcons⟩ := List.exists_cons_of_ne_nil (plain_digitsOf n.natAbs).nonempty
  have hc : (asciiDigit? c).isNone = false := by
    rw [asciiDigit?_of_isDigit (hdigits c (hcons ▸ List.mem_cons_self ..))]
    rfl
  rw [hcons]
  simp only [hc, Bool.false_eq_true, ↓reduceIte]
  by_cases hn : n < 0
  · simp only [decide_eq_true hn, ↓reduceIte]
    exact congrArg some (by omega)
  · simp only [decide_eq_false hn, Bool.false_eq_true, ↓reduceIte]
    exact congrArg some (by omega)

/-! ### Floating-point numbers -/

theorem numeric_zeroRun (n : Nat) : ∀ c ∈ zeroRun n, isNumeric c = true := by
  intro c hc
  rw [List.eq_of_mem_replicate hc]
  rfl

theorem plain_append {s t : List Char} (hs : Plain s) (ht : ∀ c ∈ t, isNumeric c = true) : Plain (s ++ t) :=
  ⟨List.append_ne_nil_of_left_ne_nil hs.nonempty t, List.forall_mem_append.2 ⟨hs.numeric, ht⟩⟩

theorem plain_positional {digits : List Char} (h : Plain digits) (p : Int) :
    Plain (Layout.positional digits p) := by
  unfold Layout.positional
  split
  · have hstart : Plain ['0', '.'] := .of_all rfl
    exact plain_append (plain_append hstart (numeric_zeroRun _)) h.numeric
  · split
    · exact plain_append (plain_append h (numeric_zeroRun _)) (List.all_eq_true.1 rfl)
    · refine ⟨List.append_ne_nil_of_right_ne_nil _ (List.cons_ne_nil _ _), List.forall_mem_append.2 ⟨?_, ?_⟩⟩
      · exact fun c hc => h.numeric c (List.mem_of_mem_take hc)
      · exact List.forall_mem_cons.2 ⟨rfl, fun c hc => h.numeric c (List.mem_of_mem_drop hc)⟩

theorem plain_scientific (layout : Layout) {digits : List Char} (h : Plain digits) (p : Int) :
    Plain (layout.scientific digits p) := by
  have hexponent : ∀ c ∈ 'e' :: (if p - 1 < 0 then '-' else '+') :: (zeroRun
      (layout.exponentWidth - (digitsOf (p - 1).natAbs).length) ++ digitsOf (p - 1).natAbs), isNumeric c = true := by
    refine List.forall_mem_cons.2 ⟨rfl, List.forall_mem_cons.2 ⟨by split <;> rfl, List.forall_mem_append.2 ⟨?_, ?_⟩⟩⟩
    · exact numeric_zeroRun _
    · exact (plain_digitsOf _).numeric
  unfold Layout.scientific
  refine plain_append ?_ hexponent
  split
  · exact .of_all rfl
  · exact h
  · next d rest _ =>
    obtain ⟨hd, hrest⟩ := List.forall_mem_cons.1 h.numeric
    exact ⟨List.cons_ne_nil _ _, List.forall_mem_cons.2 ⟨hd, List.forall_mem_cons.2 ⟨rfl, hrest⟩⟩⟩

theorem plain_render (layout : Layout) (d : Digits) : Plain (layout.render d) := by
  unfold Layout.render
  extract_lets digits p
  split
  · exact plain_positional (plain_digitsOf _) _
  · exact plain_scientific layout (plain_digitsOf _) _

theorem plain_text (b : Binary64) : Plain b.text.toList := by
  cases b with
  | nan => exact .of_all rfl
  | infinite negative => cases negative <;> exact .of_all rfl
  | finite negative m q =>
    unfold Binary64.text
    rw [String.toList_ofList]
    refine plain_signed negative ?_
    split
    · exact .of_all rfl
    · exact plain_render _ _

end Optima.Decimal
