import Optima.Proofs.Decimal
import Optima.Proofs.Ini.RoundTrip
import Optima.Settings.Setting

/-!
# Settings that are read back

A settings file holds the written form of every setting, and reads it back by the setting's kind.  A value of the kind
is what its written form is read as (`Kind.read_written`), it stands on one line without blanks and references
(`Kind.plain_written`), and putting it in place changes that setting and no other (`Settings.set_allowed`).
-/

namespace Optima

variable {R : Type} [Scalar R]

namespace Setting

/-- The values that a settings file may give to settings of a kind. -/
def Kind.Allows : Kind → Value R → Prop
  | .flag, v => ∃ b, v = .flag b
  | .whole, v => ∃ n, v = .integer n
  | .real, v => ∃ x, v = .real x ∧ Scalar.isNaN x = false
  | .simplexType, v => ∃ e : SimplexType, v = .ofMember e
  | .branchMode, v => ∃ e : BranchMode, v = .ofMember e
  | .verbosity, v => ∃ e : Verbosity, v = .ofMember e

/-! ### Names -/

theorem mem_all (s : Setting) : s ∈ all := by
  cases s <;> decide

theorem ofFileKey?_fileKey (s : Setting) : ofFileKey? s.fileKey = some s := by
  have hall : ∀ s ∈ all, ofFileKey? s.fileKey = some s := by decide +kernel
  exact hall s s.mem_all

theorem fileKey_injective : Function.Injective fileKey := by
  intro s t h
  have hfound := ofFileKey?_fileKey s
  rw [h, ofFileKey?_fileKey t] at hfound
  exact (Option.some.inj hfound).symm

theorem nodup_all : all.Nodup := by decide

theorem fileKey_plain (s : Setting) : Ini.PlainName s.fileKey.toList := by
  have hall : (all.all fun s => !s.fileKey.toList.isEmpty && s.fileKey.toList.all fun c =>
      !(Text.isBlank c || Ini.isDelimiter c || ['[', '#', ';'].contains c)) = true := by decide +kernel
  have hkey := List.all_eq_true.1 hall s s.mem_all
  rw [Bool.and_eq_true, Bool.not_eq_true', List.isEmpty_eq_false_iff, List.all_eq_true] at hkey
  have hchar {c : Char} (hc : c ∈ s.fileKey.toList) :
      (Text.isBlank c = false ∧ Ini.isDelimiter c = false) ∧ c ≠ '[' ∧ c ≠ '#' ∧ c ≠ ';' := by
    simpa using hkey.2 c hc
  exact ⟨hkey.1, fun c hc => (hchar hc).1.1, fun c hc => (hchar hc).1.2, fun c hc => (hchar (List.mem_of_head? hc)).2⟩

/-! ### Written forms -/

/-- The members of an enumeration have numbers for codes, and are found by them. -/
def ByNumber (R E : Type) [Scalar R] [Enumeration E] : Prop :=
  ∀ e : E, ∃ n, Enumeration.code e = .number n ∧ (Value.integer n : Value R).toMember E = .ok e

theorem byNumber_simplexType : ByNumber R SimplexType := by
  intro e
  cases e <;> exact ⟨_, rfl, rfl⟩

theorem byNumber_branchMode : ByNumber R BranchMode := by
  intro e
  cases e <;> exact ⟨_, rfl, rfl⟩

theorem byNumber_verbosity : ByNumber R Verbosity := by
  intro e
  cases e <;> exact ⟨_, rfl, rfl⟩

variable {E : Type} [Enumeration E]

theorem written_member {e : E} {n : Int} (h : Enumeration.code e = .number n) :
    (Value.ofMember e : Value R).written = toString n := by
  unfold Value.ofMember Enumeration.member
  rw [h]
  rfl

theorem readMember_written (h : ByNumber R E) (e : E) :
    readMember E (Value.ofMember e : Value R).written = .ok (.ofMember e : Value R) := by
  obtain ⟨n, hcode, hmember⟩ := h e
  rw [written_member hcode, readMember, Value.integerOfText, Decimal.readInteger?_toString]
  show ((Value.integer n : Value R).toMember E >>= _) = _
  rw [hmember]
  rfl

/-- A value of the kind of a setting is what its written form is read as, if reals are. -/
theorem Kind.read_written {kind : Kind} {v : Value R} (h : kind.Allows v)
    (hreal : ∀ x, v = .real x → Scalar.isNaN x = false → Scalar.read? (Scalar.text x) = some x) :
    kind.read v.written = .ok v := by
  cases kind with
  | flag =>
    obtain ⟨b, rfl⟩ := h
    have hflag : readFlag (Value.flagText b) = .ok b := by cases b <;> decide +kernel
    exact congrArg (Except.map Value.flag) hflag
  | whole =>
    obtain ⟨n, rfl⟩ := h
    show (Value.integerOfText (toString n)).map Value.integer = _
    rw [Value.integerOfText, Decimal.readInteger?_toString]
    rfl
  | real =>
    obtain ⟨x, rfl, hx⟩ := h
    have hread : (Value.text (Scalar.text x) : Value R).toReal = .ok x := by
      rw [Value.toReal, hreal x rfl hx]
    exact congrArg (Except.map Value.real) hread
  | simplexType =>
    obtain ⟨e, rfl⟩ := h
    exact readMember_written byNumber_simplexType e
  | branchMode =>
    obtain ⟨e, rfl⟩ := h
    exact readMember_written byNumber_branchMode e
  | verbosity =>
    obtain ⟨e, rfl⟩ := h
    exact readMember_written byNumber_verbosity e

/-- The written form of a value of the kind of a setting is a number or a word, if those of reals are numbers. -/
theorem Kind.plain_written {kind : Kind} {v : Value R} (h : kind.Allows v)
    (hreal : ∀ x : R, Decimal.Plain (Scalar.text x).toList) :
    Ini.PlainValue v.written.toList ∧ '%' ∉ v.written.toList := by
  have hnumber {s : List Char} (hs : Decimal.Plain s) : Ini.PlainValue s ∧ '%' ∉ s :=
    ⟨⟨hs.nonempty, hs.solid⟩, hs.percent⟩
  have hmember {E : Type} [Enumeration E] (hE : ByNumber R E) (e : E) :
      Ini.PlainValue (Value.ofMember e : Value R).written.toList ∧
        '%' ∉ (Value.ofMember e : Value R).written.toList := by
    obtain ⟨n, hcode, -⟩ := hE e
    rw [written_member hcode]
    exact hnumber (Decimal.plain_toString n)
  cases kind with
  | flag =>
    obtain ⟨b, rfl⟩ := h
    have hword : (Value.flagText b).toList ≠ [] ∧ '%' ∉ (Value.flagText b).toList := by cases b <;> decide
    have hsolid : Text.Solid (Value.flagText b).toList := by cases b <;> exact .of_all rfl
    exact ⟨⟨hword.1, hsolid⟩, hword.2⟩
  | whole =>
    obtain ⟨n, rfl⟩ := h
    exact hnumber (Decimal.plain_toString n)
  | real =>
    obtain ⟨x, rfl, -⟩ := h
    exact hnumber (hreal x)
  | simplexType =>
    obtain ⟨e, rfl⟩ := h
    exact hmember byNumber_simplexType e
  | branchMode =>
    obtain ⟨e, rfl⟩ := h
    exact hmember byNumber_branchMode e
  | verbosity =>
    obtain ⟨e, rfl⟩ := h
    exact hmember byNumber_verbosity e

end Setting

/-! ### Putting settings in place -/

namespace Settings

omit [Scalar R] in
theorem get_of_ne (s : Settings R) {x : Setting} (h : x ≠ .infinite) : s.get x = s.others x := by
  cases x <;> first | rfl | exact absurd rfl h

theorem set_of_ne (s : Settings R) {x : Setting} (h : x ≠ .infinite) (v : Value R) :
    s.set x v = .ok { s with others := fun y => if y = x then v else s.others y } := by
  cases x <;> first | rfl | exact absurd rfl h

/-- Every value can be put in the place of a setting, but only a real in that of `infinite`. -/
theorem set_fitting (s : Settings R) {x : Setting} {v : Value R} (h : x = .infinite → ∃ r, v = .real r) :
    ∃ s', s.set x v = .ok s' ∧ ∀ y, s'.get y = if y = x then v else s.get y := by
  by_cases hx : x = .infinite
  · subst hx
    obtain ⟨r, rfl⟩ := h rfl
    refine ⟨{ s with sentinel := r }, rfl, fun y => ?_⟩
    cases y <;> rfl
  · refine ⟨_, s.set_of_ne hx v, fun y => ?_⟩
    by_cases hy : y = .infinite
    · subst hy
      rw [if_neg fun heq => hx heq.symm]
      rfl
    · rw [get_of_ne _ hy, get_of_ne _ hy]

/-- A value of the kind of a setting can be put in its place. -/
theorem set_allowed (s : Settings R) {x : Setting} {v : Value R} (h : x.kind.Allows v) :
    ∃ s', s.set x v = .ok s' ∧ ∀ y, s'.get y = if y = x then v else s.get y := by
  refine s.set_fitting fun hx => ?_
  subst hx
  obtain ⟨r, hr, -⟩ := h
  exact ⟨r, hr⟩

/-- So can a value that was read as its kind says. -/
theorem set_read (s : Settings R) {x : Setting} {text : String} {v : Value R} (h : x.kind.read text = .ok v) :
    ∃ s', s.set x v = .ok s' ∧ ∀ y, s'.get y = if y = x then v else s.get y := by
  refine s.set_fitting fun hx => ?_
  subst hx
  replace h : ((Value.text text : Value R).toReal).map Value.real = .ok v := h
  cases hreal : (Value.text text : Value R).toReal with
  | ok r =>
    rw [hreal] at h
    cases h
    exact ⟨r, rfl⟩
  | error fault =>
    rw [hreal] at h
    cases h

end Settings

end Optima
