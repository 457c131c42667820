import Optima.Ini.Document

/-!
# References between options

Inside the value of an option, `%(name)s` stands for the value of another option and `%%` for a percent sign.
References lead on from value to value for at most ten steps. A percent sign on its own stands for nothing, so a value
that has one cannot be put into a document.
-/

namespace Optima.Ini

/-- A reference, given what follows its percent sign: its name, and the text after it. -/
def reference? : List Char → Option (List Char × List Char)
  | '(' :: rest =>
    match rest.dropWhile (· != ')') with
    | ')' :: 's' :: after =>
      if (rest.takeWhile (· != ')')).isEmpty then none else some (rest.takeWhile (· != ')'), after)
    | _ => none
  | _ => none

/-- The text after a reference is shorter than the text with it. -/
theorem reference?_length {s name after : List Char} (h : reference? s = some (name, after)) :
    after.length < s.length := by
  unfold reference? at h
  split at h
  next rest =>
    split at h
    next tail hd =>
      split at h
      · cases h
      · cases h
        have hlen := (List.dropWhile_suffix (· != ')') (l := rest)).length_le
        rw [hd] at hlen
        simp only [List.length_cons] at hlen ⊢
        omega
    · cases h
  · cases h

/-- A piece of a value: a character that stands for itself, a reference, or the place from which on the value cannot
be read. -/
inductive Piece where
  | char (c : Char)
  | reference (name : String)
  | broken (fault : IniFault)
deriving DecidableEq, Repr

def pieces : List Char → List Piece
  | [] => []
  | '%' :: '%' :: rest => .char '%' :: pieces rest
  | '%' :: '(' :: rest =>
    match _h : reference? ('(' :: rest) with
    | some (name, after) => .reference (String.ofList name) :: pieces after
    | none => [.broken (.openReference (String.ofList ('%' :: '(' :: rest)))]
  | '%' :: rest => [.broken (.strayPercent (String.ofList ('%' :: rest)))]
  | c :: rest => .char c :: pieces rest
termination_by s => s.length
decreasing_by
  · simp only [List.length_cons]; omega
  · have := reference?_length ‹reference? _ = some _›
    simp only [List.length_cons] at this ⊢
    omega
  · simp only [List.length_cons]; omega

/-- The steps that references may lead on for. -/
def maxSteps : Nat := 10

/-- The text that a value stands for. `option` and `raw` are the option that was asked for and its value, and `name`
is its section. -/
def expand (name option raw : String) (options : Options) : (steps : Nat) → List Char → Except IniFault (List Char)
  | 0, _ => .error (.tooDeep option name raw)
  | steps + 1, value => do
    let texts ← (pieces value).mapM fun
      | .char c => .ok [c]
      | .broken fault => .error fault
      | .reference other =>
        match options.lookup other with
        | none => .error (.noOption option name other raw)
        | some v => if v.contains '%' then expand name option raw options steps v.toList else .ok v.toList
    pure texts.flatten

/-- The value of an option in a section with the options `options`, its references followed. -/
def Options.value (options : Options) (name option raw : String) : Except IniFault String :=
  (expand name option raw options maxSteps raw.toList).map String.ofList

/-- A text without its doubled percent signs. -/
def dropPairs : List Char → List Char
  | [] => []
  | '%' :: '%' :: rest => dropPairs rest
  | c :: rest => c :: dropPairs rest

/-- A text without its references. -/
def dropReferences : List Char → List Char
  | [] => []
  | '%' :: rest =>
    match _h : reference? rest with
    | some (_, after) => dropReferences after
    | none => '%' :: dropReferences rest
  | c :: rest => c :: dropReferences rest
termination_by s => s.length
decreasing_by
  · have := reference?_length ‹reference? _ = some _›
    simp only [List.length_cons]
    omega
  · simp only [List.length_cons]; omega
  · simp only [List.length_cons]; omega

/-- Where the first percent sign is left over in a text without its doubled percent signs and references. -/
def strayPercent? (value : String) : Option Nat :=
  (dropReferences (dropPairs value.toList)).findIdx? (· == '%')

end Optima.Ini
