import Optima.Fault
import Optima.Number.Binary64
import Optima.Value.Enumeration

/-!
# Values

What a caller may hand over: nothing, a flag, an integer, a scalar, a text, a list, or a member of an enumeration.
Keys of a model and settings of an engine are kept as values; where a number is needed, `toReal` and `toInteger`
convert and say why they cannot.

Two values are the same when they are the same number, whatever their kind: flags count as zero and one, and members
with numbers for codes as their numbers.
-/

namespace Optima

inductive Value (R : Type) where
  | nothing
  | flag (b : Bool)
  | integer (n : Int)
  | real (x : R)
  | text (s : String)
  | list (items : List (Value R))
  | member (m : Member)
deriving Repr, Inhabited

namespace Value

variable {R : Type} [Scalar R]

def ofMember {E : Type} [Enumeration E] (e : E) : Value R :=
  .member (Enumeration.member e)

def number? : Value R → Option Extended
  | .flag b => some (.rat (if b then 1 else 0))
  | .integer n => some (.rat n)
  | .real x => some (Scalar.exact x)
  | .member ⟨_, _, .number n⟩ => some (.rat n)
  | _ => none

def same : Value R → Value R → Bool
  | .nothing, .nothing => true
  | .text s, .text t => s == t
  | .list xs, .list ys => sameAll xs ys
  | .list _, _ | _, .list _ => false
  | x, y =>
    match x.number?, y.number? with
    | some a, some b => a.same b
    | none, none =>
      match x, y with
      | .member m, .member n => m == n
      | _, _ => false
    | _, _ => false
where
  /-- Whether two lists have the same values in the same places. -/
  sameAll : List (Value R) → List (Value R) → Bool
    | [], [] => true
    | x :: xs, y :: ys => same x y && sameAll xs ys
    | _, _ => false

/-- Whether a value counts as true: nothing, zero and whatever is empty do not. -/
def truth : Value R → Bool
  | .nothing => false
  | .flag b => b
  | .integer n => n != 0
  | .real x => !Scalar.same x Scalar.zero
  | .text s => !s.isEmpty
  | .list items => !items.isEmpty
  | .member ⟨_, _, .number n⟩ => n != 0
  | .member _ => true

def isKey : Value R → Bool
  | .list _ => false
  | _ => true

/-! ### Written forms -/

/-- The written form of a flag. -/
def flagText (b : Bool) : String :=
  if b then "True" else "False"

/-- A value as it is shown inside a message: texts are quoted, and members are shown with their codes. -/
def shown : Value R → String
  | .nothing => "None"
  | .flag b => flagText b
  | .integer n => toString n
  | .real x => Scalar.text x
  | .text s => Text.quote s
  | .list items => "[" ++ ", ".intercalate (shownAll items) ++ "]"
  | .member ⟨enumeration, label, code⟩ =>
    "<" ++ enumeration ++ "." ++ label ++ ": "
      ++ (match code with | .number n => toString n | .word s => Text.quote s) ++ ">"
where
  /-- The shown forms of the items of a list. -/
  shownAll : List (Value R) → List String
    | [] => []
    | x :: xs => shown x :: shownAll xs

/-- A value as it is written by itself: a text is its own written form, and a member with a number for a code is
written as the number. -/
def written : Value R → String
  | .text s => s
  | .member ⟨_, _, .number n⟩ => toString n
  | .member ⟨enumeration, label, .word _⟩ => enumeration ++ "." ++ label
  | v => v.shown

/-! ### Conversions -/

def comparable (v : Value R) : Except Fault Extended :=
  match v.number? with
  | some x => .ok x
  | none => .error .wrongKind

/-- The scalar nearest to an integer. -/
def realOfInteger (n : Int) : Except Fault R :=
  match Scalar.ofInt? n with
  | some x => .ok x
  | none => .error .integerTooLarge

/-- Converts a value to a scalar; a text is read. -/
def toReal : Value R → Except Fault R
  | .flag b => .ok (if b then Scalar.one else Scalar.zero)
  | .integer n | .member ⟨_, _, .number n⟩ => realOfInteger n
  | .real x => .ok x
  | .text s =>
    match Scalar.read? s with
    | some x => .ok x
    | none => .error (.notAReal s)
  | _ => .error .wrongKind

/-- The integer part of a scalar. -/
def integerOfReal (x : R) : Except Fault Int :=
  match Scalar.exact x with
  | .nan => .error .integerOfNaN
  | .posInf | .negInf => .error .integerOfInfinity
  | .rat q => .ok (q.num.tdiv q.den)

def integerOfText (s : String) : Except Fault Int :=
  match Decimal.readInteger? s with
  | some n => .ok n
  | none => .error (.notAnInteger s)

/-- Converts a value to an integer; a scalar loses its fraction, and a text is read. -/
def toInteger : Value R → Except Fault Int
  | .flag b => .ok (if b then 1 else 0)
  | .integer n | .member ⟨_, _, .number n⟩ => .ok n
  | .real x => integerOfReal x
  | .text s => integerOfText s
  | _ => .error .wrongKind

def ofCode : Code → Value R
  | .number n => .integer n
  | .word s => .text s

/-- Whether a value names a member of an enumeration: it is the member, or it is the member's code. -/
def names {E : Type} [Enumeration E] (v : Value R) (e : E) : Bool :=
  v.same (ofMember e) || v.same (ofCode (Enumeration.code e))

def toMember? (E : Type) [Enumeration E] (v : Value R) : Option E :=
  (Enumeration.members (E := E)).find? v.names

def toMember (E : Type) [Enumeration E] (v : Value R) : Except Fault E :=
  match v.toMember? E with
  | some e => .ok e
  | none => .error (.notAMember v.shown (Enumeration.title E))

end Value

end Optima
