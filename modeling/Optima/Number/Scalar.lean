import Optima.Number.Extended

/-!
# Scalars

The numbers a model is written in. Models, engines and reports are the same for every scalar type; a type joins by
saying which exact number each of its values stands for, how its arithmetic goes, and how it is written.

Comparisons are made on the exact numbers, so their order is that of `Extended` for every scalar type. The two
instances are the binary floating-point numbers, with which programs are run, and the exact numbers themselves, for
which the arithmetic has no rounding.
-/

namespace Optima

class Scalar (R : Type) extends Add R, Sub R, Mul R, Neg R where
  /-- The exact number a value stands for. -/
  exact : R → Extended
  /-- Whether a value carries a minus sign. A negative zero does. -/
  signed : R → Bool
  infinity : R
  nan : R
  /-- The value nearest to a rational. -/
  ofRat : Rat → R
  /-- The value nearest to `± digits * 10 ^ exponent`; the flag is set for a minus. -/
  ofDecimal : Bool → Nat → Int → R
  /-- How a value is written. -/
  text : R → String

namespace Scalar

variable {R : Type} [Scalar R]

/-- `x < y` as numbers. -/
def lt (x y : R) : Bool :=
  (exact x).lt (exact y)

/-- `x ≤ y` as numbers. -/
def le (x y : R) : Bool :=
  (exact x).le (exact y)

/-- `x = y` as numbers. The two zeros are the same, and no number is not the same as itself. -/
def same (x y : R) : Bool :=
  (exact x).same (exact y)

def isNaN (x : R) : Bool :=
  match exact x with
  | .nan => true
  | _ => false

def isInfinite (x : R) : Bool :=
  match exact x with
  | .posInf | .negInf => true
  | _ => false

def isFinite (x : R) : Bool :=
  match exact x with
  | .rat _ => true
  | _ => false

def abs (x : R) : R :=
  if signed x then -x else x

def copySign (x y : R) : R :=
  if signed y then -abs x else abs x

/-- The value nearest to an integer. -/
def ofInt (n : Int) : R :=
  ofRat n

def zero : R := ofInt 0

def one : R := ofInt 1

def two : R := ofInt 2

/-- The value nearest to an integer, unless the integer is beyond all finite values. -/
def ofInt? (n : Int) : Option R :=
  let x : R := ofInt n
  if isInfinite x then none else some x

/-- The smaller of two values, the first one when neither is. -/
def smaller (x y : R) : R :=
  if lt y x then y else x

def decimal (digits : Nat) (exponent : Int) : R :=
  ofDecimal false digits exponent

end Scalar

open Scalar

/-- The sum of a list of terms. A sum over nothing is the integer zero and not a scalar. -/
inductive Total (R : Type) where
  | nothing
  | scalar (x : R)
deriving Repr

namespace Total

variable {R : Type} [Scalar R]

/-- Adds the terms from left to right, starting from zero. -/
def ofTerms (terms : List R) : Total R :=
  if terms.isEmpty then .nothing else .scalar (terms.foldl (· + ·) zero)

/-- The sum as a scalar. -/
def value : Total R → R
  | .nothing => zero
  | .scalar x => x

def text : Total R → String
  | .nothing => "0"
  | .scalar x => Scalar.text x

end Total

/-! ### The exact numbers as scalars -/

namespace Extended

/-- Whether an exact number is below zero. -/
def isNegative : Extended → Bool
  | .negInf => true
  | .rat q => q < 0
  | _ => false

def ofDecimal (negative : Bool) (digits : Nat) (exponent : Int) : Extended :=
  let size : Rat := mkRat (digits * Nat.pow 10 exponent.toNat) (Nat.pow 10 (-exponent).toNat)
  .rat (if negative then -size else size)

/-- An exact number is written as a fraction in lowest terms. -/
def text : Extended → String
  | .nan => "nan"
  | .negInf => "-inf"
  | .posInf => "inf"
  | .rat q => if q.den = 1 then toString q.num else toString q.num ++ "/" ++ toString q.den

instance : Scalar Extended where
  exact := id
  signed := isNegative
  infinity := .posInf
  nan := .nan
  ofRat := .rat
  ofDecimal := ofDecimal
  text := text

end Extended

end Optima
