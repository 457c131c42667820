import Optima.Number.Scalar
import Optima.Decimal.Fixed
import Optima.Decimal.Notation
import Optima.Decimal.Numeral

/-!
# Binary floating-point numbers

The 64-bit binary format as exact numbers. A finite value is `± m * 2 ^ q` with `m < 2 ^ 53` and `-1074 ≤ q ≤ 971`;
`decode` takes it out of the bits, and `nearest` finds the value closest to a fraction, a tie going to the even one.
With these the format is a scalar type.
-/

namespace Optima

/-- A value of the format, taken apart. -/
inductive Binary64 where
  | nan
  | infinite (negative : Bool)
  /-- `± m * 2 ^ q` -/
  | finite (negative : Bool) (m : Nat) (q : Int)
deriving DecidableEq, Repr

namespace Binary64

def leastExponent : Int := -1074

def greatestExponent : Int := 971

/-- Takes the bits of a value apart. -/
def decode (bits : Nat) : Binary64 :=
  let negative := bits / Nat.pow 2 63 % 2 == 1
  let biased : Nat := bits / Nat.pow 2 52 % Nat.pow 2 11
  let fraction : Nat := bits % Nat.pow 2 52
  if biased = 2047 then if fraction = 0 then .infinite negative else .nan
  else if biased = 0 then .finite negative fraction leastExponent
  else .finite negative (fraction + Nat.pow 2 52) ((biased : Int) - 1075)

/-- The bits of a value. -/
def encode : Binary64 → Nat
  | .nan => 2047 * Nat.pow 2 52 + Nat.pow 2 51
  | .infinite negative => (if negative then Nat.pow 2 63 else 0) + 2047 * Nat.pow 2 52
  | .finite negative m q =>
    (if negative then Nat.pow 2 63 else 0)
      + if m < Nat.pow 2 52 then m else (q + 1075).toNat * Nat.pow 2 52 + (m - Nat.pow 2 52)

def leadingExponent (num den : Nat) : Int :=
  let k : Int := num.log2 - den.log2
  if num * Nat.pow 2 (-k).toNat < den * Nat.pow 2 k.toNat then k - 1 else k

/-- The value nearest to `num / den`, a tie going to the even one. -/
def nearest (negative : Bool) (num den : Nat) : Binary64 :=
  if num = 0 then .finite negative 0 leastExponent
  else
    let q := max (leadingExponent num den - 52) leastExponent
    let m := Decimal.roundDiv (num * Nat.pow 2 (-q).toNat) (den * Nat.pow 2 q.toNat)
    let (m, q) := if m = Nat.pow 2 53 then (Nat.pow 2 52, q + 1) else (m, q)
    if greatestExponent < q then .infinite negative else .finite negative m q

/-- The value nearest to `± digits * 10 ^ exponent`. Beyond the powers of ten the format reaches, the powers need not
be computed. -/
def ofDecimal (negative : Bool) (digits : Nat) (exponent : Int) : Binary64 :=
  if digits = 0 then .finite negative 0 leastExponent
  else
    let place := exponent + Decimal.width digits
    if 400 < place then .infinite negative
    else if place < -400 then .finite negative 0 leastExponent
    else nearest negative (digits * Nat.pow 10 exponent.toNat) (Nat.pow 10 (-exponent).toNat)

/-- The exact number a value stands for. -/
def exact : Binary64 → Extended
  | .nan => .nan
  | .infinite negative => if negative then .negInf else .posInf
  | .finite negative m q =>
    let size : Rat := mkRat (m * Nat.pow 2 q.toNat) (Nat.pow 2 (-q).toNat)
    .rat (if negative then -size else size)

/-- Numbers are written positionally from `0.0001` on and below `10 ^ 16`, otherwise with a signed exponent of at
least two digits. -/
def layout : Decimal.Layout where
  leastPoint := -3
  greatestPoint := 16
  exponentWidth := 2

/-- The written form of a value: the fewest digits that read back to it. -/
def text : Binary64 → String
  | .nan => "nan"
  | .infinite negative => if negative then "-inf" else "inf"
  | .finite negative m q =>
    let body := if m = 0 then ['0', '.', '0']
      else layout.render (Decimal.shortest ⟨m, q, m == Nat.pow 2 52 && leastExponent < q⟩)
    String.ofList (if negative then '-' :: body else body)

/-- Takes a floating-point number apart. -/
def ofFloat (x : Float) : Binary64 :=
  decode x.toBits.toNat

/-- Puts a floating-point number together. -/
def toFloat (b : Binary64) : Float :=
  Float.ofBits (UInt64.ofNat b.encode)

instance : Scalar Float where
  exact x := (ofFloat x).exact
  signed x := x.toBits.toNat / Nat.pow 2 63 % 2 == 1
  infinity := (infinite false).toFloat
  nan := Binary64.nan.toFloat
  ofRat r := (nearest (r < 0) r.num.natAbs r.den).toFloat
  ofDecimal negative digits exponent := (ofDecimal negative digits exponent).toFloat
  text x := (ofFloat x).text

end Binary64

namespace Scalar

variable {R : Type} [Scalar R]

/-- A value with a set number of places after the point, a half going to the even neighbour. -/
def fixedText (places : Nat) (x : R) : String :=
  match exact x with
  | .nan => "nan"
  | .posInf => "inf"
  | .negInf => "-inf"
  | .rat q =>
    let body := Decimal.fixed places q
    String.ofList (if signed x then '-' :: body else body)

/-- The value nearest to `x` rounded to a number of places. -/
def roundTo (places : Nat) (x : R) : R :=
  match exact x with
  | .rat q => ofRat (Decimal.roundTo places q)
  | _ => x

/-- The value a numeral stands for. -/
def ofNumeral : Decimal.Numeral → R
  | .nan => nan
  | .infinity negative => if negative then -infinity else infinity
  | .decimal negative digits exponent => ofDecimal negative digits exponent

def read? (s : String) : Option R :=
  (Decimal.Numeral.read? s).map ofNumeral

end Scalar

end Optima
