import Optima.Decimal.Notation

/-!
# Decimals with a set number of places

A fraction is rounded to the nearest multiple of a power of ten, a half going to the even neighbour.
-/

namespace Optima.Decimal

/-- The quotient `num / den` rounded to the nearest natural number, a half to the even neighbour. -/
def roundDiv (num den : Nat) : Nat :=
  let quotient := num / den
  match compare (2 * (num % den)) den with
  | .lt => quotient
  | .gt => quotient + 1
  | .eq => if quotient % 2 = 0 then quotient else quotient + 1

/-- The multiple of `10 ^ -places` that is nearest to `|x|`, counted in units of `10 ^ -places`. -/
def roundPlaces (places : Nat) (x : Rat) : Nat :=
  roundDiv (x.num.natAbs * Nat.pow 10 places) x.den

def roundTo (places : Nat) (x : Rat) : Rat :=
  let size := mkRat (roundPlaces places x) (Nat.pow 10 places)
  if x < 0 then -size else size

/-- The size of `x` with exactly `places` digits after the point. -/
def fixed (places : Nat) (x : Rat) : List Char :=
  let units := roundPlaces places x
  let fraction := digitsOf (units % Nat.pow 10 places)
  digitsOf (units / Nat.pow 10 places) ++ '.' :: (zeroRun (places - fraction.length) ++ fraction)

end Optima.Decimal
