/-!
# The fewest digits

A binary floating-point number `m * 2 ^ q` stands for all the reals that round to it: those between the midpoints to
its two neighbours, the midpoints themselves included when `m` is even. `shortest` finds, among the decimals in that
interval, one with as few digits as possible, and of those the nearest to the number.

All comparisons are made in exact integer arithmetic, in quarters of `2 ^ q`, so that both midpoints are whole.
-/

namespace Optima.Decimal

/-- The decimal `digits * 10 ^ exponent`. -/
structure Digits where
  digits : Nat
  exponent : Int
deriving DecidableEq, Repr

/-- The number of digits of `n` in base ten. -/
def width (n : Nat) : Nat :=
  (Nat.toDigits 10 n).length

/-- The power `base ^ e` when `e` is positive, and one otherwise. -/
def powUp (base : Nat) (e : Int) : Nat :=
  base.pow e.toNat

def compareScaled (d : Nat) (e : Int) (x : Nat) (q : Int) : Ordering :=
  compare (d * powUp 10 e * powUp 2 (-q)) (x * powUp 2 q * powUp 10 (-e))

/-- A floating-point number `m * 2 ^ q`. Below a power of two the gap is half as wide as above it, unless the
exponent is already the least; `narrow` says that `m` is at such a place. -/
structure Spot where
  m : Nat
  q : Int
  narrow : Bool

namespace Spot

/-- The lower end of the interval of a number, in quarters of its unit. -/
def low (s : Spot) : Nat :=
  if s.narrow then 4 * s.m - 1 else 4 * s.m - 2

/-- The upper end of the interval of a number, in quarters of its unit. -/
def high (s : Spot) : Nat :=
  4 * s.m + 2

/-- Whether the decimal `d * 10 ^ e` rounds to the number. -/
def holds (s : Spot) (d : Nat) (e : Int) : Bool :=
  let below := compareScaled d e s.low (s.q - 2)
  let above := compareScaled d e s.high (s.q - 2)
  (below == .gt || (below == .eq && s.m % 2 == 0)) && (above == .lt || (above == .eq && s.m % 2 == 0))

/-- The largest `d` with `d * 10 ^ e` not above the number. -/
def floorAt (s : Spot) (e : Int) : Nat :=
  (s.m * powUp 2 s.q * powUp 10 (-e)) / (powUp 10 e * powUp 2 (-s.q))

/-- The least `k` with the number below `10 ^ k`. -/
def scale (s : Spot) : Int :=
  let num := s.m * powUp 2 s.q
  let den := powUp 2 (-s.q)
  if den ≤ num then (width (num / den) : Int) else 1 - (width ((den - 1) / num) : Int)

/-- The nearest decimal of at most `n` digits that rounds to the number, if there is one; of two equally near ones
the even one. -/
def pick (s : Spot) (k : Int) (n : Nat) : Option Digits :=
  let e := k - n
  let d := s.floorAt e
  match s.holds d e, s.holds (d + 1) e with
  | false, false => none
  | true, false => some ⟨d, e⟩
  | false, true => some ⟨d + 1, e⟩
  | true, true =>
    match compareScaled (2 * d + 1) e (2 * s.m) s.q with
    | .gt => some ⟨d, e⟩
    | .lt => some ⟨d + 1, e⟩
    | .eq => some ⟨if d % 2 = 0 then d else d + 1, e⟩

/-- The number itself as a decimal. -/
def whole (s : Spot) : Digits :=
  if 0 ≤ s.q then ⟨s.m * powUp 2 s.q, 0⟩ else ⟨s.m * powUp 5 (-s.q), s.q⟩

end Spot

/-- Moves trailing zeros from the digits to the exponent. -/
def trim (d : Nat) (e : Int) : Digits :=
  if h : d ≠ 0 ∧ d % 10 = 0 then trim (d / 10) (e + 1) else ⟨d, e⟩
termination_by d
decreasing_by omega

/-- The decimal with the fewest digits that rounds to a number other than zero. -/
def shortest (s : Spot) : Digits :=
  let k := s.scale
  let found := ((List.range 17).findSome? fun n => s.pick k (n + 1)).getD s.whole
  trim found.digits found.exponent

end Optima.Decimal
