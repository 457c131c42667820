import Optima.Decimal.Shortest

/-!
# Layout of decimals

How the digits of a decimal are set out on the line: positionally with a point, or as a leading digit with an
exponent. The decisions are the fields of `Notation`.
-/

namespace Optima.Decimal

/-- The decisions of a layout. With `p` the place of the point counted from the first digit, a decimal is positional
when `leastPoint ≤ p ≤ greatestPoint`. -/
structure Layout where
  leastPoint : Int
  greatestPoint : Int
  /-- The fewest digits of an exponent. -/
  exponentWidth : Nat

def zeroRun (n : Nat) : List Char :=
  List.replicate n '0'

/-- The digits of `n` in base ten. -/
def digitsOf (n : Nat) : List Char :=
  Nat.toDigits 10 n

namespace Layout

/-- Digits with the point after the place `p`; a whole number keeps one zero after its point. -/
def positional (digits : List Char) (p : Int) : List Char :=
  if p ≤ 0 then ['0', '.'] ++ zeroRun (-p).toNat ++ digits
  else if digits.length ≤ p.toNat then digits ++ zeroRun (p.toNat - digits.length) ++ ['.', '0']
  else digits.take p.toNat ++ '.' :: digits.drop p.toNat

/-- A leading digit, the other digits after a point, and the exponent with its sign. -/
def scientific (layout : Layout) (digits : List Char) (p : Int) : List Char :=
  let exponent := p - 1
  let power := digitsOf exponent.natAbs
  let mantissa := match digits with
    | [] => ['0']
    | [d] => [d]
    | d :: rest => d :: '.' :: rest
  mantissa ++ 'e' :: (if exponent < 0 then '-' else '+') ::
    (zeroRun (layout.exponentWidth - power.length) ++ power)

/-- A decimal without trailing zeros, set out. -/
def render (layout : Layout) (d : Digits) : List Char :=
  let digits := digitsOf d.digits
  let p := d.exponent + digits.length
  if layout.leastPoint ≤ p ∧ p ≤ layout.greatestPoint then positional digits p
  else layout.scientific digits p

end Layout

end Optima.Decimal
