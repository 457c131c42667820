/-!
# Rationals with infinities

The exact numbers: the rationals, the two infinities and a value that is no number. Arithmetic is exact where it has a
result and gives `nan` where it has none (`∞ - ∞`, `0 * ∞`). Nothing compares with `nan`, not even itself.
-/

namespace Optima

/-- A rational, an infinity, or no number. -/
inductive Extended where
  | nan
  | negInf
  | rat (q : Rat)
  | posInf
deriving DecidableEq, Repr

namespace Extended

/-- `x < y`; false when either is no number. -/
def lt : Extended → Extended → Bool
  | .rat a, .rat b => a < b
  | .negInf, .rat _ | .negInf, .posInf | .rat _, .posInf => true
  | _, _ => false

/-- `x = y` as numbers; false when either is no number. -/
def same : Extended → Extended → Bool
  | .rat a, .rat b => a == b
  | .negInf, .negInf | .posInf, .posInf => true
  | _, _ => false

/-- `x ≤ y`; false when either is no number. -/
def le (x y : Extended) : Bool :=
  lt x y || same x y

def neg : Extended → Extended
  | .nan => .nan
  | .negInf => .posInf
  | .rat q => .rat (-q)
  | .posInf => .negInf

def add : Extended → Extended → Extended
  | .rat a, .rat b => .rat (a + b)
  | .nan, _ | _, .nan | .posInf, .negInf | .negInf, .posInf => .nan
  | .posInf, _ | _, .posInf => .posInf
  | .negInf, _ | _, .negInf => .negInf

def sub (x y : Extended) : Extended :=
  add x (neg y)

/-- The infinity with the sign of a product in which one factor is infinite and `q` is the other. -/
def scaleInf (positive : Bool) (q : Rat) : Extended :=
  if q = 0 then .nan else if (0 < q) == positive then .posInf else .negInf

def mul : Extended → Extended → Extended
  | .rat a, .rat b => .rat (a * b)
  | .nan, _ | _, .nan => .nan
  | .posInf, .rat q | .rat q, .posInf => scaleInf true q
  | .negInf, .rat q | .rat q, .negInf => scaleInf false q
  | .posInf, .posInf | .negInf, .negInf => .posInf
  | .posInf, .negInf | .negInf, .posInf => .negInf

instance : Neg Extended := ⟨neg⟩
instance : Add Extended := ⟨add⟩
instance : Sub Extended := ⟨sub⟩
instance : Mul Extended := ⟨mul⟩

end Extended

end Optima
