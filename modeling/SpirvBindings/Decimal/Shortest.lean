import SpirvBindings.Decimal.Binary64

/-!
The shortest decimal of a double-precision magnitude: the fewest digits that read back. The reals
that round to a magnitude form an interval around it, with its ends included exactly when the
significand is even. The decimal lies on the coarsest grid of powers of ten that has a point in this
interval, and it is the point nearest to the magnitude there, the even one of two that are equally
near. -/

namespace SpirvBindings.Decimal

/-- The number `digits * 10 ^ exponent`. -/
structure Numeral where
  digits : Nat
  exponent : Int
  deriving DecidableEq, Repr

namespace Binary64

/-! ### The rounding interval -/

/-- The ends of the rounding interval in quarters of the last binary place. Below a power of two the
neighbour is nearer. -/
def lowQuarters (x : Binary64) : Nat :=
  if x.significand = Nat.pow 2 52 ∧ minExponent < x.exponent then 4 * x.significand - 1
  else 4 * x.significand - 2

def highQuarters (x : Binary64) : Nat := 4 * x.significand + 2

/-- A number of quarters of the last place, scaled so that it compares with `onGrid`. -/
def quarters (x : Binary64) (k : Int) (n : Nat) : Nat :=
  n * Nat.pow 2 (x.exponent - 2).toNat * Nat.pow 10 (-k).toNat

/-- The decimal `d * 10 ^ k`, scaled so that it compares with `quarters`. -/
def onGrid (x : Binary64) (k : Int) (d : Nat) : Nat :=
  d * (Nat.pow 10 k.toNat * Nat.pow 2 (2 - x.exponent).toNat)

/-- Whether `d * 10 ^ k` rounds to the magnitude. -/
def readsBack (x : Binary64) (k : Int) (d : Nat) : Bool :=
  let low := x.quarters k x.lowQuarters
  let high := x.quarters k x.highQuarters
  let v := x.onGrid k d
  if x.significand % 2 = 0 then low ≤ v && v ≤ high else low < v && v < high

/-! ### The search -/

/-- The two points of the grid `10 ^ k` around the magnitude, the nearer one first, the even one
first if they are equally near. -/
def neighbours (x : Binary64) (k : Int) : List Nat :=
  let v := x.quarters k (4 * x.significand)
  let d := v / x.onGrid k 1
  match compare (2 * v) (x.onGrid k d + x.onGrid k (d + 1)) with
  | .lt => [d, d + 1]
  | .gt => [d + 1, d]
  | .eq => if d % 2 = 0 then [d, d + 1] else [d + 1, d]

def hit? (x : Binary64) (k : Int) : Option Numeral :=
  ((x.neighbours k).find? (x.readsBack k)).map (⟨·, k⟩)

/-- An exponent of ten with the magnitude below that power. -/
def decimalTop (x : Binary64) : Int :=
  (Nat.toDigits 10 (x.numerator * Nat.pow 10 340 / x.denominator)).length - 340

/-- The magnitude written out in full. -/
def exact (x : Binary64) : Numeral :=
  if x.exponent < 0 then ⟨x.significand * Nat.pow 5 (-x.exponent).toNat, x.exponent⟩
  else ⟨x.numerator, 0⟩

/-- The shortest decimal that reads back as the magnitude. The grids are tried from coarse to fine;
eighteen of them hold every decimal of up to seventeen digits. -/
def shortest (x : Binary64) : Numeral :=
  if x.isZero then ⟨0, 0⟩
  else ((List.range 19).findSome? fun (i : Nat) => x.hit? (x.decimalTop - i)).getD x.exact

end Binary64

end SpirvBindings.Decimal
