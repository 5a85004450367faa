/-!
Double-precision magnitudes as exact numbers: a significand below `2 ^ 53` times a power of two not
below `2 ^ (-1074)`. A quotient of naturals is rounded to the nearest one, a half to the even
significand, and products and quotients of magnitudes are rounded in the same way. No result is
infinite: what is too large is refused. -/

namespace SpirvBindings.Decimal

/-- The number `significand * 2 ^ exponent`. -/
structure Binary64 where
  significand : Nat
  exponent : Int
  deriving DecidableEq, Repr

namespace Binary64

def minExponent : Int := -1074

def maxExponent : Int := 971

def zero : Binary64 := ⟨0, minExponent⟩

def isZero (x : Binary64) : Bool := x.significand == 0

/-- The number is `numerator / denominator`. -/
def numerator (x : Binary64) : Nat := x.significand * Nat.pow 2 x.exponent.toNat

def denominator (x : Binary64) : Nat := Nat.pow 2 (-x.exponent).toNat

/-! ### Rounding -/

/-- The natural number nearest to `num / den`, and the even one of two that are equally near. -/
def roundHalfEven (num den : Nat) : Nat :=
  let q := num / den
  match compare (2 * (num % den)) den with
  | .lt => q
  | .gt => q + 1
  | .eq => q + q % 2

/-- The significand of `num / den` at exponent `e`, not yet rounded, as a quotient. -/
def scaled (num den : Nat) (e : Int) : Nat × Nat :=
  (num * Nat.pow 2 (-e).toNat, den * Nat.pow 2 e.toNat)

/-- The exponent at which `num / den` has 53 significant bits, or the least one. -/
def exponentOf (num den : Nat) : Int :=
  let e : Int := num.log2 - den.log2 - 52
  let (n, d) := scaled num den e
  max (if n / d < Nat.pow 2 52 then e - 1 else e) minExponent

/-- The magnitude nearest to `num / den`, if that is not too large. -/
def ofRatio? (num den : Nat) : Option Binary64 :=
  if num = 0 then some zero
  else
    let e := exponentOf num den
    let (n, d) := scaled num den e
    let m := roundHalfEven n d
    let x : Binary64 := if m = Nat.pow 2 53 then ⟨Nat.pow 2 52, e + 1⟩ else ⟨m, e⟩
    if maxExponent < x.exponent then none else some x

/-! ### Arithmetic -/

def mul? (x y : Binary64) : Option Binary64 :=
  ofRatio? (x.numerator * y.numerator) (x.denominator * y.denominator)

/-- The rounded quotient by a magnitude that is at least one. -/
def div (x y : Binary64) : Binary64 :=
  (ofRatio? (x.numerator * y.denominator) (x.denominator * y.numerator)).getD zero

/-- The rounded power of ten, for exponents up to 308. -/
def tenPow (k : Nat) : Binary64 := (ofRatio? (Nat.pow 10 k) 1).getD zero

/-- The largest exponent of ten that is not too large as a magnitude. -/
def maxTenExponent : Nat := 308

/-- Divides by `10 ^ k` in steps that are no larger than the largest rounded power of ten. -/
def scaleDown (x : Binary64) (k : Nat) : Binary64 :=
  if x.isZero then zero
  else if k ≤ maxTenExponent then x.div (tenPow k)
  else scaleDown (x.div (tenPow maxTenExponent)) (k - maxTenExponent)
termination_by k
decreasing_by simp only [maxTenExponent] at *; omega

/-- The magnitude read from `significand * 10 ^ exponent`: the rounded significand times, or divided
by, the rounded power of ten. There is none if the product is too large. -/
def ofDecimal? (significand : Nat) (exponent : Int) : Option Binary64 := do
  let x ← ofRatio? significand 1
  if exponent < 0 then
    return x.scaleDown (-exponent).toNat
  else if x.isZero then
    return zero
  else if exponent.toNat ≤ maxTenExponent then
    x.mul? (tenPow exponent.toNat)
  else
    none

end Binary64

end SpirvBindings.Decimal
