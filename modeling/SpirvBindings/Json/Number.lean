import SpirvBindings.Decimal.Shortest

/-!
Numbers of a JSON document. A number text without fraction and exponent is an integer if it fits a
signed or an unsigned word of 64 bits, and any other number text is a double-precision number; so is
`-0`, which has a sign. Doubles are written with the fewest digits that read back and always with a
decimal point or an exponent. -/

namespace SpirvBindings.Json

open Decimal (Binary64)

inductive Number
  | integer (n : Int)
  | double (negative : Bool) (magnitude : Binary64)
  deriving DecidableEq, Repr

/-! ### Number texts -/

/-- The parts of a number text. -/
structure NumberText where
  negative : Bool
  whole : List Char
  fraction : Option (List Char)
  exponent : Option (Bool × List Char)
  deriving DecidableEq, Repr

namespace NumberText

/-- The digits in front of a text, at least one, and what follows them. -/
def readDigits? (cs : List Char) : Option (List Char × List Char) :=
  match cs.takeWhile Char.isDigit with
  | [] => none
  | ds => some (ds, cs.dropWhile Char.isDigit)

/-- The digits of the whole part: a leading zero stands alone. -/
def readWhole? (cs : List Char) : Option (List Char × List Char) :=
  match readDigits? cs with
  | some ('0' :: _ :: _, _) => none
  | r => r

/-- The fraction part, if a point comes first. -/
def readFraction? : List Char → Option (Option (List Char) × List Char)
  | '.' :: cs => (readDigits? cs).map fun (ds, rest) => (some ds, rest)
  | cs => some (none, cs)

/-- The sign in front of exponent digits: whether it is a minus, and what follows. -/
def readSign : List Char → Bool × List Char
  | '-' :: cs => (true, cs)
  | '+' :: cs => (false, cs)
  | cs => (false, cs)

/-- The exponent part, if its mark comes first. -/
def readExponent? : List Char → Option (Option (Bool × List Char) × List Char)
  | c :: cs =>
    if c = 'e' ∨ c = 'E' then
      let (negative, cs) := readSign cs
      (readDigits? cs).map fun (ds, rest) => (some (negative, ds), rest)
    else some (none, c :: cs)
  | [] => some (none, [])

/-- The number text in front of a text, and what follows it. -/
def read? (cs : List Char) : Option (NumberText × List Char) := do
  let (negative, cs) := match cs with
    | '-' :: cs => (true, cs)
    | cs => (false, cs)
  let (whole, cs) ← readWhole? cs
  let (fraction, cs) ← readFraction? cs
  let (exponent, cs) ← readExponent? cs
  return (⟨negative, whole, fraction, exponent⟩, cs)

/-! ### Values -/

def digitValue (c : Char) : Nat := c.toNat - '0'.toNat

def natOfDigits (ds : List Char) : Nat := ds.foldl (fun n d => 10 * n + digitValue d) 0

/-- Appends digits to a significand of 64 bits as long as they fit. The second part holds the digits
that are left over. -/
def absorb (n : Nat) : List Char → Nat × List Char
  | [] => (n, [])
  | d :: ds =>
    let m := 10 * n + digitValue d
    if m < Nat.pow 2 64 then absorb m ds else (n, d :: ds)

/-- The exponent of ten that is written in a number text. -/
def writtenExponent (t : NumberText) : Int :=
  match t.exponent with
  | none => 0
  | some (negative, ds) => if negative then -natOfDigits ds else natOfDigits ds

/-- The double of a number text. Digits that do not fit the significand are dropped: those of the
whole part raise the exponent, those of the fraction have no effect. -/
def double? (t : NumberText) : Option Number := do
  let (n, dropped) := absorb 0 t.whole
  let fraction := t.fraction.getD []
  let (n, rest) := absorb n fraction
  let exponent := t.writtenExponent + dropped.length - (fraction.length - rest.length : Nat)
  let magnitude ← Binary64.ofDecimal? n exponent
  return .double t.negative magnitude

/-- The number that a text stands for. There is none if the text is too large for a double. -/
def value? (t : NumberText) : Option Number :=
  match t.fraction, t.exponent with
  | none, none =>
    let n := natOfDigits t.whole
    if t.negative then
      if 0 < n ∧ n ≤ Nat.pow 2 63 then some (.integer (-n)) else t.double?
    else if n < Nat.pow 2 64 then some (.integer n) else t.double?
  | _, _ => t.double?

end NumberText

/-! ### Writing -/

namespace Number

/-- The exponent of the first digit of a decimal. -/
def leadingExponent (digits : List Char) (exponent : Int) : Int := exponent + digits.length - 1

/-- Digits in positional notation when the first digit has a given exponent. -/
def positional (digits : List Char) (leading : Int) : List Char :=
  if leading < 0 then '0' :: '.' :: (List.replicate (-leading - 1).toNat '0' ++ digits)
  else
    let places := leading.toNat + 1
    let padded := digits ++ List.replicate (places - digits.length) '0'
    padded.take places ++ '.' ::
      (match padded.drop places with
        | [] => ['0']
        | fraction => fraction)

/-- Digits in exponent notation. -/
def scientific (digits : List Char) (leading : Int) : List Char :=
  let exponent := Nat.toDigits 10 leading.natAbs
  (match digits with
    | [] => []
    | [d] => [d]
    | d :: ds => d :: '.' :: ds) ++
    'e' :: (if leading < 0 then '-' else '+') :: exponent

/-- A magnitude is written positionally if its first digit stands between the fifth place after the
point and the sixteenth before it. -/
def renderMagnitude (x : Binary64) : List Char :=
  if x.isZero then ['0', '.', '0']
  else
    let d := x.shortest
    let digits := Nat.toDigits 10 d.digits
    let leading := leadingExponent digits d.exponent
    if -5 ≤ leading ∧ leading < 16 then positional digits leading else scientific digits leading

def render : Number → List Char
  | .integer n => if n < 0 then '-' :: Nat.toDigits 10 n.natAbs else Nat.toDigits 10 n.natAbs
  | .double negative x => if negative then '-' :: renderMagnitude x else renderMagnitude x

end Number

end SpirvBindings.Json
