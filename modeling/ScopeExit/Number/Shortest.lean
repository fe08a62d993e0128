import ScopeExit.Number.Binary64
/-!
The fewest decimal digits that read back as a float.

A decimal reads back as `m · 2 ^ e` when it lies in the interval of reals that round to it, whose ends
belong to it exactly when `m` is even.  For one digit, two digits and so on up to seventeen, the two
neighbours of the value on that decimal grid are tried; the first grid with a hit wins, and of two
hits the nearer one.  If any point of a grid lies in the interval, so does one of the two neighbours.
-/
namespace ScopeExit.Number

/-- A positive decimal `digits · 10 ^ exponent`. -/
structure Decimal where
  /-- The significant digits, read as one number. -/
  digits : Nat
  /-- The power of ten of the last digit. -/
  exponent : Int

/-- The interval of reals that round to `m · 2 ^ e`, and that value, in units of `2 ^ (e - 2)`. -/
structure Interval where
  low : Nat
  value : Nat
  high : Nat
  /-- The ends belong to the interval. -/
  closed : Bool

/-- The interval of a positive finite float.  Below a power of two the neighbour is only half as far
away. -/
def Interval.ofFloat (m : Nat) (e : Int) : Interval where
  low := if m = pow2 52 && e > minExponent then 4 * m - 1 else 4 * m - 2
  value := 4 * m
  high := 4 * m + 2
  closed := m % 2 = 0

/-- The point `p` times `b` lies in the interval times `a`. -/
def Interval.contains (i : Interval) (a b p : Nat) : Bool :=
  if i.closed then i.low * a ≤ p * b && p * b ≤ i.high * a
  else i.low * a < p * b && p * b < i.high * a

/-- The two factors that bring a value in units of `2 ^ (e - 2)` onto the grid of `10 ^ k`. -/
def gridFactors (e k : Int) : Nat × Nat :=
  (pow2 (e - 2).toNat * pow10 (-k).toNat, pow2 (2 - e).toNat * pow10 k.toNat)

/-- The neighbour on the grid of `10 ^ k` that reads back, the nearer one if both do. -/
def Interval.hit? (i : Interval) (e k : Int) : Option Nat :=
  let (a, b) := gridFactors e k
  let below := i.value * a / b
  let above := below + 1
  match i.contains a b below, i.contains a b above with
  | true, false => some below
  | false, true => some above
  | false, false => none
  | true, true =>
    let down := i.value * a - below * b
    let up := above * b - i.value * a
    if down < up || (down = up && below % 2 = 0) then some below else some above

/-- The power of ten of the first digit of `m · 2 ^ e`. -/
def leadingPower (m : Nat) (e : Int) : Int :=
  let guess : Int := ((m.log2 : Int) + e) * 30103 / 100000 - 1
  let reached (k : Int) : Bool :=
    let (a, b) := gridFactors e k
    b ≤ 4 * m * a
  if reached (guess + 3) then guess + 3
  else if reached (guess + 2) then guess + 2
  else if reached (guess + 1) then guess + 1
  else guess

/-- The first hit on the grids of `n` digits, `n + 1` digits and so on. -/
def Interval.search (i : Interval) (e lead : Int) : Nat → Nat → Decimal
  | 0, n => ⟨(i.hit? e (lead + 1 - n)).getD 0, lead + 1 - n⟩
  | tries + 1, n =>
    match i.hit? e (lead + 1 - n) with
    | some p => ⟨p, lead + 1 - n⟩
    | none => i.search e lead tries (n + 1)

/-- A decimal without zeros at the end of its digits. -/
def Decimal.trim : Nat → Decimal → Decimal
  | 0, d => d
  | fuel + 1, d =>
    if d.digits ≠ 0 && d.digits % 10 = 0 then trim fuel ⟨d.digits / 10, d.exponent + 1⟩ else d

/-- The shortest decimal that reads back as `m · 2 ^ e`, for positive `m`. -/
def shortest (m : Nat) (e : Int) : Decimal :=
  ((Interval.ofFloat m e).search e (leadingPower m e) 16 1).trim 17

/-- How a float is written. -/
structure FloatStyle where
  /-- The least power of ten of the first digit that is written without an exponent. -/
  leastPositional : Int
  /-- The first power of ten of the first digit that is written with an exponent again. -/
  firstExponential : Int
  /-- The fewest digits of an exponent. -/
  exponentDigits : Nat
  /-- What stands after the digits of an integral float written without an exponent. -/
  integralSuffix : String
  /-- Not a number. -/
  nan : String
  /-- Positive infinity. -/
  infinity : String

/-- A natural number with zeros put in front until it has `width` digits. -/
def padded (width n : Nat) : String :=
  let ds := Nat.repr n
  "".pushn '0' (width - ds.length) ++ ds

/-- A positive decimal written in a style. -/
def FloatStyle.write (style : FloatStyle) (d : Decimal) : String :=
  let ds := Nat.repr d.digits
  let lead : Int := (ds.length : Int) - 1 + d.exponent
  if style.leastPositional ≤ lead && lead < style.firstExponential then
    if 0 ≤ d.exponent then ds ++ "".pushn '0' d.exponent.toNat ++ style.integralSuffix
    else if 0 ≤ lead then
      String.ofList (ds.toList.take (lead + 1).toNat) ++ "." ++
        String.ofList (ds.toList.drop (lead + 1).toNat)
    else "0." ++ "".pushn '0' (-lead - 1).toNat ++ ds
  else
    let first := String.ofList (ds.toList.take 1)
    let others := String.ofList (ds.toList.drop 1)
    let mantissa := if others.isEmpty then first else first ++ "." ++ others
    mantissa ++ "e" ++ (if lead < 0 then "-" else "+") ++ padded style.exponentDigits lead.natAbs

/-- A float written in a style. -/
def FloatStyle.format (style : FloatStyle) (x : Float) : String :=
  match Exact.ofFloat x with
  | .nan => style.nan
  | .infinite s => if s then "-" ++ style.infinity else style.infinity
  | .finite s m e =>
    let digits := if m = 0 then "0" ++ style.integralSuffix else style.write (shortest m e)
    if s then "-" ++ digits else digits

/-- Floats in listings: positional from 0.0001 up to but not including 1e+16, an integral float ends
in `.0`, and an exponent has a sign and at least two digits. -/
def literalStyle : FloatStyle where
  leastPositional := -4
  firstExponential := 16
  exponentDigits := 2
  integralSuffix := ".0"
  nan := "nan"
  infinity := "inf"

/-- A float as listings show it. -/
def floatLiteral (x : Float) : String := literalStyle.format x

end ScopeExit.Number
