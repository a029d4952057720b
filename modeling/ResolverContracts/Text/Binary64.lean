/-!
# Numbers of 64 bits with a floating point

A double is `mantissa · 2 ^ exponent` with a mantissa below `2 ^ 53`. Its bits are handled here as
one number: for a positive double, `(exponent + 1074) · 2 ^ 52 + mantissa` is the bit pattern whether
the double is normal or subnormal, and the patterns grow with the values. All of this is arithmetic
on natural numbers; a ratio is rounded once, to the nearest double, and a tie goes to the even
mantissa.

The other direction is `shortestDecimal`: the fewest decimal digits that still round to the double.
-/

set_option autoImplicit false

namespace ResolverContracts.Binary64

/-! ## Powers -/

/-- A power of two. -/
def twoTo (n : Nat) : Nat := Nat.pow 2 n

/-- A power of ten. -/
def tenTo (n : Nat) : Nat := Nat.pow 10 n

/-- The number of mantissas that share an exponent. -/
def mantissaRange : Nat := 4503599627370496

/-- The bit of the sign. -/
def signBit : Nat := 9223372036854775808

example : mantissaRange = twoTo 52 ∧ signBit = twoTo 63 := by decide

/-! ## Rounding -/

/-- The natural number nearest to `num / den`; a half goes to the even neighbour. -/
def roundHalfEven (num den : Nat) : Nat :=
  let q := num / den
  let r := num % den
  if 2 * r < den then q
  else if den < 2 * r then q + 1
  else if q % 2 = 0 then q
  else q + 1

/-- `num / den · 2 ^ (-e)` as a ratio. -/
def scaleDown (num den : Nat) (e : Int) : Nat × Nat :=
  if e < 0 then (num * twoTo (-e).toNat, den) else (num, den * twoTo e.toNat)

/-- The exponent of the double nearest to `num / den`: the one that gives the mantissa 53 bits, but
no less than the smallest there is. -/
def exponentOf (num den : Nat) : Int :=
  let l : Int := (Nat.log2 num : Int) - Nat.log2 den
  let (n, d) := scaleDown num den l
  max (if d ≤ n then l - 52 else l - 53) (-1074)

/-- The bit pattern of positive infinity. -/
def infinity : Nat := 0x7ff0000000000000

/-- The bit pattern of the double nearest to the ratio `num / den` of positive numbers. -/
def ofRatio (num den : Nat) : Nat :=
  if num = 0 then 0
  else
    let e := exponentOf num den
    let (n, d) := scaleDown num den e
    min ((e + 1074).toNat * mantissaRange + roundHalfEven n d) infinity

/-- The bit pattern of the double nearest to `digits · 10 ^ exponent`. Exponents far outside of the
range are answered without computing the power. -/
def ofDecimal (digits : Nat) (exponent : Int) : Nat :=
  if digits = 0 then 0
  else
    let order : Int := (Nat.toDigits 10 digits).length + exponent
    if 310 < order then infinity
    else if order < -330 then 0
    else if exponent < 0 then ofRatio digits (tenTo (-exponent).toNat)
    else ofRatio (digits * tenTo exponent.toNat) 1

/-- The pattern with its sign bit set if the number is negative. -/
def withSign (negative : Bool) (bits : Nat) : Nat := if negative then bits + signBit else bits

/-! ## Reading a pattern -/

/-- Mantissa and exponent of a finite positive pattern. -/
def decode (bits : Nat) : Nat × Int :=
  let biased : Nat := bits / mantissaRange
  let fraction := bits % mantissaRange
  if biased = 0 then (fraction, -1074) else (mantissaRange + fraction, (biased : Int) - 1075)

/-- A finite positive pattern as a ratio. -/
def toRatio (bits : Nat) : Nat × Nat :=
  let (m, e) := decode bits
  if e < 0 then (m, twoTo (-e).toNat) else (m * twoTo e.toNat, 1)

/-- The product of two finite positive doubles. -/
def mul (a b : Nat) : Nat :=
  let (an, ad) := toRatio a
  let (bn, bd) := toRatio b
  ofRatio (an * bn) (ad * bd)

/-- The quotient of two finite positive doubles. -/
def div (a b : Nat) : Nat :=
  let (an, ad) := toRatio a
  let (bn, bd) := toRatio b
  ofRatio (an * bd) (ad * bn)

/-! ## The shortest decimal -/

/-- The decimal `digits · 10 ^ exponent` as a ratio. -/
def decimalRatio (digits : Nat) (exponent : Int) : Nat × Nat :=
  if exponent < 0 then (digits, tenTo (-exponent).toNat) else (digits * tenTo exponent.toNat, 1)

/-- Whether a decimal rounds to this pattern. -/
def readsBack (bits digits : Nat) (exponent : Int) : Bool :=
  let (n, d) := decimalRatio digits exponent
  ofRatio n d == bits

/-- The number of digits of `num / den` in front of the decimal point; zero or less for what is
below one. Found from an estimate that is at most one too small. -/
def decimalOrder (num den : Nat) : Int :=
  let estimate : Int :=
    ((Nat.toDigits 10 num).length : Int) - (Nat.toDigits 10 den).length
  let (n, d) := decimalRatio 1 estimate
  if n * den ≤ num * d then estimate + 1 else estimate

/-- The decimal with `count` digits that rounds to the pattern and is nearest to it, if there is
one: one of the two neighbours of the value on the grid of such decimals. -/
def withDigits? (bits : Nat) (count : Nat) : Option (Nat × Int) :=
  let (num, den) := toRatio bits
  let exponent := decimalOrder num den - count
  let (gn, gd) := decimalRatio 1 exponent
  let n := num * gd
  let d := den * gn
  let below := n / d
  let above := below + 1
  let okBelow := readsBack bits below exponent
  let okAbove := readsBack bits above exponent
  let nearerAbove := d < 2 * (n % d) || (2 * (n % d) == d && below % 2 == 1)
  if okBelow && okAbove then some (if nearerAbove then above else below, exponent)
  else if okBelow then some (below, exponent)
  else if okAbove then some (above, exponent)
  else none

/-- Takes zeros off the end of the digits. The bound is the number of digits. -/
def stripZeros : Nat → Nat → Int → Nat × Int
  | 0, digits, exponent => (digits, exponent)
  | k + 1, digits, exponent =>
    if digits % 10 = 0 ∧ digits ≠ 0 then stripZeros k (digits / 10) (exponent + 1)
    else (digits, exponent)

/-- The decimal of fewest digits that rounds to a finite positive pattern; of those of one length
the nearest. Seventeen digits always suffice. -/
def shortestDecimal (bits : Nat) : Nat × Int :=
  let candidates := (List.range 17).filterMap fun k => withDigits? bits (k + 1)
  let (digits, exponent) := candidates.headD (0, 0)
  stripZeros 17 digits exponent

end ResolverContracts.Binary64
