import ResolverContracts.Text.Binary64
/-!
# Literals

What the text of a literal token stands for. A string is its text without the quotes, taken as it
is written: no escape is resolved and no indentation removed, since nothing downstream looks inside.
A whole number is a value of 64 bits with a sign, or none.
-/

set_option autoImplicit false

namespace ResolverContracts

/-- A text without its first and last `n` characters. -/
def withoutEnds (n : Nat) (text : String) : String :=
  let cs := text.toList
  String.ofList ((cs.drop n).take (cs.length - 2 * n))

/-- The value of decimal digits, read from the left. -/
def digitsValue (ds : List Char) : Nat := ds.foldl (fun n d => 10 * n + (d.toNat - '0'.toNat)) 0

/-- The number that an integer literal writes. -/
def integerOfLiteral (text : String) : Int :=
  match text.toList with
  | '-' :: ds => -(digitsValue ds : Int)
  | ds => digitsValue ds

/-- Whether a number is one of 64 bits with a sign. -/
def inInt64Range (n : Int) : Bool := -9223372036854775808 ≤ n && n ≤ 9223372036854775807

/-- The number of 64 bits that an integer literal writes, if it is one. -/
def int64OfLiteral? (text : String) : Option Int :=
  let n := integerOfLiteral text
  if inInt64Range n then some n else none

/-! ## Numbers with a point or an exponent -/

/-- A decimal as its sign, its digits read as one number, and its power of ten. -/
structure DecimalLiteral where
  negative : Bool
  digits : Nat
  exponent : Int

/-- Reads digits, then a point with digits, then an exponent, the last two as far as they are there.
An exponent without digits makes the literal unreadable. -/
def DecimalLiteral.ofText? (text : String) : Option DecimalLiteral :=
  let (negative, cs) := match text.toList with
    | '-' :: cs => (true, cs)
    | cs => (false, cs)
  let whole := cs.takeWhile Char.isDigit
  let (fraction, cs) := match cs.dropWhile Char.isDigit with
    | '.' :: cs => (cs.takeWhile Char.isDigit, cs.dropWhile Char.isDigit)
    | cs => ([], cs)
  let digits := digitsValue (whole ++ fraction)
  match cs with
  | [] => some ⟨negative, digits, -(fraction.length : Int)⟩
  | _ :: cs =>
    let (down, power) := match cs with
      | '-' :: cs => (true, cs)
      | '+' :: cs => (false, cs)
      | cs => (false, cs)
    if power.isEmpty then none
    else
      let shift : Int := digitsValue power
      some ⟨negative, digits, (if down then -shift else shift) - fraction.length⟩

/-- The bit pattern of the double nearest to what a literal writes. A literal that writes no number
counts as zero. -/
def binary64OfLiteral (text : String) : Nat :=
  match DecimalLiteral.ofText? text with
  | some d => Binary64.withSign d.negative (Binary64.ofDecimal d.digits d.exponent)
  | none => 0

end ResolverContracts
