import ResolverContracts.Text.Letters.Alphanumeric
import ResolverContracts.Text.Letters.Upper
import ResolverContracts.Text.Letters.Lower
import ResolverContracts.Text.Letters.ToUpper
import ResolverContracts.Text.Letters.ToLower
/-!
# Classes and cases of letters

The classes of characters that names are cut and written by, for every script. The first 128
characters are answered directly; the others by table. A change of case may turn one character into
several, so it gives a list.
-/

set_option autoImplicit false

namespace ResolverContracts.Letters

/-- Whether a character is one of the first 128. -/
def isAscii (c : Char) : Bool := c.toNat < 128

/-- A letter or a number of any script. -/
def isAlphanumeric (c : Char) : Bool :=
  if isAscii c then c.isAlphanum else inRuns alphanumericRuns c

/-- An upper-case letter of any script. -/
def isUpper (c : Char) : Bool := if isAscii c then c.isUpper else inRuns uppercaseRuns c

/-- A lower-case letter of any script. -/
def isLower (c : Char) : Bool := if isAscii c then c.isLower else inRuns lowercaseRuns c

/-- The other form of a character, from a table of sequences and one of distances. A character that
is in neither table is its own other form. -/
def shifted (shifts : List Shift) (sequences : List (Nat × List Nat)) (c : Char) : List Char :=
  match sequences.find? (·.1 == c.toNat) with
  | some (_, codes) => codes.map Char.ofNat
  | none =>
    match shifts.find? (·.run.contains c.toNat) with
    | some s => [Char.ofNat ((c.toNat : Int) + s.distance).toNat]
    | none => [c]

/-- The upper-case form of a character. -/
def toUpper (c : Char) : List Char :=
  if isAscii c then [c.toUpper] else shifted upperShifts upperSequences c

/-- The lower-case form of a character. -/
def toLower (c : Char) : List Char :=
  if isAscii c then [c.toLower] else shifted lowerShifts lowerSequences c

end ResolverContracts.Letters
