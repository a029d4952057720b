/-!
# Runs of characters

Tables of characters are lists of runs: characters at equal distances from a first to a last one.
The distance is one for a block of an alphabet, and two where upper and lower case alternate.
-/

set_option autoImplicit false

namespace ResolverContracts.Letters

/-- The code points `first`, `first + step`, … up to `last`. -/
structure Run where
  first : Nat
  last : Nat
  step : Nat

/-- Whether a code point is in a run. -/
def Run.contains (r : Run) (code : Nat) : Bool :=
  r.first ≤ code && code ≤ r.last && (code - r.first) % r.step == 0

/-- A run of code points that all have their other form at one distance. -/
structure Shift where
  run : Run
  distance : Int

/-- Whether a character is in one of these runs. -/
def inRuns (runs : List Run) (c : Char) : Bool := runs.any (·.contains c.toNat)

end ResolverContracts.Letters
