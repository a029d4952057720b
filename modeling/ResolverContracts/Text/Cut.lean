/-!
# Cutting texts

A text is trimmed of white space at both ends, and cut at the first place where a separator stands.
White space is meant in every script: the 25 characters that have that property.
-/

set_option autoImplicit false

namespace ResolverContracts

/-- White space of any script. -/
def isWhiteSpace (c : Char) : Bool :=
  let code := c.toNat
  (9 ≤ code && code ≤ 13) || code == 0x20 || code == 0x85 || code == 0xa0 || code == 0x1680 ||
    (0x2000 ≤ code && code ≤ 0x200a) || code == 0x2028 || code == 0x2029 || code == 0x202f ||
    code == 0x205f || code == 0x3000

/-- A text without white space at its end. -/
def trimEnd (cs : List Char) : List Char := (cs.reverse.dropWhile isWhiteSpace).reverse

/-- A text without white space at its ends. -/
def trim (cs : List Char) : List Char := trimEnd (cs.dropWhile isWhiteSpace)

/-- The parts before and behind the first occurrence of a separator. -/
def splitOnce (separator : List Char) : List Char → Option (List Char × List Char)
  | [] => if separator.isEmpty then some ([], []) else none
  | c :: cs =>
    if separator.isPrefixOf (c :: cs) then some ([], (c :: cs).drop separator.length)
    else (splitOnce separator cs).map fun (before, behind) => (c :: before, behind)

/-- The parts of a split text and the separator make up the text. -/
theorem splitOnce_append {separator cs before behind : List Char}
    (h : splitOnce separator cs = some (before, behind)) : before ++ separator ++ behind = cs := by
  induction cs generalizing before with
  | nil =>
    simp only [splitOnce] at h
    split at h
    · next hs => cases h; simpa using hs
    · cases h
  | cons c cs ih =>
    simp only [splitOnce] at h
    split at h
    · next hs =>
      obtain ⟨rest, hr⟩ := List.isPrefixOf_iff_prefix.mp hs
      cases h
      simp [← hr]
    · next hs =>
      obtain ⟨⟨b, r⟩, hb, hr⟩ := Option.map_eq_some_iff.mp h
      cases hr
      simpa using ih hb

end ResolverContracts
