/-!
# The order of texts

Texts are compared character by character, and so they are compared byte by byte in UTF-8:
`lt_iff_utf8Bytes_lt`. Two characters are told apart within the bytes of both, where the greater
character has the greater byte (`EncodedAs.append_lt`), whatever comes behind. A character of more bytes
starts with a greater one, and for characters of equally many bytes these are the digits of the
characters, the highest first.
-/

set_option autoImplicit false

namespace ResolverContracts

open String (utf8EncodeChar)

/-- The bytes of a text in UTF-8. -/
def utf8Bytes (s : String) : List UInt8 := s.toUTF8.data.toList

/-! ## Characters -/

/-- How the bytes of a character are made from its number: up to three digits to the base 64, behind
what is left in front of them. -/
inductive EncodedAs (n : Nat) : List UInt8 → Prop
  | one (hmost : n ≤ 127) : EncodedAs n [.ofNat n]
  | two {i j : Nat} (hn : n = 64 * i + j) (hj : j < 64) (hleast : 127 < n) (hmost : n ≤ 2047) :
    EncodedAs n [.ofNat (i + 192), .ofNat (j + 128)]
  | three {i j k : Nat} (hn : n = 64 * (64 * i + j) + k) (hj : j < 64) (hk : k < 64)
    (hleast : 2047 < n) (hmost : n ≤ 65535) :
    EncodedAs n [.ofNat (i + 224), .ofNat (j + 128), .ofNat (k + 128)]
  | four {i j k l : Nat} (hn : n = 64 * (64 * (64 * i + j) + k) + l) (hj : j < 64) (hk : k < 64)
    (hl : l < 64) (hleast : 65535 < n) (hmost : n < 1114112) :
    EncodedAs n [.ofNat (i + 240), .ofNat (j + 128), .ofNat (k + 128), .ofNat (l + 128)]

theorem encodedAs_utf8EncodeChar (c : Char) : EncodedAs c.toNat (utf8EncodeChar c) := by
  have hc : c.toNat < 1114112 := by
    rcases c.valid with h | h
    · exact Nat.lt_trans h (by decide)
    · exact h.2
  have hval : c.val.toNat = c.toNat := rfl
  simp only [utf8EncodeChar, hval]
  generalize c.toNat = n at hc
  -- The masks of the first byte do nothing below the bound of its case.
  by_cases hone : n ≤ 127
  · rw [if_pos hone]
    exact .one hone
  rw [if_neg hone]
  by_cases htwo : n ≤ 2047
  · have hfirst : n / 64 % 32 = n / 64 := by omega
    rw [if_pos htwo, hfirst]
    exact .two (by omega) (by omega) (by omega) htwo
  rw [if_neg htwo]
  by_cases hthree : n ≤ 65535
  · have hfirst : n / 4096 % 16 = n / 4096 := by omega
    rw [if_pos hthree, hfirst]
    exact .three (by omega) (by omega) (by omega) (by omega) hthree
  · have hfirst : n / 262144 % 8 = n / 262144 := by omega
    rw [if_neg hthree, hfirst]
    exact .four (by omega) (by omega) (by omega) (by omega) (by omega) hc

/-- **Two characters.** What comes behind does not matter. -/
theorem EncodedAs.append_lt {m n : Nat} {bytes bytes' : List UInt8} (h : m < n)
    (hm : EncodedAs m bytes) (hn : EncodedAs n bytes') (rest rest' : List UInt8) :
    bytes ++ rest < bytes' ++ rest' := by
  -- Each pair of lengths is a comparison of digits, or of first bytes that are far apart.
  cases hm <;> cases hn <;>
    simp only [List.cons_append, List.nil_append, List.cons_lt_cons_iff, UInt8.lt_iff_toNat_lt,
      ← UInt8.toNat_inj, UInt8.toNat_ofNat'] <;>
    omega

/-! ## Texts -/

theorem utf8Bytes_eq_flatMap (s : String) : utf8Bytes s = s.toList.flatMap utf8EncodeChar := by
  have hbytes : (String.ofList s.toList).toUTF8 = (s.toList.flatMap utf8EncodeChar).toByteArray :=
    String.toUTF8_eq_toByteArray
  rw [String.ofList_toList] at hbytes
  rw [utf8Bytes, hbytes, List.toList_data_toByteArray]

/-- The induction is on both texts, as far as they are the same. -/
theorem flatMap_utf8EncodeChar_lt {cs ds : List Char} (h : cs < ds) :
    cs.flatMap utf8EncodeChar < ds.flatMap utf8EncodeChar := by
  induction cs generalizing ds with
  | nil =>
    cases ds with
    | nil => exact absurd h (List.lt_irrefl [])
    | cons d ds =>
      rw [List.flatMap_nil, List.flatMap_cons]
      cases hd : utf8EncodeChar d with
      | nil => exact absurd hd String.utf8EncodeChar_ne_nil
      | cons byte bytes => exact List.nil_lt_cons _ _
  | cons c cs ih =>
    cases ds with
    | nil => exact absurd h (List.not_lt_nil _)
    | cons d ds =>
      rw [List.flatMap_cons, List.flatMap_cons]
      rcases List.cons_lt_cons_iff.mp h with hlt | ⟨rfl, hlt⟩
      · exact (encodedAs_utf8EncodeChar c).append_lt hlt (encodedAs_utf8EncodeChar d) _ _
      · exact List.append_left_lt (ih hlt)

/-- **Order of bytes.** Texts are in order if their bytes are. -/
theorem lt_iff_utf8Bytes_lt {a b : String} : a < b ↔ utf8Bytes a < utf8Bytes b := by
  rw [utf8Bytes_eq_flatMap, utf8Bytes_eq_flatMap, String.lt_iff]
  constructor
  · exact flatMap_utf8EncodeChar_lt
  · intro h
    refine Decidable.byContradiction fun hnot => ?_
    rcases List.le_iff_lt_or_eq.mp (List.not_lt.mp hnot) with hlt | heq
    · exact List.lt_asymm h (flatMap_utf8EncodeChar_lt hlt)
    · rw [heq] at h
      exact List.lt_irrefl _ h

end ResolverContracts
