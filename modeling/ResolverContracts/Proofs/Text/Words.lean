import ResolverContracts.Text.Words
import ResolverContracts.Config.Symbol
/-!
# What names are made of

Cutting a name into words keeps its letters and digits in their order and drops everything else
(`words_flatten`), and no word is empty. So a name in Pascal case starts with what the name itself has
as its first letter or digit (`head?_pascalCase`), and underscores in front of it do not matter.

For names of plain letters, digits and underscores that decides whether the Pascal case can be written
as an identifier (`isIdentifier_pascalCase_iff`): every character of it may stand in one, but the first
one may be a digit, or there may be none.
-/

set_option autoImplicit false

namespace ResolverContracts

open Letters

/-! ## Plain characters -/

namespace Letters

variable {c : Char}

/-- What holds of the first 128 characters, one by one, holds of every plain character. -/
@[elab_as_elim]
theorem forall_isAscii {P : Char → Prop} (h : ∀ n < 128, P (Char.ofNat n)) (hc : isAscii c = true) :
    P c := by
  have hlt : c.toNat < 128 := by simpa [isAscii] using hc
  have hp := h c.toNat hlt
  rwa [Char.ofNat_toNat] at hp

theorem isAscii_of_isAlphanum (h : c.isAlphanum = true) : isAscii c = true := by
  have hcases : c.isAlpha = true ∨ c.isDigit = true := Bool.or_eq_true_iff.mp h
  have hlast : c.toNat ≤ 'z'.toNat := by
    rcases hcases with halpha | hdigit
    · have hcase : c.isUpper = true ∨ c.isLower = true := Bool.or_eq_true_iff.mp halpha
      rcases hcase with hupper | hlower
      · have hZ : c.toNat ≤ 'Z'.toNat := (of_decide_eq_true hupper).2
        exact Nat.le_trans hZ (by decide)
      · have hz : c.val ≤ 'z'.val := of_decide_eq_true (Bool.and_eq_true_iff.mp hlower).2
        exact UInt32.le_iff_toNat_le.mp hz
    · have hnine : c.toNat ≤ '9'.toNat := (Char.isDigit_iff_toNat.mp hdigit).2
      exact Nat.le_trans hnine (by decide)
  exact decide_eq_true (Nat.lt_of_le_of_lt hlast (by decide))

/-- On ASCII, letters and digits are those of the library; the tables are about other characters. -/
theorem isAlphanumeric_of_isAscii (h : isAscii c = true) : isAlphanumeric c = c.isAlphanum :=
  if_pos h

theorem toUpper_of_isAscii (h : isAscii c = true) : toUpper c = [c.toUpper] := if_pos h

theorem toLower_of_isAscii (h : isAscii c = true) : toLower c = [c.toLower] := if_pos h

/-- A change of case keeps letters letters, and digits as they are. -/
theorem isAlphanum_toUpper (h : c.isAlphanum = true) : c.toUpper.isAlphanum = true :=
  (forall_isAscii (by decide) (isAscii_of_isAlphanum h) :
    c.isAlphanum = true → c.toUpper.isAlphanum = true) h

theorem isAlphanum_toLower (h : c.isAlphanum = true) : c.toLower.isAlphanum = true :=
  (forall_isAscii (by decide) (isAscii_of_isAlphanum h) :
    c.isAlphanum = true → c.toLower.isAlphanum = true) h

theorem isAlpha_toUpper (h : c.isAlphanum = true) : c.toUpper.isAlpha = c.isAlpha :=
  (forall_isAscii (by decide) (isAscii_of_isAlphanum h) :
    c.isAlphanum = true → c.toUpper.isAlpha = c.isAlpha) h

theorem isAlphanum_of_isUpper (h : c.isUpper = true) : c.isAlphanum = true :=
  Bool.or_eq_true_iff.mpr (.inl (Bool.or_eq_true_iff.mpr (.inl h)))

theorem isAlphanum_of_isDigit (h : c.isDigit = true) : c.isAlphanum = true :=
  Bool.or_eq_true_iff.mpr (.inr h)

theorem isAscii_of_isUpper (h : c.isUpper = true) : isAscii c = true :=
  isAscii_of_isAlphanum (isAlphanum_of_isUpper h)

theorem isAscii_of_isDigit (h : c.isDigit = true) : isAscii c = true :=
  isAscii_of_isAlphanum (isAlphanum_of_isDigit h)

theorem toUpper_of_isDigit (h : c.isDigit = true) : c.toUpper = c :=
  (forall_isAscii (by decide) (isAscii_of_isDigit h) : c.isDigit = true → c.toUpper = c) h

end Letters

/-! ## Cutting -/

theorem flatten_consWord (word : List Char) (later : List (List Char)) :
    (consWord word later).flatten = word ++ later.flatten := by
  cases word with
  | nil => rfl
  | cons c cs => rfl

theorem ne_nil_of_mem_consWord {word w : List Char} {later : List (List Char)}
    (hlater : ∀ v ∈ later, v ≠ []) (hw : w ∈ consWord word later) : w ≠ [] := by
  cases word with
  | nil => exact hlater w hw
  | cons c cs =>
    rcases List.mem_cons.mp hw with rfl | hw
    · exact List.cons_ne_nil c cs
    · exact hlater w hw

/-- The cut drops nothing but what stands between words. The induction is on the characters; what a
word is and where it begins does not matter. -/
theorem flatten_splitWords (before : Option Char) (cs : List Char) :
    (splitWords before cs).1 ++ (splitWords before cs).2.flatten = cs.filter isAlphanumeric := by
  induction cs generalizing before with
  | nil => rfl
  | cons c cs ih =>
    rw [splitWords]
    by_cases hc : isAlphanumeric c = true
    · rw [if_pos hc, List.filter_cons_of_pos hc, ← ih (some c)]
      by_cases hbegin : (before.any fun b => beginsWord b c cs.head?) = true
      · simp [hbegin]
      · simp [hbegin]
    · rw [if_neg hc, List.filter_cons_of_neg hc, ← ih none]
      simp [flatten_consWord]

theorem ne_nil_of_mem_splitWords {before : Option Char} {cs w : List Char}
    (h : w ∈ (splitWords before cs).2) : w ≠ [] := by
  induction cs generalizing before w with
  | nil => exact absurd h List.not_mem_nil
  | cons c cs ih =>
    rw [splitWords] at h
    by_cases hc : isAlphanumeric c = true
    · rw [if_pos hc] at h
      by_cases hbegin : (before.any fun b => beginsWord b c cs.head?) = true
      · simp only [hbegin, if_true] at h
        rcases List.mem_cons.mp h with rfl | h
        · exact List.cons_ne_nil _ _
        · exact ih h
      · simp only [hbegin] at h
        exact ih h
    · rw [if_neg hc] at h
      exact ne_nil_of_mem_consWord (fun v hv => ih hv) h

/-- **Words.** The words of a name, one behind the other, are its letters and digits. -/
theorem words_flatten (cs : List Char) : (words cs).flatten = cs.filter isAlphanumeric := by
  rw [words, flatten_consWord]
  exact flatten_splitWords none cs

/-- Two separators in a row make no word between them. -/
theorem ne_nil_of_mem_words {cs w : List Char} (h : w ∈ words cs) : w ≠ [] :=
  ne_nil_of_mem_consWord (fun _ => ne_nil_of_mem_splitWords) h

theorem isAlphanumeric_of_mem_words {cs w : List Char} (h : w ∈ words cs) {c : Char} (hc : c ∈ w) :
    c ∈ cs ∧ isAlphanumeric c = true := by
  have hmem : c ∈ cs.filter isAlphanumeric := by
    rw [← words_flatten]
    exact List.mem_flatten.mpr ⟨w, h, hc⟩
  exact List.mem_filter.mp hmem

/-! ## Pascal case -/

/-- The characters of a name in Pascal case: nothing, if the name has no words. -/
theorem toList_pascalCase (name : String) : (pascalCase name).toList =
    (words name.toList).head?.elim [] capitalized ++ (words name.toList).tail.flatMap joined := by
  rw [pascalCase, String.toList_ofList]
  cases words name.toList with
  | nil => rfl
  | cons w ws => rfl

/-- A name of letters, digits and underscores of the plain kind. -/
def IsPlain (name : String) : Prop := ∀ c ∈ name.toList, c.isAlphanum = true ∨ c = '_'

section Plain

variable {name : String}

/-- The letters and digits of a plain name are plain ones. -/
theorem IsPlain.isAlphanum_of_isAlphanumeric (h : IsPlain name) {c : Char} (hc : c ∈ name.toList)
    (halphanumeric : isAlphanumeric c = true) : c.isAlphanum = true := by
  rcases h c hc with hplain | rfl
  · exact hplain
  · exact absurd halphanumeric (by decide)

/-- In a plain name, words are made of plain letters and digits. -/
theorem IsPlain.isAlphanum (h : IsPlain name) {w : List Char} (hw : w ∈ words name.toList)
    {c : Char} (hc : c ∈ w) : c.isAlphanum = true := by
  obtain ⟨hmem, halphanumeric⟩ := isAlphanumeric_of_mem_words hw hc
  exact h.isAlphanum_of_isAlphanumeric hmem halphanumeric

theorem isAlphanum_of_mem_capitalized {w : List Char} (h : ∀ c ∈ w, c.isAlphanum = true) :
    ∀ x ∈ capitalized w, x.isAlphanum = true := by
  intro x hx
  match w with
  | [] => exact absurd hx List.not_mem_nil
  | c :: cs =>
    rw [List.forall_mem_cons] at h
    rw [capitalized, List.mem_append, List.mem_flatMap] at hx
    rcases hx with hx | ⟨d, hd, hx⟩
    · rw [toUpper_of_isAscii (isAscii_of_isAlphanum h.1), List.mem_singleton] at hx
      rw [hx]
      exact isAlphanum_toUpper h.1
    · have hdigit := h.2 d hd
      rw [toLower_of_isAscii (isAscii_of_isAlphanum hdigit), List.mem_singleton] at hx
      rw [hx]
      exact isAlphanum_toLower hdigit

/-- A word that is not the first one stands there like a first one, or behind an underscore. -/
theorem joined_eq {w : List Char} (h : ∀ c ∈ w, c.isAlphanum = true) :
    joined w = capitalized w ∨ joined w = '_' :: capitalized w := by
  match w with
  | [] => exact .inl rfl
  | c :: cs =>
    rw [joined]
    by_cases hdigit : c.isDigit = true
    · rw [if_pos hdigit, capitalized, toUpper_of_isAscii (isAscii_of_isDigit hdigit),
        toUpper_of_isDigit hdigit]
      exact .inr rfl
    · rw [if_neg hdigit]
      exact .inl rfl

/-- Every character of a plain name in Pascal case can stand in an identifier. -/
theorem IsPlain.isIdentifierChar (h : IsPlain name) :
    ∀ x ∈ (pascalCase name).toList, isIdentifierChar x = true := by
  have hword {w : List Char} (hw : w ∈ words name.toList) :
      ∀ x ∈ capitalized w, ResolverContracts.isIdentifierChar x = true := by
    intro x hx
    have hx := isAlphanum_of_mem_capitalized (fun c hc => h.isAlphanum hw hc) x hx
    simp [ResolverContracts.isIdentifierChar, hx]
  intro x hx
  rw [toList_pascalCase, List.mem_append] at hx
  -- The first word is only capitalized; each later one may get an underscore in front.
  rcases hx with hx | hx
  · cases hwords : words name.toList with
    | nil =>
      rw [hwords] at hx
      exact absurd hx List.not_mem_nil
    | cons w ws =>
      rw [hwords] at hx
      exact hword (hwords ▸ List.mem_cons_self) x hx
  · obtain ⟨w, hw, hx⟩ := List.mem_flatMap.mp hx
    have hw : w ∈ words name.toList := List.mem_of_mem_tail hw
    rcases joined_eq (fun c hc => h.isAlphanum hw hc) with hjoined | hjoined
    · rw [hjoined] at hx
      exact hword hw x hx
    · rw [hjoined] at hx
      rcases List.mem_cons.mp hx with rfl | hx
      · decide
      · exact hword hw x hx

/-- The first character is the first letter or digit of the name, in upper case. -/
theorem IsPlain.head?_pascalCase (h : IsPlain name) : (pascalCase name).toList.head? =
    (name.toList.filter isAlphanumeric).head?.map Char.toUpper := by
  rw [toList_pascalCase, ← words_flatten]
  cases hwords : words name.toList with
  | nil => rfl
  | cons w ws =>
    have hw : w ∈ words name.toList := hwords ▸ List.mem_cons_self
    cases hcs : w with
    | nil => exact absurd hcs (ne_nil_of_mem_words hw)
    | cons c cs =>
      have hc : c.isAlphanum = true := h.isAlphanum hw (hcs ▸ List.mem_cons_self)
      simp [capitalized, toUpper_of_isAscii (isAscii_of_isAlphanum hc)]

/-- Behind its underscores a plain name goes on with its first letter or digit. -/
theorem IsPlain.head?_filter (h : IsPlain name) : (name.toList.filter isAlphanumeric).head? =
    (name.toList.dropWhile (· == '_')).head? := by
  rw [IsPlain] at h
  generalize name.toList = cs at h ⊢
  induction cs with
  | nil => rfl
  | cons c cs ih =>
    rw [List.forall_mem_cons] at h
    rcases h.1 with hc | rfl
    · have hne : (c == '_') = false := by
        rw [beq_eq_false_iff_ne]
        rintro rfl
        exact absurd hc (by decide)
      have halphanumeric : isAlphanumeric c = true := by
        rw [isAlphanumeric_of_isAscii (isAscii_of_isAlphanum hc), hc]
      rw [List.filter_cons_of_pos halphanumeric, List.dropWhile_cons_of_neg (by simp [hne])]
      rfl
    · rw [List.filter_cons_of_neg (by decide), List.dropWhile_cons_of_pos (by decide)]
      exact ih h.2

/-- **Identifiers.** The Pascal case of a plain name is an identifier exactly if the name goes on with
a letter behind the underscores it starts with. -/
theorem IsPlain.isIdentifier_pascalCase_iff (h : IsPlain name) :
    isIdentifier (pascalCase name).toList = true ↔
      ∃ c, (name.toList.dropWhile (· == '_')).head? = some c ∧ c.isAlpha = true := by
  have hhead := h.head?_pascalCase
  rw [h.head?_filter] at hhead
  have hchars := h.isIdentifierChar
  cases hname : (name.toList.dropWhile (· == '_')).head? with
  | none =>
    rw [hname, Option.map_none, List.head?_eq_none_iff] at hhead
    simp [hhead, isIdentifier]
  | some c =>
    -- The first character is no underscore, so it is a letter or a digit.
    have hc : c.isAlphanum = true := by
      have hfirst : c ∈ name.toList.filter isAlphanumeric := by
        rw [← h.head?_filter] at hname
        exact List.mem_of_head? hname
      obtain ⟨hmem, halphanumeric⟩ := List.mem_filter.mp hfirst
      exact h.isAlphanum_of_isAlphanumeric hmem halphanumeric
    -- Neither of the two signs an identifier may start with is the capital of one.
    have hsigns : c.isAlphanum = true → (c.toUpper == '_') = false ∧ (c.toUpper == '$') = false :=
      forall_isAscii (by decide) (isAscii_of_isAlphanum hc)
    have hstart : isIdentifierStart c.toUpper = c.isAlpha := by
      rw [isIdentifierStart, isAlpha_toUpper hc, (hsigns hc).1, (hsigns hc).2, Bool.or_false,
        Bool.or_false]
    rw [hname, Option.map_some] at hhead
    cases hpascal : (pascalCase name).toList with
    | nil =>
      rw [hpascal] at hhead
      nomatch hhead
    | cons x xs =>
      rw [hpascal] at hhead hchars
      obtain rfl : x = c.toUpper := Option.some.inj hhead
      have hall : xs.all ResolverContracts.isIdentifierChar = true :=
        List.all_eq_true.mpr fun y hy => hchars y (List.mem_cons_of_mem _ hy)
      simp [isIdentifier, hstart, hall]

end Plain

end ResolverContracts
