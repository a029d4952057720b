import Mathlib.Data.List.Basic
import ResolverContracts.Proofs.Text.Words
/-!
# What Pascal case keeps

A name of plain characters loses nothing in Pascal case but the case of its letters and what stands
between its words (`pascalCase_of_isAscii`). Each word is written with a capital in front
(`IsCapitalized`), and the words stand one behind the other, with an underscore in front of those that
begin with a digit (`underscored`). A word has no underscore itself, so taking all of them out leaves
the words, whatever the cuts were.
-/

set_option autoImplicit false

namespace ResolverContracts

open Letters

/-! ## Words in Pascal case -/

/-- A capital or a digit, and behind it small letters and digits. -/
def IsCapitalized (p : List Char) : Prop :=
  ∃ c cs, p = c :: cs ∧ (c.isUpper = true ∨ c.isDigit = true) ∧
    ∀ x ∈ cs, x.isLower = true ∨ x.isDigit = true

/-- Words one behind the other, with an underscore in front of each later one that begins with a
digit. -/
def underscored : List (List Char) → List Char
  | [] => []
  | w :: ws => w ++ ws.flatMap fun v => if v.head?.any Char.isDigit then '_' :: v else v

section Characters

variable {c : Char}

/-- The upper-case form of a letter or digit is a capital or a digit. -/
theorem isUpper_or_isDigit_toUpper (h : c.isAlphanum = true) :
    c.toUpper.isUpper = true ∨ c.toUpper.isDigit = true :=
  (forall_isAscii (by decide) (isAscii_of_isAlphanum h) :
    c.isAlphanum = true → c.toUpper.isUpper = true ∨ c.toUpper.isDigit = true) h

/-- The lower-case form of a letter or digit is a small letter or a digit. -/
theorem isLower_or_isDigit_toLower (h : c.isAlphanum = true) :
    c.toLower.isLower = true ∨ c.toLower.isDigit = true :=
  (forall_isAscii (by decide) (isAscii_of_isAlphanum h) :
    c.isAlphanum = true → c.toLower.isLower = true ∨ c.toLower.isDigit = true) h

theorem isDigit_toUpper (h : c.isAlphanum = true) : c.toUpper.isDigit = c.isDigit :=
  (forall_isAscii (by decide) (isAscii_of_isAlphanum h) :
    c.isAlphanum = true → c.toUpper.isDigit = c.isDigit) h

/-- A change of case is undone by another one. -/
theorem toLower_toUpper (h : c.isAlphanum = true) : c.toUpper.toLower = c.toLower :=
  (forall_isAscii (by decide) (isAscii_of_isAlphanum h) :
    c.isAlphanum = true → c.toUpper.toLower = c.toLower) h

theorem toLower_toLower (h : c.isAlphanum = true) : c.toLower.toLower = c.toLower :=
  (forall_isAscii (by decide) (isAscii_of_isAlphanum h) :
    c.isAlphanum = true → c.toLower.toLower = c.toLower) h

end Characters

/-! ## One word -/

section Word

variable {c : Char} {cs : List Char}

theorem flatMap_toLower_of_isAlphanum (h : ∀ x ∈ cs, x.isAlphanum = true) :
    cs.flatMap toLower = cs.map Char.toLower := by
  rw [← List.flatMap_singleton' (cs.map Char.toLower), List.flatMap_map]
  exact List.flatMap_congr fun x hx => toLower_of_isAscii (isAscii_of_isAlphanum (h x hx))

theorem capitalized_cons (hc : c.isAlphanum = true) (hcs : ∀ x ∈ cs, x.isAlphanum = true) :
    capitalized (c :: cs) = c.toUpper :: cs.map Char.toLower := by
  rw [capitalized, toUpper_of_isAscii (isAscii_of_isAlphanum hc), flatMap_toLower_of_isAlphanum hcs]
  rfl

theorem isCapitalized_capitalized (hc : c.isAlphanum = true) (hcs : ∀ x ∈ cs, x.isAlphanum = true) :
    IsCapitalized (capitalized (c :: cs)) := by
  refine ⟨c.toUpper, cs.map Char.toLower, capitalized_cons hc hcs, isUpper_or_isDigit_toUpper hc, ?_⟩
  intro x hx
  obtain ⟨d, hd, rfl⟩ := List.mem_map.mp hx
  exact isLower_or_isDigit_toLower (hcs d hd)

/-- Nothing but the case of a word changes. -/
theorem map_toLower_capitalized {w : List Char} (h : ∀ x ∈ w, x.isAlphanum = true) :
    (capitalized w).map Char.toLower = w.map Char.toLower := by
  cases w with
  | nil => rfl
  | cons c cs =>
    rw [List.forall_mem_cons] at h
    rw [capitalized_cons h.1 h.2, List.map_cons, List.map_cons, toLower_toUpper h.1, List.map_map]
    exact congrArg (_ :: ·) (List.map_congr_left fun x hx => toLower_toLower (h.2 x hx))

/-- A word that is not the first one has an underscore in front exactly if it begins with a digit. -/
theorem joined_eq_ite {w : List Char} (h : ∀ x ∈ w, x.isAlphanum = true) :
    joined w =
      if (capitalized w).head?.any Char.isDigit then '_' :: capitalized w else capitalized w := by
  cases w with
  | nil => rfl
  | cons c cs =>
    rw [List.forall_mem_cons] at h
    have hhead : (capitalized (c :: cs)).head?.any Char.isDigit = c.isDigit := by
      rw [capitalized_cons h.1 h.2, List.head?_cons, Option.any_some, isDigit_toUpper h.1]
    rw [hhead, joined]
    by_cases hdigit : c.isDigit = true
    · rw [if_pos hdigit, if_pos hdigit, capitalized, toUpper_of_isAscii (isAscii_of_isDigit hdigit),
        toUpper_of_isDigit hdigit]
      rfl
    · rw [if_neg hdigit, if_neg hdigit]

theorem IsCapitalized.ne_underscore {p : List Char} (h : IsCapitalized p) : ∀ x ∈ p, x ≠ '_' := by
  obtain ⟨c, cs, rfl, hc, hcs⟩ := h
  rw [List.forall_mem_cons]
  constructor
  · rintro rfl
    exact absurd hc (by decide)
  · rintro x hx rfl
    exact absurd (hcs '_' hx) (by decide)

end Word

/-! ## All words -/

/-- The underscores between words are all there are. -/
theorem filter_underscored {ps : List (List Char)} (h : ∀ p ∈ ps, IsCapitalized p) :
    (underscored ps).filter (· ≠ '_') = ps.flatten := by
  have hkept {p : List Char} (hp : IsCapitalized p) : p.filter (· ≠ '_') = p :=
    List.filter_eq_self.mpr fun x hx => decide_eq_true (hp.ne_underscore x hx)
  cases ps with
  | nil => rfl
  | cons p ps =>
    rw [List.forall_mem_cons] at h
    rw [underscored, List.filter_append, hkept h.1, List.filter_flatMap, List.flatten_cons,
      List.flatten_eq_flatMap]
    refine congrArg (p ++ ·) (List.flatMap_congr fun q hq => ?_)
    by_cases hdigit : q.head?.any Char.isDigit = true
    · rw [if_pos hdigit, List.filter_cons_of_neg (by decide), hkept (h.2 q hq)]
      rfl
    · rw [if_neg hdigit, hkept (h.2 q hq)]
      rfl

theorem filter_isAlphanumeric {cs : List Char} (h : ∀ c ∈ cs, isAscii c = true) :
    cs.filter isAlphanumeric = cs.filter Char.isAlphanum :=
  List.filter_congr fun c hc => isAlphanumeric_of_isAscii (h c hc)

/-- The letters and digits of the words of a plain name are plain ones. -/
theorem isAlphanum_of_mem_words {cs w : List Char} (h : ∀ c ∈ cs, isAscii c = true)
    (hw : w ∈ words cs) : ∀ x ∈ w, x.isAlphanum = true := by
  intro x hx
  obtain ⟨hmem, halphanumeric⟩ := isAlphanumeric_of_mem_words hw hx
  rwa [isAlphanumeric_of_isAscii (h x hmem)] at halphanumeric

/-- The Pascal case of a plain name is made of its words. -/
theorem toList_pascalCase_of_isAscii {name : String} (h : ∀ c ∈ name.toList, isAscii c = true) :
    (pascalCase name).toList = underscored ((words name.toList).map capitalized) := by
  have hplain : ∀ w ∈ words name.toList, ∀ x ∈ w, x.isAlphanum = true :=
    fun w hw => isAlphanum_of_mem_words h hw
  rw [toList_pascalCase]
  cases hwords : words name.toList with
  | nil => rfl
  | cons w ws =>
    rw [hwords, List.forall_mem_cons] at hplain
    rw [List.map_cons, underscored, List.flatMap_map]
    exact congrArg (capitalized w ++ ·) (List.flatMap_congr fun v hv => joined_eq_ite (hplain.2 v hv))

/-- **Pascal case loses case and separators only.** The words of a name of plain characters are not
empty, consist of letters and digits, and make up all of those in the name. In Pascal case each word
has a capital or a digit in front and no capital behind, and an underscore stands in front of each word
behind the first one that begins with a digit, and nowhere else. So without its underscores and in lower
case, it is the name without everything but letters and digits. -/
theorem pascalCase_of_isAscii {name : String} (h : ∀ c ∈ name.toList, isAscii c = true) :
    (∀ w ∈ words name.toList, w ≠ [] ∧ ∀ c ∈ w, c.isAlphanum = true) ∧
      (words name.toList).flatten = name.toList.filter Char.isAlphanum ∧
      (∃ ps, (pascalCase name).toList = underscored ps ∧ (∀ p ∈ ps, IsCapitalized p) ∧
        ps.map (·.map Char.toLower) = (words name.toList).map (·.map Char.toLower)) ∧
      ((pascalCase name).toList.filter (· ≠ '_')).map Char.toLower =
        (name.toList.filter Char.isAlphanum).map Char.toLower := by
  have hplain : ∀ w ∈ words name.toList, ∀ x ∈ w, x.isAlphanum = true :=
    fun w hw => isAlphanum_of_mem_words h hw
  have hflatten : (words name.toList).flatten = name.toList.filter Char.isAlphanum := by
    rw [words_flatten, filter_isAlphanumeric h]
  have hcapitalized : ∀ p ∈ (words name.toList).map capitalized, IsCapitalized p := by
    intro p hp
    obtain ⟨w, hw, rfl⟩ := List.mem_map.mp hp
    cases w with
    | nil => exact absurd rfl (ne_nil_of_mem_words hw)
    | cons c cs =>
      have hcs := hplain _ hw
      rw [List.forall_mem_cons] at hcs
      exact isCapitalized_capitalized hcs.1 hcs.2
  have hcase : ((words name.toList).map capitalized).map (·.map Char.toLower) =
      (words name.toList).map (·.map Char.toLower) := by
    rw [List.map_map]
    exact List.map_congr_left fun w hw => map_toLower_capitalized (hplain w hw)
  refine ⟨fun w hw => ⟨ne_nil_of_mem_words hw, hplain w hw⟩, hflatten,
    ⟨_, toList_pascalCase_of_isAscii h, hcapitalized, hcase⟩, ?_⟩
  calc ((pascalCase name).toList.filter (· ≠ '_')).map Char.toLower
      = (((words name.toList).map capitalized).flatten).map Char.toLower := by
        rw [toList_pascalCase_of_isAscii h, filter_underscored hcapitalized]
    _ = ((words name.toList).map (·.map Char.toLower)).flatten := by
        rw [List.map_flatten, hcase]
    _ = (name.toList.filter Char.isAlphanum).map Char.toLower := by
        rw [← List.map_flatten, hflatten]

/-- An acronym, a digit behind a word, one in front of a word, and separators everywhere. -/
theorem pascalCase_of_isAscii_acronym :
    (∀ c ∈ "$HTTPServer2_1x--IDs".toList, isAscii c = true) ∧
      pascalCase "$HTTPServer2_1x--IDs" = "HttpServer2_1xIDs" ∧
      ((pascalCase "$HTTPServer2_1x--IDs").toList.filter (· ≠ '_')).map Char.toLower =
        ("$HTTPServer2_1x--IDs".toList.filter Char.isAlphanum).map Char.toLower := by
  have hascii := List.all_eq_true.mp (show "$HTTPServer2_1x--IDs".toList.all isAscii = true by decide)
  exact ⟨hascii, by decide, (pascalCase_of_isAscii hascii).2.2.2⟩

end ResolverContracts
