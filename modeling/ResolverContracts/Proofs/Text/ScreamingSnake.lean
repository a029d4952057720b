import Mathlib.Data.List.Basic
import ResolverContracts.Proofs.Text.Words
/-!
# Names in capitals

Most enum values are written in capitals, with underscores between words. A word has capitals, and
perhaps digits behind them; a word that is not the first one can also be digits alone. Two different
names of this form are also different in Pascal case (`ScreamingSnake.eq_of_pascalCase_eq`).

There is a way back. No new word begins inside a word of this form, so the cut finds just the words
that were written (`words_intercalate`). In Pascal case each of them starts with a capital, or with the
underscore that is kept in front of a digit, and has neither further on. So a capital marks the start of
a word, and the underscore that was dropped in front of it can be put back (`parted`).
-/

set_option autoImplicit false

namespace ResolverContracts

open Letters

/-- A word of capitals, with digits behind them or none. -/
def IsCapitalWord (w : List Char) : Prop :=
  ∃ capitals digits, w = capitals ++ digits ∧ capitals ≠ [] ∧
    (∀ c ∈ capitals, c.isUpper = true) ∧ ∀ d ∈ digits, d.isDigit = true

/-- A word of digits. -/
def IsDigitWord (w : List Char) : Prop := w ≠ [] ∧ ∀ d ∈ w, d.isDigit = true

/-- Words in capitals with an underscore between each two. Only the first cannot be digits alone. -/
def ScreamingSnake (name : String) : Prop :=
  ∃ w ws, IsCapitalWord w ∧ (∀ v ∈ ws, IsCapitalWord v ∨ IsDigitWord v) ∧
    name.toList = ['_'].intercalate (w :: ws)

/-! ## Capitals and digits -/

section Characters

variable {c : Char}

theorem isAscii_of_isUpper_or_isDigit (h : c.isUpper = true ∨ c.isDigit = true) : isAscii c = true :=
  h.elim isAscii_of_isUpper isAscii_of_isDigit

theorem isLower_of_isUpper_or_isDigit (h : c.isUpper = true ∨ c.isDigit = true) :
    Letters.isLower c = false :=
  (forall_isAscii (by decide) (isAscii_of_isUpper_or_isDigit h) :
    c.isUpper = true ∨ c.isDigit = true → Letters.isLower c = false) h

theorem isDigit_of_isUpper (h : c.isUpper = true) : c.isDigit = false :=
  (forall_isAscii (by decide) (isAscii_of_isUpper h) : c.isUpper = true → c.isDigit = false) h

theorem toUpper_of_isUpper (h : c.isUpper = true) : c.toUpper = c :=
  (forall_isAscii (by decide) (isAscii_of_isUpper h) : c.isUpper = true → c.toUpper = c) h

/-- A capital begins no word behind a capital, as long as no small letter comes behind. -/
theorem beginsWord_of_isUpper {b : Char} (hb : b.isUpper = true) {behind : Option Char}
    (hbehind : ∀ x ∈ behind, Letters.isLower x = false) : beginsWord b c behind = false := by
  have hlower := isLower_of_isUpper_or_isDigit (.inl hb)
  have hdigit := isDigit_of_isUpper hb
  have hnone : behind.any Letters.isLower = false := by
    rw [Option.any_eq_false]
    exact hbehind
  rw [beginsWord, hlower, hdigit, hnone, Bool.and_false, Bool.or_false, Bool.or_false,
    Bool.and_false]

/-- A digit begins no word. -/
theorem beginsWord_of_isDigit (hc : c.isDigit = true) (b : Char) (behind : Option Char) :
    beginsWord b c behind = false := by
  have hupper : c.isDigit = true → Letters.isUpper c = false :=
    forall_isAscii (by decide) (isAscii_of_isDigit hc)
  rw [beginsWord, hupper hc, Bool.false_and]

end Characters

/-! ## Cutting a name in capitals -/

/-- The end of a name, or a place where a word ends. -/
def EndsWord (rest : List Char) : Prop := ∀ c ∈ rest.head?, c = '_'

theorem splitWords_of_endsWord {rest : List Char} (h : EndsWord rest) (before : Option Char) :
    splitWords before rest = ([], words rest) := by
  match rest with
  | [] => rfl
  | c :: cs =>
    obtain rfl : c = '_' := h c rfl
    rfl

/-- A letter or digit that begins no word goes on with the word in front. -/
theorem splitWords_cons {before : Option Char} {c : Char} {cs : List Char}
    (hc : c.isAlphanum = true) (hno : ∀ b ∈ before, beginsWord b c cs.head? = false) :
    splitWords before (c :: cs) =
      (c :: (splitWords (some c) cs).1, (splitWords (some c) cs).2) := by
  have halphanumeric : isAlphanumeric c = true := by
    rw [isAlphanumeric_of_isAscii (isAscii_of_isAlphanum hc), hc]
  have hany : (before.any fun b => beginsWord b c cs.head?) = false := by
    rw [Option.any_eq_false]
    exact hno
  rw [splitWords, if_pos halphanumeric]
  simp [hany]

theorem splitWords_digits {digits rest : List Char} (hdigits : ∀ d ∈ digits, d.isDigit = true)
    (hrest : EndsWord rest) (before : Option Char) :
    splitWords before (digits ++ rest) = (digits, words rest) := by
  induction digits generalizing before with
  | nil => exact splitWords_of_endsWord hrest before
  | cons d ds ih =>
    rw [List.forall_mem_cons] at hdigits
    rw [List.cons_append, splitWords_cons (isAlphanum_of_isDigit hdigits.1)
      fun b _ => beginsWord_of_isDigit hdigits.1 b _, ih hdigits.2]

/-- Capitals and the digits behind them stay together. The induction is on the capitals: in front of
each stands a capital or nothing, and behind it no small letter. -/
theorem splitWords_capitals {capitals digits rest : List Char}
    (hcapitals : ∀ c ∈ capitals, c.isUpper = true) (hdigits : ∀ d ∈ digits, d.isDigit = true)
    (hrest : EndsWord rest) {before : Option Char} (hbefore : ∀ b ∈ before, b.isUpper = true) :
    splitWords before (capitals ++ digits ++ rest) = (capitals ++ digits, words rest) := by
  induction capitals generalizing before with
  | nil => exact splitWords_digits hdigits hrest before
  | cons c cs ih =>
    rw [List.forall_mem_cons] at hcapitals
    have hbehind : ∀ x ∈ (cs ++ digits ++ rest).head?, Letters.isLower x = false := by
      intro x hx
      rw [List.head?_append, List.head?_append, Option.mem_def, Option.or_eq_some_iff,
        Option.or_eq_some_iff] at hx
      rcases hx with (hx | ⟨-, hx⟩) | ⟨-, hx⟩
      · exact isLower_of_isUpper_or_isDigit (.inl (hcapitals.2 x (List.mem_of_head? hx)))
      · exact isLower_of_isUpper_or_isDigit (.inr (hdigits x (List.mem_of_head? hx)))
      · rw [hrest x hx]
        decide
    -- Behind a capital, a capital begins a word only in front of a small letter; the run has none.
    have hno : ∀ b ∈ before, beginsWord b c (cs ++ digits ++ rest).head? = false :=
      fun b hb => beginsWord_of_isUpper (hbefore b hb) hbehind
    have hnext : splitWords (some c) (cs ++ digits ++ rest) = (cs ++ digits, words rest) := by
      refine ih hcapitals.2 fun b hb => ?_
      rw [← Option.some.inj hb]
      exact hcapitals.1
    rw [List.cons_append, List.cons_append, splitWords_cons (isAlphanum_of_isUpper hcapitals.1) hno,
      hnext]

/-- What stands between underscores: capitals, digits, or capitals and then digits. -/
def IsRun (w : List Char) : Prop :=
  w ≠ [] ∧ ∃ capitals digits, w = capitals ++ digits ∧
    (∀ c ∈ capitals, c.isUpper = true) ∧ ∀ d ∈ digits, d.isDigit = true

theorem IsCapitalWord.isRun {w : List Char} (h : IsCapitalWord w) : IsRun w := by
  obtain ⟨capitals, digits, rfl, hne, hcapitals, hdigits⟩ := h
  exact ⟨List.append_ne_nil_of_left_ne_nil hne digits, capitals, digits, rfl, hcapitals, hdigits⟩

theorem IsDigitWord.isRun {w : List Char} (h : IsDigitWord w) : IsRun w :=
  ⟨h.1, [], w, rfl, List.forall_mem_nil _, h.2⟩

/-- A run is one word, and what stands behind it is split on its own. -/
theorem IsRun.words_append {w rest : List Char} (h : IsRun w) (hrest : EndsWord rest) :
    words (w ++ rest) = w :: words rest := by
  obtain ⟨hne, capitals, digits, rfl, hcapitals, hdigits⟩ := h
  have hsplit : splitWords none (capitals ++ digits ++ rest) = (capitals ++ digits, words rest) :=
    splitWords_capitals hcapitals hdigits hrest nofun
  rw [words, hsplit]
  simp [consWord, hne]

/-- **Cut.** A name made of such words is cut into them. -/
theorem words_intercalate {ws : List (List Char)} (h : ∀ w ∈ ws, IsRun w) :
    words (['_'].intercalate ws) = ws := by
  induction ws with
  | nil => rfl
  | cons w ws ih =>
    rw [List.forall_mem_cons] at h
    cases ws with
    | nil =>
      rw [List.intercalate_singleton]
      have hwhole : words (w ++ []) = w :: words [] := h.1.words_append nofun
      rwa [List.append_nil] at hwhole
    | cons v vs =>
      have hrest : EndsWord ('_' :: ['_'].intercalate (v :: vs)) :=
        fun c hc => (Option.some.inj hc).symm
      rw [List.intercalate_cons_cons, List.append_assoc, List.singleton_append,
        h.1.words_append hrest]
      exact congrArg (w :: ·) (ih h.2)

/-! ## The way back -/

/-- A character of Pascal case as it was in capitals, with an underscore in front if it starts a
word. -/
def parted (c : Char) : List Char := if c.isUpper then ['_', c] else [c.toUpper]

theorem flatMap_parted_toLower {c : Char} (h : c.isUpper = true ∨ c.isDigit = true) :
    (toLower c).flatMap parted = [c] := by
  have hplain := isAscii_of_isUpper_or_isDigit h
  have hback : c.isUpper = true ∨ c.isDigit = true → parted c.toLower = [c] :=
    forall_isAscii (by decide) hplain
  rw [toLower_of_isAscii hplain, List.flatMap_singleton, hback h]

/-- Behind its first character a word comes back as it was. -/
theorem flatMap_parted_rest {cs : List Char} (h : ∀ c ∈ cs, c.isUpper = true ∨ c.isDigit = true) :
    (cs.flatMap toLower).flatMap parted = cs := by
  rw [List.flatMap_assoc]
  calc cs.flatMap (fun c => (toLower c).flatMap parted)
      = cs.flatMap fun c => [c] := List.flatMap_congr fun c hc => flatMap_parted_toLower (h c hc)
    _ = cs := List.flatMap_singleton' cs

/-- A word that begins with a capital is joined to others as it stands alone. -/
theorem IsCapitalWord.joined_eq {w : List Char} (h : IsCapitalWord w) :
    joined w = capitalized w := by
  obtain ⟨capitals, digits, rfl, hne, hcapitals, -⟩ := h
  cases capitals with
  | nil => exact absurd rfl hne
  | cons c cs =>
    have hdigit : c.isDigit = false := isDigit_of_isUpper (hcapitals c List.mem_cons_self)
    rw [List.cons_append, joined, if_neg (by simp [hdigit])]

/-- A word comes back with the underscore in front: there is none in Pascal case, but a capital. -/
theorem IsCapitalWord.flatMap_parted_joined {w : List Char} (h : IsCapitalWord w) :
    (joined w).flatMap parted = '_' :: w := by
  rw [h.joined_eq]
  obtain ⟨capitals, digits, rfl, hne, hcapitals, hdigits⟩ := h
  cases capitals with
  | nil => exact absurd rfl hne
  | cons c cs =>
    rw [List.forall_mem_cons] at hcapitals
    have hrest : ∀ x ∈ cs ++ digits, x.isUpper = true ∨ x.isDigit = true := by
      intro x hx
      rcases List.mem_append.mp hx with hx | hx
      · exact .inl (hcapitals.2 x hx)
      · exact .inr (hdigits x hx)
    -- The capital at the front stays one, so that is where the underscore is put back.
    rw [List.cons_append, capitalized, toUpper_of_isAscii (isAscii_of_isUpper hcapitals.1),
      toUpper_of_isUpper hcapitals.1, List.flatMap_append, flatMap_parted_rest hrest,
      List.flatMap_singleton, parted, if_pos hcapitals.1]
    rfl

/-- In front of digits the underscore is there in Pascal case, too. -/
theorem IsDigitWord.flatMap_parted_joined {w : List Char} (h : IsDigitWord w) :
    (joined w).flatMap parted = '_' :: w := by
  obtain ⟨hne, hdigits⟩ := h
  cases w with
  | nil => exact absurd rfl hne
  | cons d ds =>
    rw [List.forall_mem_cons] at hdigits
    have hself : d.isDigit = true → parted d = [d] :=
      forall_isAscii (by decide) (isAscii_of_isDigit hdigits.1)
    rw [joined, if_pos hdigits.1, List.flatMap_cons, List.flatMap_cons,
      flatMap_parted_rest fun x hx => .inr (hdigits.2 x hx), hself hdigits.1]
    rfl

theorem flatMap_cons_eq_intercalate (w : List Char) (ws : List (List Char)) :
    (w :: ws).flatMap ('_' :: ·) = '_' :: ['_'].intercalate (w :: ws) := by
  induction ws generalizing w with
  | nil => simp
  | cons v vs ih =>
    rw [List.flatMap_cons, ih v, List.intercalate_cons_cons]
    simp

/-- **The way back.** From a name in Pascal case that was in capitals, the name comes back. -/
theorem ScreamingSnake.flatMap_parted_pascalCase {name : String} (h : ScreamingSnake name) :
    (pascalCase name).toList.flatMap parted = '_' :: name.toList := by
  obtain ⟨w, ws, hw, hws, hname⟩ := h
  have hall : ∀ v ∈ w :: ws, IsCapitalWord v ∨ IsDigitWord v :=
    List.forall_mem_cons.mpr ⟨.inl hw, hws⟩
  have hrun : ∀ v ∈ w :: ws, IsRun v :=
    fun v hv => (hall v hv).elim IsCapitalWord.isRun IsDigitWord.isRun
  have hback : ∀ v ∈ w :: ws, (joined v).flatMap parted = '_' :: v := fun v hv =>
    (hall v hv).elim IsCapitalWord.flatMap_parted_joined IsDigitWord.flatMap_parted_joined
  have hwords : (pascalCase name).toList = (w :: ws).flatMap joined := by
    rw [toList_pascalCase, hname, words_intercalate hrun, List.head?_cons, Option.elim_some,
      List.tail_cons, List.flatMap_cons, hw.joined_eq]
  calc (pascalCase name).toList.flatMap parted
      = (w :: ws).flatMap fun v => (joined v).flatMap parted := by rw [hwords, List.flatMap_assoc]
    _ = (w :: ws).flatMap ('_' :: ·) := List.flatMap_congr hback
    _ = '_' :: name.toList := by rw [flatMap_cons_eq_intercalate, hname]

/-- Different names in capitals are different in Pascal case. -/
theorem ScreamingSnake.eq_of_pascalCase_eq {v w : String} (hv : ScreamingSnake v)
    (hw : ScreamingSnake w) (h : pascalCase v = pascalCase w) : v = w := by
  have hback : '_' :: v.toList = '_' :: w.toList := by
    rw [← hv.flatMap_parted_pascalCase, ← hw.flatMap_parted_pascalCase, h]
  exact String.toList_injective (List.cons.inj hback).2

end ResolverContracts
