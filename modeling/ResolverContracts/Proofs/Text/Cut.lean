import Mathlib.Data.List.DropRight
import ResolverContracts.Text.Cut
/-!
# Trimmed and split texts

A trimmed text has no white space at its ends, and trimming changes no such text (`trimmed_trim`,
`trim_of_trimmed`).

A split text is cut at the first occurrence of the separator. Where the first character of the
separator does not occur in front of it, that is the occurrence found (`splitOnce_append_of_not_mem`);
so a part that was cut off by one character can be put back and cut off again.
-/

set_option autoImplicit false

namespace ResolverContracts

/-! ## Trimming -/

/-- A text without white space at its ends. -/
structure Trimmed (cs : List Char) : Prop where
  first : ∀ c ∈ cs.head?, isWhiteSpace c = false
  last : ∀ c ∈ cs.getLast?, isWhiteSpace c = false

section Trim

variable {cs : List Char}

theorem trim_eq_rdropWhile (cs : List Char) :
    trim cs = (cs.dropWhile isWhiteSpace).rdropWhile isWhiteSpace :=
  rfl

/-- Trimming leaves no white space at the ends. -/
theorem trimmed_trim (cs : List Char) : Trimmed (trim cs) := by
  rw [trim_eq_rdropWhile]
  constructor
  · -- What is taken from the end leaves the front as it is, where there is something left.
    intro c hc
    have hprefix := List.rdropWhile_prefix isWhiteSpace (cs.dropWhile isWhiteSpace)
    have hhead : c ∈ (cs.dropWhile isWhiteSpace).head? := by
      obtain ⟨rest, hrest⟩ := hprefix
      rw [← hrest, List.head?_append, Option.mem_def.mp hc]
      rfl
    have hnot := List.head?_dropWhile_not isWhiteSpace cs
    rw [Option.mem_def.mp hhead] at hnot
    exact hnot
  · intro c hc
    obtain ⟨hne, rfl⟩ := List.mem_getLast?_eq_getLast hc
    simpa using List.rdropWhile_last_not isWhiteSpace _ hne

/-- A text without white space at its ends stays as it is. -/
theorem trim_of_trimmed (h : Trimmed cs) : trim cs = cs := by
  have hfront : cs.dropWhile isWhiteSpace = cs := by
    cases cs with
    | nil => rfl
    | cons c cs => exact List.dropWhile_cons_of_neg (by simp [h.first c rfl])
  rw [trim_eq_rdropWhile, hfront, List.rdropWhile_eq_self_iff]
  intro hne
  simp [h.last _ (List.getLast?_eq_some_getLast hne)]

/-- Of two texts that stand together, each has one of the ends. -/
theorem trimmed_append {front behind : List Char} (hfront : front ≠ []) (hbehind : behind ≠ [])
    (hfirst : ∀ c ∈ front.head?, isWhiteSpace c = false)
    (hlast : ∀ c ∈ behind.getLast?, isWhiteSpace c = false) : Trimmed (front ++ behind) := by
  constructor
  · rwa [List.head?_append_of_ne_nil _ hfront]
  · rwa [List.getLast?_append_of_ne_nil _ hbehind]

end Trim

/-! ## Splitting -/

section Split

variable {x : Char} {xs cs before behind : List Char}

/-- The separator is found where it stands, if it cannot begin earlier. -/
theorem splitOnce_append_of_not_mem (h : x ∉ before) (behind : List Char) :
    splitOnce (x :: xs) (before ++ (x :: xs ++ behind)) = some (before, behind) := by
  induction before with
  | nil =>
    have hfound : (x :: xs).isPrefixOf (x :: (xs ++ behind)) = true :=
      List.isPrefixOf_iff_prefix.mpr (List.prefix_append _ _)
    rw [List.nil_append, List.cons_append, splitOnce, if_pos hfound, ← List.cons_append,
      List.drop_left]
  | cons c cs ih =>
    rw [List.mem_cons, not_or] at h
    have hnot : ¬ (x :: xs).isPrefixOf (c :: (cs ++ (x :: xs ++ behind))) = true := by
      rw [List.isPrefixOf_iff_prefix, List.cons_prefix_cons]
      exact fun hxc => h.1 hxc.1
    rw [List.cons_append, splitOnce, if_neg hnot, ih h.2]
    rfl

/-- A separator whose first character does not occur is not found. -/
theorem splitOnce_of_not_mem (h : x ∉ cs) : splitOnce (x :: xs) cs = none := by
  induction cs with
  | nil => rfl
  | cons c cs ih =>
    rw [List.mem_cons, not_or] at h
    have hnot : ¬ (x :: xs).isPrefixOf (c :: cs) = true := by
      rw [List.isPrefixOf_iff_prefix, List.cons_prefix_cons]
      exact fun hxc => h.1 hxc.1
    rw [splitOnce, if_neg hnot, ih h.2]
    rfl

/-- A separator of one character is found at its first occurrence. -/
theorem not_mem_of_splitOnce (h : splitOnce [x] cs = some (before, behind)) : x ∉ before := by
  induction cs generalizing before behind with
  | nil => nomatch h
  | cons c cs ih =>
    rw [splitOnce] at h
    by_cases hfound : [x].isPrefixOf (c :: cs) = true
    · rw [if_pos hfound, Option.some_inj, Prod.mk.injEq] at h
      obtain ⟨rfl, -⟩ := h
      exact List.not_mem_nil
    · rw [if_neg hfound, Option.map_eq_some_iff] at h
      obtain ⟨⟨front, rest⟩, hrest, heq⟩ := h
      obtain ⟨rfl, -⟩ := Prod.mk.inj heq
      have hne : x ≠ c := by
        rintro rfl
        exact hfound (List.isPrefixOf_iff_prefix.mpr ⟨cs, rfl⟩)
      rw [List.mem_cons, not_or]
      exact ⟨hne, ih hrest⟩

/-- A separator of one character that is not found does not occur. -/
theorem not_mem_of_splitOnce_eq_none (h : splitOnce [x] cs = none) : x ∉ cs := by
  intro hx
  obtain ⟨front, rest, rfl, hfront⟩ := List.eq_append_cons_of_mem hx
  have hfound : splitOnce [x] (front ++ ([x] ++ rest)) = some (front, rest) :=
    splitOnce_append_of_not_mem hfront rest
  exact Option.some_ne_none _ (hfound.symm.trans h)

end Split

end ResolverContracts
