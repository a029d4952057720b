import Mathlib.Data.List.Nodup
import ResolverContracts.Schema.Merge
/-!
# Names that come again

What the marks of `Schema/Merge.lean` say of a list in which names repeat. An item is marked when its
name was taken before the list or belongs to an earlier item, so of each name the first item is added
(`exists_first_of_mem_untaken`, `mem_untaken_of_first`) and every other one is a fault
(`repeated_mem_takenFaults`).

A type is written in several pieces, and each piece is marked with the names added so far as the taken
ones. Nothing depends on where the pieces end: marking all of them in one row gives the same marks
(`markTaken_append`).
-/

set_option autoImplicit false

namespace ResolverContracts

section Marks

variable {α : Type} {key : α → Name} {taken : List String} {x : α} {xs ys before after : List α}

/-- Which names are taken matters, and neither their order nor their number. -/
theorem markTaken_congr {taken' : List String} (h : ∀ name, name ∈ taken ↔ name ∈ taken') :
    markTaken key taken xs = markTaken key taken' xs := by
  induction xs generalizing taken taken' with
  | nil => rfl
  | cons x xs ih =>
    have hmark : taken.contains (key x).text = taken'.contains (key x).text := by
      rw [Bool.eq_iff_iff, List.contains_iff_mem, List.contains_iff_mem, h]
    have hrest : markTaken key ((key x).text :: taken) xs =
        markTaken key ((key x).text :: taken') xs :=
      ih fun name => by rw [List.mem_cons, List.mem_cons, h]
    rw [markTaken, markTaken, hmark, hrest]

theorem untaken_cons :
    untaken key taken (x :: xs) =
      if (key x).text ∈ taken then untaken key ((key x).text :: taken) xs
      else x :: untaken key ((key x).text :: taken) xs := by
  rw [untaken, markTaken, List.filterMap_cons]
  by_cases h : (key x).text ∈ taken
  · rw [if_pos h, List.contains_iff_mem.mpr h]
    rfl
  · rw [if_neg h, Bool.eq_false_iff.mpr (mt List.contains_iff_mem.mp h)]
    rfl

/-- The names taken after a list are those taken before it and those of all its items, added or not. -/
theorem mem_names_untaken_iff {name : String} :
    name ∈ taken ++ (untaken key taken xs).map (fun x => (key x).text) ↔
      name ∈ taken ∨ ∃ x ∈ xs, (key x).text = name := by
  rw [List.mem_append]
  induction xs generalizing taken with
  | nil => simp [untaken, markTaken]
  | cons x xs ih =>
    have hrest : _ ∨ _ ↔ _ := @ih ((key x).text :: taken)
    rw [List.mem_cons] at hrest
    rw [List.exists_mem_cons_iff, untaken_cons]
    by_cases h : (key x).text ∈ taken
    · rw [if_pos h]
      grind
    · rw [if_neg h, List.map_cons, List.mem_cons]
      grind

/-- **Marks of one row.** The items behind others are marked with the names that those add. -/
theorem markTaken_append :
    markTaken key taken (xs ++ ys) = markTaken key taken xs ++
      markTaken key (taken ++ (untaken key taken xs).map fun x => (key x).text) ys := by
  induction xs generalizing taken with
  | nil => simp [untaken, markTaken]
  | cons x xs ih =>
    rw [List.cons_append, markTaken, ih, markTaken, List.cons_append]
    refine congrArg (fun marks => (x, _) :: (_ ++ marks)) (markTaken_congr fun name => ?_)
    rw [← List.cons_append, mem_names_untaken_iff, mem_names_untaken_iff, List.mem_cons,
      List.exists_mem_cons_iff]
    grind

theorem untaken_append :
    untaken key taken (xs ++ ys) = untaken key taken xs ++
      untaken key (taken ++ (untaken key taken xs).map fun x => (key x).text) ys := by
  rw [untaken, markTaken_append, List.filterMap_append]
  rfl

theorem takenFaults_append {sort : MemberSort} {owner : String} :
    takenFaults sort owner key taken (xs ++ ys) = takenFaults sort owner key taken xs ++
      takenFaults sort owner key (taken ++ (untaken key taken xs).map fun x => (key x).text) ys := by
  rw [takenFaults, markTaken_append, List.filterMap_append]
  rfl

/-- No name is taken twice. -/
theorem nodup_names_untaken (h : taken.Nodup) :
    (taken ++ (untaken key taken xs).map fun x => (key x).text).Nodup := by
  induction xs generalizing taken with
  | nil => simpa [untaken, markTaken] using h
  | cons x xs ih =>
    rw [untaken_cons]
    by_cases hx : (key x).text ∈ taken
    · -- The name is among the taken ones anyway, so the others are added as if it were not there.
      have hsame : markTaken key ((key x).text :: taken) xs = markTaken key taken xs :=
        markTaken_congr fun name => by
          rw [List.mem_cons]
          exact or_iff_right_of_imp fun he => he ▸ hx
      rw [if_pos hx, untaken, hsame]
      exact ih h
    · rw [if_neg hx, List.map_cons]
      exact List.perm_middle.nodup_iff.mpr (ih (List.nodup_cons.mpr ⟨hx, h⟩))

/-- Items are added as the list of their names is. -/
theorem untaken_id_map : untaken id taken (xs.map key) = (untaken key taken xs).map key := by
  induction xs generalizing taken with
  | nil => rfl
  | cons x xs ih =>
    rw [List.map_cons, untaken_cons, untaken_cons, id, ih]
    split <;> rfl

/-! ## The first item of a name and the others -/

/-- The first item of a name that is not taken is added. -/
theorem mem_untaken_of_first (hfree : (key x).text ∉ taken)
    (hfirst : ∀ w ∈ before, (key w).text ≠ (key x).text) :
    x ∈ untaken key taken (before ++ x :: after) := by
  have hnew : (key x).text ∉ taken ++ (untaken key taken before).map fun w => (key w).text := by
    rw [mem_names_untaken_iff]
    rintro (h | ⟨w, hw, he⟩)
    · exact hfree h
    · exact hfirst w hw he
  rw [untaken_append, untaken_cons, if_neg hnew]
  exact List.mem_append_right _ List.mem_cons_self

/-- What is added was the first item of a name that was not taken. -/
theorem exists_first_of_mem_untaken (h : x ∈ untaken key taken xs) :
    (key x).text ∉ taken ∧ ∃ before after, xs = before ++ x :: after ∧
      ∀ w ∈ before, (key w).text ≠ (key x).text := by
  induction xs generalizing taken with
  | nil => exact absurd h List.not_mem_nil
  | cons y xs ih =>
    -- Everything behind the first item has another name than it.
    have hbehind (h : x ∈ untaken key ((key y).text :: taken) xs) : (key x).text ∉ taken ∧
        ∃ before after, y :: xs = before ++ x :: after ∧
          ∀ w ∈ before, (key w).text ≠ (key x).text := by
      obtain ⟨hfree, before, after, rfl, hfirst⟩ := ih h
      obtain ⟨hne, hfree⟩ := List.ne_and_not_mem_of_not_mem_cons hfree
      exact ⟨hfree, y :: before, after, rfl, List.forall_mem_cons.mpr ⟨hne.symm, hfirst⟩⟩
    rw [untaken_cons] at h
    by_cases hy : (key y).text ∈ taken
    · rw [if_pos hy] at h
      exact hbehind h
    · rw [if_neg hy] at h
      rcases List.mem_cons.mp h with rfl | h
      · exact ⟨hy, [], xs, rfl, List.forall_mem_nil _⟩
      · exact hbehind h

/-- An item whose name came before is a fault. -/
theorem repeated_mem_takenFaults {sort : MemberSort} {owner : String}
    (h : ∃ w ∈ before, (key w).text = (key x).text) :
    .repeated sort owner (key x) ∈ takenFaults sort owner key taken (before ++ x :: after) := by
  have hmark : (taken ++ (untaken key taken before).map fun w => (key w).text).contains
      (key x).text = true := by
    rw [List.contains_iff_mem, mem_names_untaken_iff]
    exact .inr h
  rw [takenFaults_append, takenFaults, takenFaults, markTaken, hmark]
  exact List.mem_append_right _ List.mem_cons_self

end Marks

end ResolverContracts
