import Mathlib.Data.Finset.Card
import ResolverContracts.Text.Interner
/-!
# Handles and names

A store of names has two tables, and a call that meets a new name writes to both. What relies on names
relies on the tables saying the same (`Interner.Inverse`): a number is found for a name exactly if the
name is at that place. The empty store has this property and a call keeps it (`Inverse.intern`), so it
holds after every run of calls.

Names are only ever added behind the others, so a number leads to the same name for good
(`names_prefix_internAll`). The numbers that answer the calls of a run are the places of the list at its
end, no more and no fewer (`Inverse.exists_number_of_mem_answers`, `mem_answers_of_getElem?`). As long as
a handle holds them all, names and handles therefore correspond one to one (`oneToOne_of_card_lt`).
-/

set_option autoImplicit false

namespace ResolverContracts

namespace Interner

variable {i : Interner}

/-! ## The two tables -/

/-- The two tables say the same: a number is found for a name exactly if the name is at that place. -/
def Inverse (i : Interner) : Prop :=
  ∀ name number, Entries.get? name i.numbers = some number ↔ i.names[number]? = some name

/-- What a call can do: a name that has a number keeps it, and any other is added behind the names. -/
theorem intern_cases (i : Interner) (name : String) :
    (∃ number, Entries.get? name i.numbers = some number ∧ i.intern name = (number, i)) ∨
      (Entries.get? name i.numbers = none ∧ i.intern name =
        (i.names.length, ⟨i.names ++ [name], Entries.put name i.names.length i.numbers⟩)) := by
  unfold intern
  cases Entries.get? name i.numbers with
  | some number => exact .inl ⟨number, rfl, rfl⟩
  | none => exact .inr ⟨rfl, rfl⟩

/-- What stands where, after a name was added behind others. -/
theorem getElem?_concat_eq_some_iff {names : List String} {last name : String} {n : Nat} :
    (names ++ [last])[n]? = some name ↔
      names[n]? = some name ∨ n = names.length ∧ last = name := by
  grind

theorem inverse_empty : empty.Inverse := by
  intro name number
  simp [empty, Entries.get?]

/-- A name without a number is not among the names. -/
theorem Inverse.not_mem_names (h : i.Inverse) {name : String}
    (hnew : Entries.get? name i.numbers = none) : name ∉ i.names := by
  intro hmem
  obtain ⟨n, hn⟩ := List.getElem?_of_mem hmem
  exact Option.some_ne_none n (((h name n).mpr hn).symm.trans hnew)

/-- A call writes the same to both tables. -/
theorem Inverse.intern (h : i.Inverse) (name : String) : (i.intern name).2.Inverse := by
  obtain ⟨number, -, hcall⟩ | ⟨hnew, hcall⟩ := i.intern_cases name
  · rwa [hcall]
  · rw [hcall]
    intro other n
    rw [getElem?_concat_eq_some_iff]
    by_cases hother : name = other
    · subst hother
      have hbefore : i.names[n]? ≠ some name := fun hn =>
        h.not_mem_names hnew (List.mem_of_getElem? hn)
      rw [Entries.get?_put_self, Option.some_inj, or_iff_right hbefore]
      exact ⟨fun hn => ⟨hn.symm, rfl⟩, fun hn => hn.1.symm⟩
    · rw [Entries.get?_put_of_ne _ _ hother, h other n]
      exact ⟨.inl, fun hn => hn.resolve_right fun hlast => hother hlast.2⟩

theorem Inverse.internAll (h : i.Inverse) (names : List String) : (i.internAll names).Inverse := by
  induction names generalizing i with
  | nil => exact h
  | cons name names ih => exact ih (h.intern name)

/-- The tables say the same in every store that comes from calls. -/
theorem inverse_ofNames (names : List String) : (ofNames names).Inverse :=
  (inverse_empty.internAll builtinScalars).internAll names

/-- A name that has a number is answered with it, and the store stays as it is. -/
theorem Inverse.intern_of_getElem? (h : i.Inverse) {name : String} {n : Nat}
    (hn : i.names[n]? = some name) : i.intern name = (n, i) := by
  rw [Interner.intern, (h name n).mpr hn]

/-- No two places have the same name. -/
theorem Inverse.getElem?_inj (h : i.Inverse) {name : String} {m n : Nat}
    (hm : i.names[m]? = some name) (hn : i.names[n]? = some name) : m = n :=
  Option.some_inj.mp (((h name m).mpr hm).symm.trans ((h name n).mpr hn))

theorem Inverse.nodup_names (h : i.Inverse) : i.names.Nodup := by
  rw [List.nodup_iff_getElem?_ne_getElem?]
  intro m n hlt hn hsame
  have hname : i.names[n]? = some i.names[n] := List.getElem?_eq_getElem hn
  exact Nat.ne_of_lt hlt (h.getElem?_inj (hsame.trans hname) hname)

/-! ## Numbers are for good -/

theorem names_prefix_intern (i : Interner) (name : String) : i.names <+: (i.intern name).2.names := by
  obtain ⟨number, -, hcall⟩ | ⟨-, hcall⟩ := i.intern_cases name
  · rw [hcall]
  · rw [hcall]
    exact List.prefix_append ..

/-- A store keeps the names that it has, at their places. -/
theorem names_prefix_internAll (i : Interner) (names : List String) :
    i.names <+: (i.internAll names).names := by
  induction names generalizing i with
  | nil => exact List.prefix_refl _
  | cons name names ih => exact (i.names_prefix_intern name).trans (ih _)

/-- What is at a place stays there, whatever is interned. -/
theorem getElem?_internAll {names : List String} {name : String} {n : Nat}
    (hn : i.names[n]? = some name) : (i.internAll names).names[n]? = some name := by
  obtain ⟨later, hlater⟩ := i.names_prefix_internAll names
  obtain ⟨hlt, -⟩ := List.getElem?_eq_some_iff.mp hn
  rw [← hlater, List.getElem?_append_left hlt, hn]

/-- The number that answers a call is the place of the name. -/
theorem Inverse.getElem?_intern (h : i.Inverse) (name : String) :
    (i.intern name).2.names[(i.intern name).1]? = some name := by
  obtain ⟨number, hnumber, hcall⟩ | ⟨-, hcall⟩ := i.intern_cases name
  · rw [hcall]
    exact (h name number).mp hnumber
  · rw [hcall]
    exact List.getElem?_concat_length

theorem internAll_cons (i : Interner) (name : String) (names : List String) :
    i.internAll (name :: names) = (i.intern name).2.internAll names := rfl

theorem internAll_append (i : Interner) (before behind : List String) :
    i.internAll (before ++ behind) = (i.internAll before).internAll behind := List.foldl_append

/-- The number that a name gets when it is stored leads back to it, whatever is stored behind. -/
theorem get_intern (before behind : List String) (name : String) :
    (ofNames (before ++ name :: behind)).get ((ofNames before).intern name).1 = name := by
  let i := ofNames before
  have hstored : (i.intern name).2.names[(i.intern name).1]? = some name :=
    (inverse_ofNames before).getElem?_intern name
  have hlater : ((i.intern name).2.internAll behind).names[(i.intern name).1]? = some name :=
    getElem?_internAll hstored
  rw [get, List.getD_eq_getElem?_getD, ofNames, internAll_append]
  exact congrArg (·.getD "") hlater

/-! ## Known names -/

theorem Inverse.mem_names_intern_iff (h : i.Inverse) {name known : String} :
    known ∈ (i.intern name).2.names ↔ known ∈ i.names ∨ known = name := by
  obtain ⟨number, hnumber, hcall⟩ | ⟨-, hcall⟩ := i.intern_cases name
  · have hmem : name ∈ i.names := List.mem_of_getElem? ((h name number).mp hnumber)
    rw [hcall]
    exact (or_iff_left_of_imp fun hname => hname ▸ hmem).symm
  · rw [hcall, List.mem_append, List.mem_singleton]

/-- After a run of calls, the names known are those from before and those of the calls. -/
theorem Inverse.mem_names_internAll_iff (h : i.Inverse) {names : List String} {known : String} :
    known ∈ (i.internAll names).names ↔ known ∈ i.names ∨ known ∈ names := by
  induction names generalizing i with
  | nil => exact (or_iff_left List.not_mem_nil).symm
  | cons name names ih =>
    rw [List.mem_cons, ← or_assoc, ← h.mem_names_intern_iff]
    exact ih (h.intern name)

/-- A store that was empty knows as many names as there are different ones in the calls. -/
theorem size_internAll_empty (names : List String) :
    (empty.internAll names).size = names.toFinset.card := by
  have hall : (empty.internAll names).names.toFinset = names.toFinset := by
    ext known
    rw [List.mem_toFinset, List.mem_toFinset, inverse_empty.mem_names_internAll_iff]
    exact or_iff_right List.not_mem_nil
  rw [← hall, List.toFinset_card_of_nodup (inverse_empty.internAll names).nodup_names, size]

/-! ## Runs of calls -/

/-- The calls that intern names from the left, each with the handle that answers it. -/
def answers (i : Interner) : List String → List (String × UInt32)
  | [] => []
  | name :: names => (name, (i.issue name).1) :: (i.issue name).2.answers names

theorem map_fst_answers (i : Interner) (names : List String) :
    (i.answers names).map (·.1) = names := by
  induction names generalizing i with
  | nil => rfl
  | cons name names ih => exact congrArg (name :: ·) (ih _)

theorem answers_append (i : Interner) (before later : List String) :
    i.answers (before ++ later) = i.answers before ++ (i.internAll before).answers later := by
  induction before generalizing i with
  | nil => rfl
  | cons name before ih => exact congrArg ((name, (i.issue name).1) :: ·) (ih _)

/-- The handle that answers a call is the number that the name has from then on. -/
theorem Inverse.exists_number_of_mem_answers (h : i.Inverse) {names : List String}
    {p : String × UInt32} (hp : p ∈ i.answers names) :
    ∃ n, p.2 = .ofNatClamp n ∧ (i.internAll names).names[n]? = some p.1 := by
  induction names generalizing i with
  | nil => exact absurd hp List.not_mem_nil
  | cons name names ih =>
    rcases List.mem_cons.mp hp with rfl | hp
    · rw [internAll_cons]
      exact ⟨(i.intern name).1, rfl, getElem?_internAll (h.getElem?_intern name)⟩
    · exact ih (h.intern name) hp

/-- A number that a name has at the end of a run was there before or is the answer to a call. -/
theorem mem_answers_of_getElem? {names : List String} {name : String} {n : Nat}
    (hn : (i.internAll names).names[n]? = some name) :
    i.names[n]? = some name ∨ (name, .ofNatClamp n) ∈ i.answers names := by
  induction names generalizing i with
  | nil => exact .inl hn
  | cons first names ih =>
    rw [internAll_cons] at hn
    obtain hbefore | hmem := ih hn
    · -- The name was known behind the first call: from before, or because that call added it.
      obtain ⟨number, -, hcall⟩ | ⟨-, hcall⟩ := i.intern_cases first
      · rw [hcall] at hbefore
        exact .inl hbefore
      · rw [hcall, getElem?_concat_eq_some_iff] at hbefore
        obtain hbefore | ⟨rfl, rfl⟩ := hbefore
        · exact .inl hbefore
        · rw [answers, issue, hcall]
          exact .inr List.mem_cons_self
    · exact .inr (List.mem_cons_of_mem _ hmem)

/-! ## One to one -/

/-- All calls on a store since it was empty, with their handles: those that make it know the built-in
scalars, and those for the given names. -/
def history (names : List String) : List (String × UInt32) := empty.answers (builtinScalars ++ names)

theorem history_append (before later : List String) :
    history (before ++ later) = history before ++ (ofNames before).answers later := by
  rw [history, ← List.append_assoc, answers_append, internAll_append]
  rfl

theorem ofNames_eq (names : List String) : ofNames names = empty.internAll (builtinScalars ++ names) :=
  (empty.internAll_append builtinScalars names).symm

theorem size_ofNames (names : List String) :
    (ofNames names).size = (builtinScalars ++ names).toFinset.card := by
  rw [ofNames_eq, size_internAll_empty]

/-- What the handles of a run of calls can be relied on for. -/
structure OneToOne (names : List String) : Prop where
  /-- Every call is answered. -/
  answered : (history names).map (·.1) = builtinScalars ++ names
  /-- Two calls are answered with the same handle exactly if they are for the same name. -/
  same_iff : ∀ p ∈ history names, ∀ q ∈ history names, p.2 = q.2 ↔ p.1 = q.1
  /-- Later calls change nothing of what was answered: the handle leads to the name, and the name is
  answered with the handle and nothing else happens. -/
  kept : ∀ before later, names = before ++ later → history before <+: history names ∧
    ∀ p ∈ history before, (ofNames names).resolve p.2 = p.1 ∧
      (ofNames names).issue p.1 = (p.2, ofNames names)
  /-- The built-in scalars have the first handles. -/
  scalars : ∀ k name, builtinScalars[k]? = some name →
    (ofNames names).issue name = (.ofNat k, ofNames names) ∧
      (ofNames names).resolve (.ofNat k) = name
  /-- As many names are known as there are different ones in the calls. -/
  size : (ofNames names).size = (builtinScalars ++ names).toFinset.card
  /-- Behind a handle that was the answer to no call is the empty name. -/
  unissued : ∀ handle, (∀ p ∈ history names, p.2 ≠ handle) → (ofNames names).resolve handle = ""

section Handles

variable {names : List String}

/-- The handle of a call holds the number that the name has at the end of the run. -/
theorem exists_number_of_mem_history {p : String × UInt32} (hp : p ∈ history names) :
    ∃ n, p.2 = .ofNatClamp n ∧ (ofNames names).names[n]? = some p.1 := by
  rw [ofNames_eq]
  exact inverse_empty.exists_number_of_mem_answers hp

/-- Every number that a name has at the end of a run was the answer to a call. -/
theorem mem_history_of_getElem? {name : String} {n : Nat}
    (hn : (ofNames names).names[n]? = some name) : (name, .ofNatClamp n) ∈ history names := by
  rw [ofNames_eq] at hn
  exact (mem_answers_of_getElem? hn).resolve_left (List.not_mem_nil ∘ List.mem_of_getElem?)

/-- As long as every number fits into a handle, the handle of a name is its place. -/
theorem getElem?_toNat_of_mem_history (hfew : (ofNames names).size < UInt32.size)
    {p : String × UInt32} (hp : p ∈ history names) :
    (ofNames names).names[p.2.toNat]? = some p.1 := by
  obtain ⟨n, hhandle, hn⟩ := exists_number_of_mem_history hp
  obtain ⟨hlt, -⟩ := List.getElem?_eq_some_iff.mp hn
  rw [hhandle, UInt32.toNat_ofNatClamp_of_lt (hlt.trans hfew), hn]

theorem resolve_of_getElem? {name : String} {handle : UInt32}
    (hn : i.names[handle.toNat]? = some name) : i.resolve handle = name := by
  rw [resolve, get, List.getD_eq_getElem?_getD, hn, Option.getD_some]

theorem Inverse.issue_of_getElem? (h : i.Inverse) {name : String} {handle : UInt32}
    (hn : i.names[handle.toNat]? = some name) : i.issue name = (handle, i) := by
  rw [issue, h.intern_of_getElem? hn]
  exact congrArg (·, i) (UInt32.ofNatClamp_toNat handle)

/-- The built-in scalars are the first names of every store. -/
theorem getElem?_ofNames_of_scalar {k : Nat} {name : String} (hk : builtinScalars[k]? = some name) :
    (ofNames names).names[k]? = some name := by
  have hscalars : initial.names = builtinScalars := by decide
  exact getElem?_internAll (hscalars ▸ hk)

/-- **Names and handles correspond one to one**, whatever names are interned and in which order, as long
as there are fewer different names than the 2 ^ 32 handles. -/
theorem oneToOne_of_card_lt (names : List String)
    (hfew : (builtinScalars ++ names).toFinset.card < UInt32.size) : OneToOne names := by
  rw [← size_ofNames] at hfew
  have htables := inverse_ofNames names
  -- Every handle of a call is the place of its name, so all is said of the list and its places.
  refine ⟨map_fst_answers .., ?same_iff, ?kept, ?scalars, size_ofNames names, ?unissued⟩
  case same_iff =>
    intro p hp q hq
    have hpn := getElem?_toNat_of_mem_history hfew hp
    have hqn := getElem?_toNat_of_mem_history hfew hq
    constructor
    · intro hsame
      rw [hsame, hqn] at hpn
      exact (Option.some_inj.mp hpn).symm
    · intro hsame
      rw [hsame] at hpn
      exact UInt32.toNat_inj.mp (htables.getElem?_inj hpn hqn)
  case kept =>
    rintro before later rfl
    have hfront : history before <+: history (before ++ later) :=
      ⟨_, (history_append before later).symm⟩
    refine ⟨hfront, fun p hp => ?_⟩
    have hn := getElem?_toNat_of_mem_history hfew (hfront.subset hp)
    exact ⟨resolve_of_getElem? hn, htables.issue_of_getElem? hn⟩
  case scalars =>
    intro k name hk
    have hn : (ofNames names).names[k]? = some name := getElem?_ofNames_of_scalar hk
    obtain ⟨hlt, -⟩ := List.getElem?_eq_some_iff.mp hn
    rw [← UInt32.toNat_ofNat_of_lt' (hlt.trans hfew)] at hn
    exact ⟨htables.issue_of_getElem? hn, resolve_of_getElem? hn⟩
  case unissued =>
    intro handle hnone
    cases hn : (ofNames names).names[handle.toNat]? with
    | none => rw [resolve, get, List.getD_eq_getElem?_getD, hn, Option.getD_none]
    | some name =>
      have hmem := mem_history_of_getElem? hn
      exact absurd (UInt32.ofNatClamp_toNat handle) (hnone _ hmem)

/-- A scalar among the calls, a name that comes again, and the empty name. -/
theorem oneToOne_of_card_lt_author :
    (builtinScalars ++ ["Author", "Int", "", "Author"]).toFinset.card < UInt32.size ∧
      OneToOne ["Author", "Int", "", "Author"] := by
  have hfew : (builtinScalars ++ ["Author", "Int", "", "Author"]).toFinset.card < UInt32.size :=
    (List.toFinset_card_le _).trans_lt (by decide)
  exact ⟨hfew, oneToOne_of_card_lt _ hfew⟩

example : initial.answers ["Author", "Int", "", "Author"] =
    [("Author", 5), ("Int", 0), ("", 6), ("Author", 5)] := by decide

end Handles

end Interner

end ResolverContracts
