import Mathlib.Data.List.Basic
import ResolverContracts.Schema.Merge
/-!
# Free names

When a list of written members brings no fault to light. Everything `Schema/Merge.lean` computes is a
reading of one marked list, so there is one fact to prove about marks (`forall_markTaken_iff`): none
of them is set, and every item satisfies a condition of its own, exactly when every item satisfies it
and the names are fresh. The three lemmas about findings are that fact at three conditions, and what
is added or referred to is then the whole list, with nothing left out.

Freshness is stated against the names that are there already. `nodup_append_iff_fresh` is what turns
a row of such steps into one statement about all names of a type: they are pairwise distinct.
-/

set_option autoImplicit false

namespace ResolverContracts

/-! ## Fresh names -/

/-- The names of the items are pairwise distinct, and none of them is in `taken`. -/
def Fresh {α : Type} (key : α → Name) (taken : List String) (xs : List α) : Prop :=
  (xs.map fun x => (key x).text).Nodup ∧ ∀ x ∈ xs, (key x).text ∉ taken

section Marks

variable {α : Type} {key : α → Name} {taken : List String} {x : α} {xs : List α}

/-- Freshness from the left: the first name is not taken, and the others are fresh with that name
taken as well. This is the order in which `markTaken` goes on. -/
theorem fresh_cons_iff :
    Fresh key taken (x :: xs) ↔
      (key x).text ∉ taken ∧ Fresh key ((key x).text :: taken) xs := by
  unfold Fresh
  rw [List.map_cons, List.nodup_cons, List.forall_mem_cons]
  constructor
  · rintro ⟨⟨hx, hnd⟩, hfree, hrest⟩
    refine ⟨hfree, hnd, ?_⟩
    intro y hy hmem
    rcases List.mem_cons.mp hmem with h | h
    · exact hx (List.mem_map.mpr ⟨y, hy, h⟩)
    · exact hrest y hy h
  · rintro ⟨hfree, hnd, hrest⟩
    refine ⟨⟨?_, hnd⟩, hfree, fun y hy h => hrest y hy (List.mem_cons_of_mem _ h)⟩
    intro hx
    obtain ⟨y, hy, h⟩ := List.mem_map.mp hx
    exact hrest y hy (by rw [h]; exact List.mem_cons_self)

/-- Distinct names stay distinct when fresh ones are put behind them, and only then. -/
theorem nodup_append_iff_fresh :
    (taken ++ xs.map fun x => (key x).text).Nodup ↔ taken.Nodup ∧ Fresh key taken xs := by
  rw [List.nodup_append, Fresh]
  constructor
  · rintro ⟨ht, hx, hne⟩
    refine ⟨ht, hx, ?_⟩
    intro x hmem hin
    exact hne _ hin _ (List.mem_map.mpr ⟨x, hmem, rfl⟩) rfl
  · rintro ⟨ht, hx, hfree⟩
    refine ⟨ht, hx, ?_⟩
    intro a ha b hb hab
    obtain ⟨x, hmem, rfl⟩ := List.mem_map.mp hb
    exact hfree x hmem (hab ▸ ha)

/-- Among no names at all, being fresh is being distinct. -/
theorem fresh_nil_iff : Fresh key [] xs ↔ (xs.map fun x => (key x).text).Nodup := by
  simp [Fresh]

/-- Items are as fresh as the list of their names. -/
theorem fresh_map_iff : Fresh id taken (xs.map key) ↔ Fresh key taken xs := by
  rw [Fresh, Fresh, List.map_map, List.forall_mem_map]
  rfl

/-- **What marks say.** A condition on the items and on the mark of each being unset is the condition
on the items together with their freshness. -/
theorem forall_markTaken_iff (P : α → Prop) (taken : List String) (xs : List α) :
    (∀ m ∈ markTaken key taken xs, P m.1 ∧ m.2 = false) ↔
      (∀ x ∈ xs, P x) ∧ Fresh key taken xs := by
  induction xs generalizing taken with
  | nil => simp [markTaken, Fresh]
  | cons x xs ih =>
    rw [markTaken, List.forall_mem_cons, List.forall_mem_cons, ih, fresh_cons_iff]
    -- The mark of the first item is set by `taken`; those of the others also by the first item.
    have hmark : taken.contains (key x).text = false ↔ (key x).text ∉ taken := by simp
    rw [hmark]
    tauto

/-- Nothing is marked among fresh items. -/
theorem markTaken_of_fresh (h : Fresh key taken xs) :
    markTaken key taken xs = xs.map (·, false) := by
  induction xs generalizing taken with
  | nil => rfl
  | cons x xs ih =>
    obtain ⟨hx, hxs⟩ := fresh_cons_iff.mp h
    have hmark : taken.contains (key x).text = false := by simpa using hx
    rw [markTaken, hmark, ih hxs, List.map_cons]

/-- All fresh items are added. -/
theorem untaken_of_fresh (h : Fresh key taken xs) : untaken key taken xs = xs := by
  rw [untaken, markTaken_of_fresh h, List.filterMap_map]
  exact List.filterMap_some

/-- Names bring no fault to light exactly when they are fresh. -/
theorem takenFaults_eq_nil_iff (sort : MemberSort) (owner : String) :
    takenFaults sort owner key taken xs = [] ↔ Fresh key taken xs := by
  rw [takenFaults, List.filterMap_eq_nil_iff]
  have hall : (∀ m ∈ markTaken key taken xs, m.2 = false) ↔ Fresh key taken xs := by
    simpa using forall_markTaken_iff (fun _ => True) taken xs
  rw [← hall]
  refine forall₂_congr fun m _ => ?_
  cases m.2 <;> simp

end Marks

/-- A name brings no fault to light exactly when it is not kept for introspection. -/
theorem reservedFaults_eq_nil_iff (name : Name) :
    reservedFaults name = [] ↔ isReservedName name.text = false := by
  unfold reservedFaults
  split
  · next h => simp [h]
  · next h => simp [h]

/-! ## Arguments and input fields -/

section Inputs

variable {present : List InputValue} {defs : List InputDefinition}

/-- The names are free: none is kept for introspection, none repeats, none is there already. -/
def InputsFree (present : List InputValue) (defs : List InputDefinition) : Prop :=
  (∀ d ∈ defs, isReservedName d.name.text = false) ∧
    Fresh (·.name) (present.map (·.name)) defs

theorem inputFindings_faults_eq_nil_iff (sort : MemberSort) (owner : String) :
    (inputFindings sort owner present defs).faults = [] ↔ InputsFree present defs := by
  rw [InputsFree, ← forall_markTaken_iff, inputFindings, List.flatMap_eq_nil_iff]
  refine forall₂_congr fun m _ => ?_
  rw [List.append_eq_nil_iff, reservedFaults_eq_nil_iff]
  cases m.2 <;> simp

theorem inputFindings_references_of_fresh (sort : MemberSort) (owner : String)
    (h : Fresh (·.name) (present.map (·.name)) defs) :
    (inputFindings sort owner present defs).references =
      defs.map fun d => ⟨d.type.leaf, .input⟩ := by
  rw [inputFindings, untaken_of_fresh h]

theorem addedInputs_of_fresh (h : Fresh (·.name) (present.map (·.name)) defs) :
    addedInputs present defs = defs.map fun d => ⟨d.name.text, d.type.toRef⟩ := by
  rw [addedInputs, untaken_of_fresh h]

end Inputs

/-! ## Fields

A field brings its arguments with it, and they are looked at only if the field is added. -/

section Fields

variable {present : List Field} {defs : List FieldDefinition}

/-- The names are free, and so are those of the arguments of each field. -/
def FieldsFree (present : List Field) (defs : List FieldDefinition) : Prop :=
  (∀ d ∈ defs, isReservedName d.name.text = false ∧ InputsFree [] d.arguments) ∧
    Fresh (·.name) (present.map (·.name)) defs

theorem fieldFindings_faults_eq_nil_iff (owner : String) :
    (fieldFindings owner present defs).faults = [] ↔ FieldsFree present defs := by
  rw [FieldsFree, ← forall_markTaken_iff, fieldFindings, List.flatMap_eq_nil_iff]
  refine forall₂_congr fun m _ => ?_
  rw [List.append_eq_nil_iff, reservedFaults_eq_nil_iff,
    ← inputFindings_faults_eq_nil_iff .argument owner]
  cases m.2 <;> simp

theorem fieldFindings_references_of_free (owner : String) (h : FieldsFree present defs) :
    (fieldFindings owner present defs).references =
      defs.flatMap fun d =>
        ⟨d.type.leaf, .output⟩ :: d.arguments.map fun a => ⟨a.type.leaf, .input⟩ := by
  rw [fieldFindings, untaken_of_fresh h.2]
  refine List.flatMap_congr fun d hd => ?_
  rw [inputFindings_references_of_fresh _ _ (h.1 d hd).2.2]

theorem addedFields_of_free (h : FieldsFree present defs) :
    addedFields present defs = defs.map fun d =>
      ⟨d.name.text, d.type.toRef, d.arguments.map fun a => ⟨a.name.text, a.type.toRef⟩⟩ := by
  rw [addedFields, untaken_of_fresh h.2]
  refine List.map_congr_left fun d hd => ?_
  rw [FieldDefinition.toField, addedInputs_of_fresh (h.1 d hd).2.2]

end Fields

/-! ## Names of types -/

section Names

variable {present : List String} {names : List Name}

theorem nameFindings_faults_eq_nil_iff (sort : MemberSort) (site : Site) (owner : String) :
    (nameFindings sort site owner present names).faults = [] ↔ Fresh id present names :=
  takenFaults_eq_nil_iff sort owner

theorem nameFindings_references_of_fresh (sort : MemberSort) (site : Site) (owner : String)
    (h : Fresh id present names) :
    (nameFindings sort site owner present names).references = names.map (⟨·, site⟩) := by
  rw [nameFindings, untaken_of_fresh h]

theorem addedNames_of_fresh (h : Fresh id present names) :
    addedNames present names = names.map (·.text) := by
  rw [addedNames, untaken_of_fresh h]

end Names

end ResolverContracts
