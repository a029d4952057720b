import Mathlib.Data.Fintype.Card
import Mathlib.Data.Set.Finite.List
import Mathlib.Logic.Relation
import ResolverContracts.Proofs.Schema.Loaded
/-!
# Unions of unions

A union may list unions. To expand it is to put the members of each union in its place, until no union
is left (`Catalogue.Expands`). Nothing keeps a union from listing itself, by way of others or straight
away, and then the expansion has no end; `expands_iff` says that this is the only way to have none: a
union expands exactly if none of the unions it leads to leads back to itself.

Both sides are the same as that the listing of unions by unions is well-founded from there on. One way
the induction is on the expansion; the other way there are only finitely many types to lead to.
-/

set_option autoImplicit false

namespace ResolverContracts

open Relation

/-! ## Cycles -/

section Cycles

variable {α : Type} {r : α → α → Prop} {a b : α}

theorem acc_of_reflTransGen (h : Acc (flip r) a) (hab : ReflTransGen r a b) : Acc (flip r) b := by
  induction hab with
  | refl => exact h
  | tail _ hbc ih => exact ih.inv hbc

/-- What can be descended from lies on no cycle. A cycle is also one from its next place on. -/
theorem not_transGen_of_acc (h : Acc (flip r) a) : ¬TransGen r a a := by
  induction h with
  | intro a _ ih =>
    intro hcycle
    obtain ⟨b, hab, hba⟩ := TransGen.head'_iff.mp hcycle
    exact ih b hab (TransGen.tail' hba hab)

/-- Where only finitely many places can be reached and none of them is on a cycle, every descent
ends. -/
theorem acc_of_no_cycle (hfinite : {b | ReflTransGen r a b}.Finite)
    (h : ∀ b, ReflTransGen r a b → ¬TransGen r b b) : Acc (flip r) a := by
  have := hfinite.to_subtype
  have hwf : WellFounded fun x y : {b | ReflTransGen r a b} => TransGen r y.1 x.1 := by
    have : IsTrans {b | ReflTransGen r a b} fun x y => TransGen r y.1 x.1 :=
      ⟨fun _ _ _ hxy hyz => hyz.trans hxy⟩
    have : Std.Irrefl fun x y : {b | ReflTransGen r a b} => TransGen r y.1 x.1 :=
      ⟨fun x => h x.1 x.2⟩
    exact Finite.wellFounded_of_trans_of_irrefl _
  have hdescent : ∀ x : {b | ReflTransGen r a b}, Acc (flip r) x.1 := by
    intro x
    induction x using hwf.induction with
    | _ x ih => exact .intro x.1 fun y hxy => ih ⟨y, x.2.tail hxy⟩ (.single hxy)
  exact hdescent ⟨a, .refl⟩

end Cycles

namespace Catalogue

/-! ## Expansion -/

/-- A union lists another one. -/
def ListsUnion (c : Catalogue) (u v : String) : Prop :=
  (∃ members, (u, members) ∈ c.unions ∧ v ∈ members) ∧ c.kindOf? v = some .union

/-- Expanding names: a union gives way to what its members expand to, any other name stays. -/
inductive Expands (c : Catalogue) : List String → List String → Prop
  | nil : Expands c [] []
  | leaf {m : String} {ms leaves : List String} (hm : c.kindOf? m ≠ some .union)
    (hms : Expands c ms leaves) : Expands c (m :: ms) (m :: leaves)
  | union {m : String} {members ms inner leaves : List String} (hm : (m, members) ∈ c.unions)
    (hmembers : Expands c members inner) (hms : Expands c ms leaves) :
    Expands c (m :: ms) (inner ++ leaves)

variable {c : Catalogue} {ms ns leaves leaves' : List String}

theorem Expands.append (h : c.Expands ms leaves) (h' : c.Expands ns leaves') :
    c.Expands (ms ++ ns) (leaves ++ leaves') := by
  induction h with
  | nil => exact h'
  | leaf hm _ ih => exact .leaf hm ih
  | union hm hmembers _ _ ih =>
    rw [List.append_assoc]
    exact .union hm hmembers ih

/-- Names that expand one by one expand together. -/
theorem exists_expands (h : ∀ m ∈ ms, ∃ leaves, c.Expands [m] leaves) :
    ∃ leaves, c.Expands ms leaves := by
  induction ms with
  | nil => exact ⟨[], .nil⟩
  | cons m ms ih =>
    rw [List.forall_mem_cons] at h
    obtain ⟨first, hfirst⟩ := h.1
    obtain ⟨rest, hrest⟩ := ih h.2
    exact ⟨first ++ rest, hfirst.append hrest⟩

/-- No union is left. -/
theorem Expands.ne_union (h : c.Expands ms leaves) : ∀ l ∈ leaves, c.kindOf? l ≠ some .union := by
  induction h with
  | nil => exact List.forall_mem_nil _
  | leaf hm _ ih => exact List.forall_mem_cons.mpr ⟨hm, ih⟩
  | union _ _ _ ihm ih => exact List.forall_mem_append.mpr ⟨ihm, ih⟩

/-- What a union can list has a value of its own. -/
def HasValue (c : Catalogue) (name : String) : Prop :=
  ∃ k, c.kindOf? name = some k ∧ k ≠ .interface ∧ k ≠ .inputObject

/-- What is left has values of its own if the names at the start have. -/
theorem Expands.hasValue (hc : c.WellNamed) (h : c.Expands ms leaves) (hms : ∀ m ∈ ms, c.HasValue m) :
    ∀ l ∈ leaves, c.HasValue l := by
  induction h with
  | nil => exact List.forall_mem_nil _
  | leaf _ _ ih =>
    rw [List.forall_mem_cons] at hms ⊢
    exact ⟨hms.1, ih hms.2⟩
  | union hm _ _ ihm ih =>
    rw [List.forall_mem_cons] at hms
    exact List.forall_mem_append.mpr ⟨ihm fun m hmem => hc.members _ hm m hmem, ih hms.2⟩

/-! ## Which unions expand -/

theorem WellNamed.members_unique (hc : c.WellNamed) {u : String} {members members' : List String}
    (h : (u, members) ∈ c.unions) (h' : (u, members') ∈ c.unions) : members = members' :=
  TypeShape.union.inj (hc.shape_unique (mem_unions_iff.mp h) (mem_unions_iff.mp h'))

theorem WellNamed.kindOf?_of_mem_unions (hc : c.WellNamed) {u : String} {members : List String}
    (h : (u, members) ∈ c.unions) : c.kindOf? u = some .union :=
  hc.kindOf?_of_mem (mem_unions_iff.mp h)

/-- What expands can be descended from. -/
theorem WellNamed.acc_of_expands (hc : c.WellNamed) (h : c.Expands ms leaves) :
    ∀ m ∈ ms, Acc (flip c.ListsUnion) m := by
  induction h with
  | nil => exact List.forall_mem_nil _
  | leaf hm _ ih =>
    refine List.forall_mem_cons.mpr ⟨.intro _ fun v hv => ?_, ih⟩
    obtain ⟨⟨members, hmembers, -⟩, -⟩ := hv
    exact absurd (hc.kindOf?_of_mem_unions hmembers) hm
  | union hm _ _ ihm ih =>
    refine List.forall_mem_cons.mpr ⟨.intro _ fun v hv => ?_, ih⟩
    obtain ⟨⟨members, hmembers, hv⟩, -⟩ := hv
    rw [hc.members_unique hmembers hm] at hv
    exact ihm v hv

/-- What can be descended from expands. -/
theorem exists_expands_of_acc {u : String} (h : Acc (flip c.ListsUnion) u) :
    ∃ leaves, c.Expands [u] leaves := by
  induction h with
  | intro u _ ih =>
    by_cases hu : c.kindOf? u = some .union
    · obtain ⟨members, hmembers⟩ := exists_of_kindOf?_union hu
      have hall : ∀ m ∈ members, ∃ leaves, c.Expands [m] leaves := by
        intro m hm
        by_cases hkind : c.kindOf? m = some .union
        · exact ih m ⟨⟨members, hmembers, hm⟩, hkind⟩
        · exact ⟨[m], .leaf hkind .nil⟩
      obtain ⟨inner, hinner⟩ := exists_expands hall
      exact ⟨inner ++ [], .union hmembers hinner .nil⟩
    · exact ⟨[u], .leaf hu .nil⟩

/-- A union leads to types of the catalogue only, so to finitely many. -/
theorem finite_reachable (c : Catalogue) (u : String) :
    {v | ReflTransGen c.ListsUnion u v}.Finite := by
  refine (List.finite_toSet (u :: c.names)).subset fun v hv => ?_
  rcases ReflTransGen.cases_tail hv with rfl | ⟨_, -, -, hkind⟩
  · exact List.mem_cons_self
  · obtain ⟨shape, ht, -⟩ := exists_of_kindOf? hkind
    exact List.mem_cons_of_mem _ (List.mem_map_of_mem ht)

/-- **Expansion.** A name expands exactly if no union it leads to leads back to itself. -/
theorem WellNamed.expands_iff (hc : c.WellNamed) {u : String} :
    (∃ leaves, c.Expands [u] leaves) ↔
      ∀ v, ReflTransGen c.ListsUnion u v → ¬TransGen c.ListsUnion v v := by
  constructor
  · rintro ⟨leaves, h⟩ v hv
    have hacc := hc.acc_of_expands h u (List.mem_singleton_self u)
    exact not_transGen_of_acc (acc_of_reflTransGen hacc hv)
  · exact fun h => exists_expands_of_acc (acc_of_no_cycle (c.finite_reachable u) h)

end Catalogue

end ResolverContracts
