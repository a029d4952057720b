import Mathlib.Data.List.Nodup
import ResolverContracts.Schema.Lowering
/-!
# Roots as they are bound

The roots that a list of bindings gives, each operation with the type it is bound to first
(`Roots.ofBindings`), and the proof that binding one after the other arrives there.

A schema block and all schema extensions of a document write into the same slots. So the fold over the
operations of one of them is followed from any bindings made before (`Draft.foldl_bindRoot`), and what
comes out is one statement about the whole list: no fault exactly when no operation occurs twice.
-/

set_option autoImplicit false

namespace ResolverContracts

namespace Roots

/-- The roots that bindings give. Of several bindings of an operation the first one counts. -/
def ofBindings (bs : List RootBinding) : Roots :=
  let root (operation : Operation) : Option String :=
    (bs.find? (·.operation = operation)).map (·.type.text)
  ⟨root .query, root .mutation, root .subscription⟩

variable {r s : Roots} {bs : List RootBinding} {b : RootBinding} {o : Operation}

/-- Roots are known by what each operation has. -/
theorem ext_get (h : ∀ o, r.get o = s.get o) : r = s := by
  obtain ⟨q, m, sub⟩ := r
  obtain ⟨q', m', sub'⟩ := s
  have hq : q = q' := h .query
  have hm : m = m' := h .mutation
  have hs : sub = sub' := h .subscription
  rw [hq, hm, hs]

theorem get_set (name : String) :
    (r.set b.operation name).get o = if b.operation = o then some name else r.get o := by
  cases h : b.operation <;> cases o <;> rfl

theorem get_ofBindings :
    (ofBindings bs).get o = (bs.find? (·.operation = o)).map (·.type.text) := by
  cases o <;> rfl

/-- An operation has a root when it is bound. -/
theorem isSome_get_ofBindings :
    ((ofBindings bs).get o).isSome = true ↔ o ∈ bs.map (·.operation) := by
  rw [get_ofBindings, Option.isSome_map, List.find?_isSome, List.mem_map]
  simp

/-- Binding an operation that is not bound yet is one binding more. -/
theorem set_ofBindings (h : b.operation ∉ bs.map (·.operation)) :
    (ofBindings bs).set b.operation b.type.text = ofBindings (bs ++ [b]) := by
  apply ext_get
  intro o
  rw [get_set, get_ofBindings, get_ofBindings, List.find?_append]
  by_cases ho : b.operation = o
  · have hnone : bs.find? (·.operation = o) = .none := by
      rw [List.find?_eq_none]
      intro c hc
      have hne : c.operation ≠ o := fun he => h (List.mem_map.mpr ⟨c, hc, he.trans ho.symm⟩)
      simpa using hne
    rw [if_pos ho, hnone]
    simp [ho]
  · rw [if_neg ho]
    simp [ho]

end Roots

namespace Draft

/-! ## Notes -/

@[simp] theorem faults_note (D : Draft) (found : Findings) :
    (D.note found).findings.faults = D.findings.faults ++ found.faults :=
  rfl

/-- A note of nothing changes nothing. -/
theorem note_none (D : Draft) : D.note ⟨[], []⟩ = D := by
  show { D with findings := ⟨D.findings.faults ++ [], D.findings.references ++ []⟩ } = D
  rw [List.append_nil, List.append_nil]

/-- Two notes of references are one. -/
theorem note_note (D : Draft) (xs ys : List Reference) :
    (D.note ⟨[], xs⟩).note ⟨[], ys⟩ = D.note ⟨[], xs ++ ys⟩ := by
  show { D with findings := ⟨_ ++ [] ++ [], _ ++ xs ++ ys⟩ } =
    { D with findings := ⟨_ ++ [], _ ++ (xs ++ ys)⟩ }
  rw [List.append_nil, List.append_assoc _ xs ys]

/-- A fault is there. -/
theorem faults_fault_ne_nil (D : Draft) (f : SchemaFault) :
    (D.fault f).findings.faults ≠ [] := by
  rw [fault, faults_note]
  exact List.append_ne_nil_of_right_ne_nil _ (List.cons_ne_nil f [])

/-! ## Binding -/

/-- A draft whose roots are those of some bindings. -/
def withBindings (D : Draft) (bs : List RootBinding) : Draft :=
  { D with roots := some (.ofBindings bs) }

/-- Binding an operation: a fault if it is bound already, else one binding more. -/
theorem bindRoot_withBindings (D : Draft) (bs : List RootBinding) (b : RootBinding) :
    (D.withBindings bs).bindRoot b =
      if b.operation ∈ bs.map (·.operation) then
        (D.fault (.rootRebound b.operation b.span)).withBindings bs
      else (D.note ⟨[], [⟨b.type, .root⟩]⟩).withBindings (bs ++ [b]) := by
  show (if ((Roots.ofBindings bs).get b.operation).isSome = true then _ else _ : Draft) = _
  by_cases h : b.operation ∈ bs.map (·.operation)
  · rw [if_pos (Roots.isSome_get_ofBindings.mpr h), if_pos h]
    rfl
  · rw [if_neg (fun hs => h (Roots.isSome_get_ofBindings.mp hs)), if_neg h]
    show Draft.note { D with roots := some ((Roots.ofBindings bs).set b.operation b.type.text) } _ = _
    rw [Roots.set_ofBindings h]
    rfl

/-- **Binding a list of operations.** No fault is found exactly when, with the bindings made before,
no operation is bound twice; all of them are then bound, and all their types referred to. -/
theorem foldl_bindRoot (D : Draft) (bs rs : List RootBinding)
    (hbs : (bs.map (·.operation)).Nodup) :
    ((rs.foldl bindRoot (D.withBindings bs)).findings.faults = [] ↔
        D.findings.faults = [] ∧ ((bs ++ rs).map (·.operation)).Nodup) ∧
      (((bs ++ rs).map (·.operation)).Nodup →
        rs.foldl bindRoot (D.withBindings bs) =
          (D.note ⟨[], rs.map (⟨·.type, .root⟩)⟩).withBindings (bs ++ rs)) := by
  induction rs generalizing D bs with
  | nil =>
    rw [List.append_nil]
    refine ⟨(and_iff_left hbs).symm, fun _ => ?_⟩
    rw [List.map_nil, note_none]
    rfl
  | cons r rs ih =>
    have hcomm : bs ++ r :: rs = bs ++ [r] ++ rs := by
      rw [List.append_assoc, List.singleton_append]
    rw [List.foldl_cons, bindRoot_withBindings, hcomm]
    by_cases h : r.operation ∈ bs.map (·.operation)
    · -- The fault stays to the end, and the operation occurs twice.
      have htwice : ¬ ((bs ++ [r] ++ rs).map (·.operation)).Nodup := by
        rw [List.map_append, List.map_append]
        intro hn
        have hd := List.disjoint_of_nodup_append (List.nodup_append.mp hn).1
        exact hd h (List.mem_singleton.mpr rfl)
      rw [if_pos h, (ih _ bs hbs).1]
      refine ⟨iff_of_false (fun hf => ?_) (fun hf => htwice hf.2), fun hn => absurd hn htwice⟩
      exact faults_fault_ne_nil D _ hf.1
    · -- The operation is new, so the induction goes on with one binding more.
      have hbs' : ((bs ++ [r]).map (·.operation)).Nodup := by
        rw [List.map_append, List.map_singleton, ← List.concat_eq_append]
        exact (List.nodup_concat _ _).mpr ⟨h, hbs⟩
      obtain ⟨hfaults, hdraft⟩ := ih (D.note ⟨[], [⟨r.type, .root⟩]⟩) (bs ++ [r]) hbs'
      rw [if_neg h]
      refine ⟨?_, fun hn => ?_⟩
      · rw [hfaults, faults_note, List.append_nil]
      · rw [hdraft hn, note_note]
        rfl

end Draft

end ResolverContracts
