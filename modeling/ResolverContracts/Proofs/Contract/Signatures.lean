import ResolverContracts.Proofs.Contract.Parts
/-!
# What a contract says of a field

A contract answers fields of one type, and each answer is put together from the field alone: its
values, its arguments and its result. The record of the arguments is a declaration of its own, so
whether an answer is right is a matter of the whole module.
-/

set_option autoImplicit false

namespace ResolverContracts

namespace DeclarationSet

open Project

/-- What the arguments of a handler say of the field: nothing is taken exactly when the field has no
arguments, and otherwise a record of the module lists them. -/
structure ListsArguments (set : DeclarationSet) (p : Project) (field : Field) (args : TypeExpr) :
    Prop where
  nothing : args = .emptyRecord ↔ field.arguments = []
  record : field.arguments ≠ [] → ∃ r, .args r ∈ set.declarations ∧ args = .declared r.name ∧
    List.Forall₂ p.InputField field.arguments r.fields

/-- A signature is the one of a field, for values of a type. -/
structure IsSignature (set : DeclarationSet) (p : Project) (root : TypeExpr) (field : Field)
    (a : HandlerField) : Prop where
  name : a.name = field.name
  root : a.root = root
  result : p.mapType .readonly field.type = .ok a.result
  arguments : set.ListsArguments p field a.args

variable {set : DeclarationSet} {p : Project}

theorem ListsArguments.congr {f g : Field} {args : TypeExpr} (h : set.ListsArguments p g args)
    (heq : g.arguments = f.arguments) : set.ListsArguments p f args := by
  obtain ⟨hnothing, hrecord⟩ := h
  rw [heq] at hnothing hrecord
  exact ⟨hnothing, hrecord⟩

namespace Parts.MadeFrom

variable {s : Parts} {made : HandlerWithArgs} {owner : String} {parameter : Option String}
  {extensions : List Extension} {root : TypeExpr} {isSubscription : Bool} {fields : List Field}

/-- The record that came with an answer is declared. -/
theorem isSignature (hs : s.MadeFrom p set) (hmade : made ∈ s.handlers) {field : Field}
    {a : HandlerField} {record : Option Record} (hrecords : ∀ r ∈ record, r ∈ made.records)
    (h : p.Answers owner root isSubscription field (a, record)) :
    set.IsSignature p root field a := by
  refine ⟨h.name, h.root, h.result, ?_⟩
  rcases h.takes.cases with ⟨hnone, hargs, -⟩ | ⟨r, hr, hargs, hsome, -, hfields⟩
  · exact ⟨iff_of_true hargs hnone, fun hsome => absurd hnone hsome⟩
  · have hne : a.args ≠ .emptyRecord := by
      rw [show a.args = _ from hargs]
      nofun
    exact ⟨iff_of_false hne hsome, fun _ =>
      ⟨r, hs.mem_iff.mpr (.args hmade (hrecords r hr)), hargs, hfields⟩⟩

/-- A contract has a signature for each of its fields, in their order. -/
theorem forall₂_isSignature (hs : s.MadeFrom p set) (hmade : made ∈ s.handlers)
    (h : p.HandlerFor owner parameter extensions root isSubscription fields made) :
    List.Forall₂ (fun f a => set.IsSignature p root f a ∧ a.isSubscription = isSubscription)
      fields made.handler.fields := by
  obtain ⟨answered, hanswered, hfields, hrecords⟩ := h.answers
  rw [hfields, List.forall₂_map_right_iff]
  refine forall₂_imp_of_mem hanswered fun f _ answer hmem hanswer => ?_
  have hcomes : ∀ r ∈ answer.2, r ∈ made.records := by
    intro r hr
    rw [hrecords]
    exact List.mem_filterMap.mpr ⟨answer, hmem, hr⟩
  exact ⟨hs.isSignature hmade hcomes hanswer, hanswer.isSubscription⟩

/-- A contract says what is right of its fields. -/
theorem isSignature_of_mem (hs : s.MadeFrom p set) (hmade : made ∈ s.handlers)
    (h : p.HandlerFor owner parameter extensions root isSubscription fields made) {a : HandlerField}
    (ha : a ∈ made.handler.fields) :
    ∃ field ∈ fields, set.IsSignature p root field a ∧ a.isSubscription = isSubscription :=
  exists_left_of_forall₂ (hs.forall₂_isSignature hmade h) ha

/-- It leaves none of them out. -/
theorem exists_signature (hs : s.MadeFrom p set) (hmade : made ∈ s.handlers)
    (h : p.HandlerFor owner parameter extensions root isSubscription fields made) {field : Field}
    (hfield : field ∈ fields) :
    ∃ a ∈ made.handler.fields, set.IsSignature p root field a := by
  obtain ⟨a, ha, hsignature, -⟩ := exists_right_of_forall₂ (hs.forall₂_isSignature hmade h) hfield
  exact ⟨a, ha, hsignature⟩

end Parts.MadeFrom

end DeclarationSet

end ResolverContracts
