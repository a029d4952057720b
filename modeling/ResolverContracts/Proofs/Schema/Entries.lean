import ResolverContracts.Proofs.Schema.Validity
import ResolverContracts.Schema.Lowering
/-!
# The types behind a catalogue

The catalogue of a document, read off its definitions: every type has an entry, in the place of its
definition, with the sum of its bodies. The built-in scalars are treated as definitions with a body
without members (`builtinDefinitions`). They are in the catalogue from the start, and can be extended
like any type.

Looking a name up in such a list of entries says what the definitions say (`kindOf?_entries_eq_some_iff`),
as long as no name occurs twice.
-/

set_option autoImplicit false

namespace ResolverContracts

/-! ## Looking up by a key that occurs once -/

/-- Where keys are distinct, the item found by its key is the one that has it. -/
theorem find?_key_eq_some_iff {α β : Type} [BEq β] [LawfulBEq β] {key : α → β} {xs : List α}
    {k : β} {x : α} (h : (xs.map key).Nodup) :
    xs.find? (key · == k) = some x ↔ x ∈ xs ∧ key x = k := by
  constructor
  · intro hf
    exact ⟨List.mem_of_find?_eq_some hf, by simpa using List.find?_some hf⟩
  · rintro ⟨hmem, rfl⟩
    induction xs with
    | nil => exact absurd hmem List.not_mem_nil
    | cons y ys ih =>
      obtain ⟨hy, hys⟩ := List.nodup_cons.mp h
      rcases List.mem_cons.mp hmem with rfl | hmem
      · simp
      · have hne : (key y == key x) = false := by
          rw [beq_eq_false_iff_ne]
          exact fun he => hy (List.mem_map.mpr ⟨x, hmem, he.symm⟩)
        rw [List.find?_cons, hne]
        exact ih hys hmem

/-- Items with distinct keys are told apart by them. -/
theorem eq_of_key_eq {α β : Type} [BEq β] [LawfulBEq β] {key : α → β} {xs : List α} {x y : α}
    (h : (xs.map key).Nodup) (hx : x ∈ xs) (hy : y ∈ xs) (he : key x = key y) : x = y := by
  have hfx := (find?_key_eq_some_iff h).mpr ⟨hx, he⟩
  have hfy := (find?_key_eq_some_iff h).mpr ⟨hy, rfl⟩
  exact Option.some.inj (hfx.symm.trans hfy)

/-! ## The types behind a catalogue -/

/-- The definitions that the built-in scalars would have, had anyone to write them. -/
def builtinDefinitions : List TypeDefinition :=
  builtinScalars.map fun name => ⟨none, ⟨name, default⟩, [], .scalar, default⟩

namespace Definitions

/-- The definitions of all types: those of the built-in scalars, then those of the document. -/
def allTypes (ds : List Definition) : List TypeDefinition := builtinDefinitions ++ newTypes ds

/-- The entry of a type in the catalogue, after the extensions `es` were added. -/
def entry (es : List Definition) (d : TypeDefinition) : NamedType :=
  ⟨d.name.text, .ofBodies d.body.kind (bodiesOf es d)⟩

/-- The entries of all types of `ds`, after the extensions `es` were added. -/
def entries (ds es : List Definition) : List NamedType := (allTypes ds).map (entry es)

theorem isBuiltin_of_mem_builtinDefinitions {d : TypeDefinition} (h : d ∈ builtinDefinitions) :
    isBuiltinScalar d.name.text = true ∧ d.body = .scalar := by
  obtain ⟨name, hname, rfl⟩ := List.mem_map.mp h
  exact ⟨by simpa [isBuiltinScalar] using hname, rfl⟩

/-- What is declared has a definition, written or not. -/
theorem declares_iff {ds : List Definition} {name : String} {k : Kind} :
    Declares ds name k ↔ ∃ d ∈ allTypes ds, d.name.text = name ∧ d.body.kind = k := by
  constructor
  · have hbuiltin {name : String} (h : isBuiltinScalar name = true) :
        ∃ d ∈ allTypes ds, d.name.text = name ∧ d.body.kind = .scalar := by
      refine ⟨⟨none, ⟨name, default⟩, [], .scalar, default⟩, List.mem_append_left _ ?_, rfl, rfl⟩
      exact List.mem_map.mpr ⟨name, by simpa [isBuiltinScalar] using h, rfl⟩
    rintro (h | @⟨d, hd⟩)
    · exact hbuiltin h
    · -- A built-in scalar declared again is no new type, but it stands among all types anyway.
      by_cases hr : d.isRedeclaration = true
      · obtain ⟨hk, hb⟩ := Bool.and_eq_true_iff.mp hr
        rw [beq_iff_eq.mp hk]
        exact hbuiltin hb
      · exact ⟨d, List.mem_append_right _ (List.mem_filter.mpr ⟨hd, by simpa using hr⟩), rfl, rfl⟩
  · rintro ⟨d, hd, rfl, rfl⟩
    rcases List.mem_append.mp hd with hd | hd
    · obtain ⟨hb, hbody⟩ := isBuiltin_of_mem_builtinDefinitions hd
      rw [hbody]
      exact .builtin hb
    · exact .defined (List.mem_filter.mp hd).1

section Lookup

variable {ds es : List Definition} {roots : Roots} {name : String}

/-- The type of a name, where no name occurs twice. -/
theorem get?_entries_eq_some_iff (hn : ((allTypes ds).map (·.name.text)).Nodup) {t : NamedType} :
    (Catalogue.mk (entries ds es) roots).get? name = some t ↔
      ∃ d ∈ allTypes ds, d.name.text = name ∧ entry es d = t := by
  rw [Catalogue.get?, entries, List.find?_map, Option.map_eq_some_iff]
  refine exists_congr fun d => ?_
  rw [← and_assoc, ← find?_key_eq_some_iff hn]
  rfl

/-- The kind of a name is the one it is declared as. -/
theorem kindOf?_entries_eq_some_iff (hn : ((allTypes ds).map (·.name.text)).Nodup) {k : Kind} :
    (Catalogue.mk (entries ds es) roots).kindOf? name = some k ↔ Declares ds name k := by
  rw [Catalogue.kindOf?, Option.map_eq_some_iff, declares_iff]
  simp only [get?_entries_eq_some_iff hn]
  constructor
  · rintro ⟨t, ⟨d, hd, hname, rfl⟩, hk⟩
    exact ⟨d, hd, hname, by simpa [entry] using hk⟩
  · rintro ⟨d, hd, hname, hk⟩
    exact ⟨entry es d, ⟨d, hd, hname, rfl⟩, by simpa [entry] using hk⟩

/-- A name is taken when a definition has it. -/
theorem contains_entries :
    (Catalogue.mk (entries ds es) roots).contains name =
      ((allTypes ds).map (·.name.text)).contains name := by
  rw [Catalogue.contains, entries, List.any_map, List.contains_eq_any_beq, List.any_map]
  refine congrArg (List.any _) (funext fun d => ?_)
  exact Bool.beq_comm

end Lookup

end Definitions

end ResolverContracts
