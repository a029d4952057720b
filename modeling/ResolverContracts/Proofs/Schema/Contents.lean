import ResolverContracts.Proofs.Schema.Acceptance
/-!
# What the catalogue of a schema holds

The catalogue of an accepted document, described by the document alone. There is an entry for each
built-in scalar and for each type defined, in the order of the definitions. An entry has the members
of the definition and then those of the extensions, in the order of the text and wherever the
extensions stand. A type keeps its lists, its non-null marks and its name. The roots are the ones
bound, if the schema is spoken of at all, and otherwise the conventional ones.

Equality of lists says the rest: nothing is lost, nothing is there twice, nothing changes places.
-/

set_option autoImplicit false

namespace ResolverContracts

/-! ## Levels of a type -/

/-- A level that a type puts around another one. -/
inductive Wrapper
  | list | nonNull

/-- The levels of a type as it is written, from the outside. -/
def TypeNode.wrappers : TypeNode → List Wrapper
  | named _ => []
  | list item _ => .list :: item.wrappers
  | nonNull item _ => .nonNull :: item.wrappers

/-- The levels of a reference, from the outside. -/
def TypeRef.wrappers : TypeRef → List Wrapper
  | named _ => []
  | list item => .list :: item.wrappers
  | nonNull item => .nonNull :: item.wrappers

/-- A type keeps its levels. -/
theorem TypeNode.wrappers_toRef (t : TypeNode) : t.toRef.wrappers = t.wrappers := by
  induction t with
  | named name => rfl
  | list item span ih => exact congrArg (Wrapper.list :: ·) ih
  | nonNull item span ih => exact congrArg (Wrapper.nonNull :: ·) ih

/-! ## Roots -/

open Definitions

/-- Where no operation is bound twice, its root is the type it is bound to. -/
theorem Roots.get_ofBindings_eq_some_iff {bs : List RootBinding} {o : Operation} {name : String}
    (h : (bs.map (·.operation)).Nodup) :
    (ofBindings bs).get o = some name ↔ ∃ b ∈ bs, b.operation = o ∧ b.type.text = name := by
  rw [get_ofBindings, Option.map_eq_some_iff]
  refine exists_congr fun b => ?_
  rw [← and_assoc]
  exact and_congr_left fun _ => find?_key_eq_some_iff h

/-- A conventional root is there when an object of its name is. -/
theorem Catalogue.get_conventionalRoots_eq_some_iff {c : Catalogue} {o : Operation} {name : String} :
    c.conventionalRoots.get o = some name ↔
      name = o.conventionalName ∧ c.kindOf? name = some .object := by
  have hget : c.conventionalRoots.get o =
      if c.kindOf? o.conventionalName = some .object then some o.conventionalName else none := by
    cases o <;> rfl
  rw [hget]
  by_cases hobject : c.kindOf? o.conventionalName = some .object
  · rw [if_pos hobject, Option.some_inj]
    constructor
    · rintro rfl
      exact ⟨rfl, hobject⟩
    · rintro ⟨rfl, -⟩
      rfl
  · rw [if_neg hobject]
    refine iff_of_false nofun ?_
    rintro ⟨rfl, h⟩
    exact hobject h

/-! ## The catalogue -/

/-- **What the catalogue holds.** Of a document that lowering reports nothing about, the catalogue has
the built-in scalars and then an entry for each new type, with the sum of the bodies of its definition
and its extensions; types are kept level by level; and the roots are the bound ones as soon as a
schema block or a schema extension stands in the document, else the conventional ones. -/
theorem Document.lower_contents {document : Document}
    (h : document.lower.diagnostics.items = []) :
    let ds := document.definitions
    let catalogue := document.lower.catalogue
    catalogue.types =
        ["Int", "Float", "String", "Boolean", "ID"].map (⟨·, .scalar⟩) ++
          (newTypes ds).map (fun d => ⟨d.name.text, .ofBodies d.body.kind (bodiesOf ds d)⟩) ∧
      (∀ t : TypeNode, t.toRef.wrappers = t.wrappers ∧ t.toRef.leaf = t.leaf.text) ∧
      (ds.any (·.isAboutRoots) = true → ∀ o name, catalogue.roots.get o = some name ↔
        ∃ b ∈ rootBindings ds, b.operation = o ∧ b.type.text = name) ∧
      (ds.any (·.isAboutRoots) = false → ∀ o name, catalogue.roots.get o = some name ↔
        name = o.conventionalName ∧ catalogue.kindOf? name = some .object) := by
  intro ds catalogue
  have hvalid := (lower_reports_nothing_iff document).mp h
  have hcatalogue : catalogue = ⟨entries ds ds, rootsOf ds⟩ :=
    congrArg Lowered.catalogue (lower_eq_of_valid hvalid)
  rw [hcatalogue]
  refine ⟨?_, fun t => ⟨t.wrappers_toRef, t.leaf_toRef⟩, fun habout o name => ?_,
    fun habout o name => ?_⟩
  · -- A scalar has no members, so the entries of the built-in ones are always the same.
    show (allTypes ds).map (entry ds) = _
    rw [allTypes, List.map_append]
    rfl
  · show (rootsOf ds).get o = some name ↔ _
    rw [rootsOf, rootsAfter, if_pos habout]
    exact Roots.get_ofBindings_eq_some_iff hvalid.roots_once
  · show (rootsOf ds).get o = some name ↔ _
    rw [rootsOf, rootsAfter, if_neg (by simp [habout])]
    exact Catalogue.get_conventionalRoots_eq_some_iff

/-- An extension in front of the definition it extends. -/
def Document.extendedBefore : Document where
  definitions :=
    [.typeExtension ⟨none, ⟨"Query", default⟩, [],
        .object [] [⟨none, ⟨"late", default⟩, [],
          .list (.nonNull (.named ⟨"Int", default⟩) default) default, [], default⟩], default⟩,
      .type ⟨none, ⟨"Query", default⟩, [],
        .object [] [⟨none, ⟨"early", default⟩, [], .named ⟨"ID", default⟩, [], default⟩], default⟩]
  span := default

/-- The fields of the definition come first all the same. -/
theorem Document.lower_contents_extendedBefore :
    extendedBefore.lower.diagnostics.items = [] ∧
      extendedBefore.lower.catalogue.types =
        ["Int", "Float", "String", "Boolean", "ID"].map (⟨·, .scalar⟩) ++
          [⟨"Query", .object ⟨[⟨"early", .named "ID", []⟩,
            ⟨"late", .list (.nonNull (.named "Int")), []⟩], []⟩⟩] ∧
      extendedBefore.lower.catalogue.roots.get .query = some "Query" := by
  have h : extendedBefore.lower.diagnostics.items = [] := by decide
  obtain ⟨htypes, -, -, hroots⟩ := lower_contents h
  exact ⟨h, htypes, (hroots rfl .query "Query").mpr ⟨rfl, by decide⟩⟩

end ResolverContracts
