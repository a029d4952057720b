import Mathlib.Data.List.Perm.Basic
import ResolverContracts.Proofs.Schema.Contents
/-!
# The order of definitions

The order of the definitions of a document decides the order of lists in the catalogue and nothing
else. Lowering itself is no help here: which of two clashing definitions comes first decides which
one is dropped, and where a fault comes to light depends on what was read before. But whether a
document is accepted depends on its definitions as they stand (`Document.Valid`), and what the
catalogue of an accepted document holds can be read off them (`Document.lower_eq_of_valid`). Neither
looks at the order.
-/

set_option autoImplicit false

namespace ResolverContracts

/-! ## The same up to order -/

/-- Two types have the same members. A field counts with its type and its arguments in order. -/
inductive TypeShape.SameUpToOrder : TypeShape → TypeShape → Prop
  | scalar : SameUpToOrder .scalar .scalar
  | object {o o' : ObjectType} (fields : o.fields.Perm o'.fields)
      (implements : o.implements.Perm o'.implements) : SameUpToOrder (.object o) (.object o')
  | interface {fields fields' : List Field} (h : fields.Perm fields') :
      SameUpToOrder (.interface fields) (.interface fields')
  | union {members members' : List String} (h : members.Perm members') :
      SameUpToOrder (.union members) (.union members')
  | enum {values values' : List String} (h : values.Perm values') :
      SameUpToOrder (.enum values) (.enum values')
  | inputObject {fields fields' : List InputValue} (h : fields.Perm fields') :
      SameUpToOrder (.inputObject fields) (.inputObject fields')

/-- Two catalogues have the same names, the same types under them, and the same roots. -/
structure Catalogue.SameUpToOrder (c c' : Catalogue) : Prop where
  names : c.names.Perm c'.names
  shapes : ∀ t ∈ c.types, ∃ t' ∈ c'.types, t'.name = t.name ∧ t.shape.SameUpToOrder t'.shape
  roots : c.roots = c'.roots

/-- The sum of the same bodies in another order. -/
theorem TypeShape.sameUpToOrder_ofBodies {bodies bodies' : List TypeBody} (kind : Kind)
    (h : bodies.Perm bodies') : (ofBodies kind bodies).SameUpToOrder (ofBodies kind bodies') := by
  have hmembers {α β : Type} (parts : TypeBody → List α) (f : α → β) :
      ((bodies.flatMap parts).map f).Perm ((bodies'.flatMap parts).map f) :=
    (h.flatMap_right parts).map f
  cases kind with
  | scalar => exact .scalar
  | object => exact .object (hmembers _ _) (hmembers _ _)
  | interface => exact .interface (hmembers _ _)
  | union => exact .union (hmembers _ _)
  | enum => exact .enum (hmembers _ _)
  | inputObject => exact .inputObject (hmembers _ _)

/-! ## Rules do not look at the order -/

/-- Distinctness over bodies does not depend on their order. -/
theorem TypeBody.JointlyDistinct.of_perm {kind : Kind} {bodies bodies' : List TypeBody}
    (h : bodies.Perm bodies') (hd : JointlyDistinct kind bodies) : JointlyDistinct kind bodies' := by
  have hnodup {α : Type} {parts : TypeBody → List α} {f : α → String}
      (hn : ((bodies.flatMap parts).map f).Nodup) : ((bodies'.flatMap parts).map f).Nodup :=
    ((h.flatMap_right parts).map f).nodup_iff.mp hn
  exact ⟨hnodup hd.fields, hnodup hd.inputs, hnodup hd.values, hnodup hd.members,
    fun hk => hnodup (hd.interfaces hk)⟩

namespace Definitions

section Perm

variable {ds es : List Definition}

theorem typeDefinitions_perm (h : ds.Perm es) : (typeDefinitions ds).Perm (typeDefinitions es) :=
  h.filterMap _

theorem newTypes_perm (h : ds.Perm es) : (newTypes ds).Perm (newTypes es) :=
  (typeDefinitions_perm h).filter _

/-- Types, their bodies and the bindings of roots are collected from definitions one by one, so an
order of these is one of those. -/
theorem allTypes_perm (h : ds.Perm es) : (allTypes ds).Perm (allTypes es) :=
  (newTypes_perm h).append_left _

theorem typeExtensions_perm (h : ds.Perm es) : (typeExtensions ds).Perm (typeExtensions es) :=
  h.filterMap _

theorem rootBindings_perm (h : ds.Perm es) : (rootBindings ds).Perm (rootBindings es) :=
  h.flatMap_right _

theorem bodiesOf_perm (h : ds.Perm es) (d : TypeDefinition) : (bodiesOf ds d).Perm (bodiesOf es d) :=
  (((typeExtensions_perm h).filter _).map _).cons _

theorem bodies_perm (h : ds.Perm es) : (bodies ds).Perm (bodies es) :=
  ((typeDefinitions_perm h).append (typeExtensions_perm h)).map _

theorem Declares.of_perm (h : ds.Perm es) {name : String} {k : Kind} (hd : Declares ds name k) :
    Declares es name k := by
  obtain ⟨d, hmem, hname, hk⟩ := declares_iff.mp hd
  exact declares_iff.mpr ⟨d, (allTypes_perm h).mem_iff.mp hmem, hname, hk⟩

/-- A schema is one in any order. -/
theorem Valid.of_perm (h : ds.Perm es) (hv : Valid ds) : Valid es := by
  have hbodies {b : TypeBody} (hb : b ∈ bodies es) : b ∈ bodies ds := (bodies_perm h).mem_iff.mpr hb
  have hnew {d : TypeDefinition} (hd : d ∈ newTypes es) : d ∈ newTypes ds :=
    (newTypes_perm h).mem_iff.mpr hd
  have hkind {name : String} {P : Kind → Prop} (hk : ∃ k, Declares ds name k ∧ P k) :
      ∃ k, Declares es name k ∧ P k := by
    obtain ⟨k, hd, hp⟩ := hk
    exact ⟨k, hd.of_perm h, hp⟩
  have hblocks : (schemaBlocks ds).Perm (schemaBlocks es) := h.filterMap _
  exact {
    schema_once := hblocks.length_eq ▸ hv.schema_once
    roots_once := ((rootBindings_perm h).map _).nodup_iff.mp hv.roots_once
    roots := fun r hr => (hv.roots r ((rootBindings_perm h).mem_iff.mpr hr)).of_perm h
    names_distinct := ((newTypes_perm h).map _).nodup_iff.mp hv.names_distinct
    names_not_builtin := fun d hd => hv.names_not_builtin d (hnew hd)
    names_not_reserved := fun d hd =>
      hv.names_not_reserved d ((typeDefinitions_perm h).mem_iff.mpr hd)
    targets := fun e he => (hv.targets e ((typeExtensions_perm h).mem_iff.mpr he)).of_perm h
    well_formed := fun b hb => hv.well_formed b (hbodies hb)
    members_distinct := fun d hd => (hv.members_distinct d (hnew hd)).of_perm (bodiesOf_perm h d)
    outputs := fun b hb f hf => hkind (hv.outputs b (hbodies hb) f hf)
    arguments := fun b hb f hf a ha => hkind (hv.arguments b (hbodies hb) f hf a ha)
    inputs := fun b hb i hi => hkind (hv.inputs b (hbodies hb) i hi)
    interfaces := fun b hb n hn => (hv.interfaces b (hbodies hb) n hn).of_perm h
    members := fun b hb n hn => hkind (hv.members b (hbodies hb) n hn) }

/-- A schema is one in any order, and in no other is it none. -/
theorem valid_perm_iff (h : ds.Perm es) : Valid ds ↔ Valid es :=
  ⟨.of_perm h, .of_perm h.symm⟩

/-- The roots of a schema do not depend on the order of its definitions. -/
theorem rootsOf_perm (h : ds.Perm es) (hv : Valid ds) : rootsOf ds = rootsOf es := by
  have hv' := hv.of_perm h
  apply Roots.ext_get
  intro o
  apply Option.ext
  intro name
  rw [rootsOf, rootsOf, rootsAfter, rootsAfter, h.any_eq]
  by_cases habout : es.any (·.isAboutRoots) = true
  · -- Roots are bound: the same operations are, in another order.
    rw [if_pos habout, if_pos habout]
    show (Roots.ofBindings _).get o = some name ↔ (Roots.ofBindings _).get o = some name
    rw [Roots.get_ofBindings_eq_some_iff hv.roots_once, Roots.get_ofBindings_eq_some_iff hv'.roots_once]
    exact exists_congr fun b => and_congr_left fun _ => (rootBindings_perm h).mem_iff
  · -- Roots are conventional: the same names are declared as objects.
    rw [if_neg habout, if_neg habout]
    show (Catalogue.conventionalRoots _).get o = some name ↔
      (Catalogue.conventionalRoots _).get o = some name
    rw [Catalogue.get_conventionalRoots_eq_some_iff, Catalogue.get_conventionalRoots_eq_some_iff,
      kindOf?_entries_eq_some_iff hv.nodup_allTypes, kindOf?_entries_eq_some_iff hv'.nodup_allTypes]
    exact and_congr_right fun _ => ⟨.of_perm h, .of_perm h.symm⟩

/-- The entries of a schema in another order have the same names and the same members under them. -/
theorem sameUpToOrder_entries (h : ds.Perm es) (hv : Valid ds) :
    (Catalogue.mk (entries ds ds) (rootsOf ds)).SameUpToOrder
      (Catalogue.mk (entries es es) (rootsOf es)) := by
  refine ⟨?_, fun t ht => ?_, rootsOf_perm h hv⟩
  · have hnames (ds : List Definition) :
        (entries ds ds).map (·.name) = (allTypes ds).map (·.name.text) := List.map_map
    show ((entries ds ds).map (·.name)).Perm ((entries es es).map (·.name))
    rw [hnames, hnames]
    exact (allTypes_perm h).map _
  · obtain ⟨d, hd, rfl⟩ := List.mem_map.mp ht
    refine ⟨entry es d, List.mem_map_of_mem ((allTypes_perm h).mem_iff.mp hd), rfl, ?_⟩
    exact TypeShape.sameUpToOrder_ofBodies d.body.kind (bodiesOf_perm h d)

end Perm

end Definitions

/-! ## Documents in another order -/

open Definitions

/-- **The order of definitions does not matter.** A document with its definitions in another order is
refused exactly when the document is; if it is not, both have the same catalogue up to the order of
lists. -/
theorem Document.lower_perm {document permuted : Document}
    (h : permuted.definitions.Perm document.definitions) :
    permuted.lower.diagnostics.hasErrors = document.lower.diagnostics.hasErrors ∧
      (document.lower.diagnostics.hasErrors = false →
        permuted.lower.catalogue.SameUpToOrder document.lower.catalogue) := by
  have hvalid : permuted.Valid ↔ document.Valid := valid_perm_iff h
  constructor
  · rw [Bool.eq_iff_iff, hasErrors_lower_iff, hasErrors_lower_iff, hvalid]
  · intro haccepted
    have hv : document.Valid := by
      by_contra hnot
      have herrors := (hasErrors_lower_iff document).mpr hnot
      rw [haccepted] at herrors
      exact Bool.false_ne_true herrors
    have hv' := hvalid.mpr hv
    rw [lower_eq_of_valid hv, lower_eq_of_valid hv']
    exact sameUpToOrder_entries h hv'

/-- An extension behind its definition or in front of it. -/
theorem Document.lower_perm_extendedBefore :
    extendedBefore.lower.diagnostics.hasErrors = false ∧
      (Document.mk extendedBefore.definitions.reverse default).lower.catalogue.SameUpToOrder
        extendedBefore.lower.catalogue := by
  have haccepted : extendedBefore.lower.diagnostics.hasErrors = false := by decide
  exact ⟨haccepted, (lower_perm (List.reverse_perm _)).2 haccepted⟩

end ResolverContracts
