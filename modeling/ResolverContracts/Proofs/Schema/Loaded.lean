import ResolverContracts.Proofs.Schema.Contents
import ResolverContracts.Schema.Load
/-!
# Names of a loaded catalogue

What everything behind loading may rely on. A catalogue that was loaded is that of a valid document,
and the rules about names that the document keeps are still there in the catalogue: a name stands for
one type, none is kept for introspection, the fields of a type have different names, and a union lists
types that have values of their own.
-/

set_option autoImplicit false

namespace ResolverContracts

open Definitions

namespace Definitions

variable {ds es : List Definition}

/-- An entry of a catalogue is the sum of the bodies of a type. -/
theorem exists_of_mem_entries {name : String} {shape : TypeShape}
    (h : ⟨name, shape⟩ ∈ entries ds es) :
    ∃ d ∈ allTypes ds, shape = .ofBodies shape.kind (bodiesOf es d) := by
  obtain ⟨d, hd, hentry⟩ := List.mem_map.mp h
  obtain rfl : TypeShape.ofBodies d.body.kind (bodiesOf es d) = shape :=
    congrArg NamedType.shape hentry
  rw [TypeShape.kind_ofBodies]
  exact ⟨d, hd, rfl⟩

/-- The bodies that make up a type are bodies of the document, or have no members at all. -/
theorem mem_bodies_of_mem_bodiesOf {d : TypeDefinition} {b : TypeBody} (hd : d ∈ allTypes ds)
    (hb : b ∈ bodiesOf ds d) : b = .scalar ∨ b ∈ bodies ds := by
  rcases List.mem_cons.mp hb with rfl | hb
  · rcases List.mem_append.mp hd with hd | hd
    · exact .inl (isBuiltin_of_mem_builtinDefinitions hd).2
    · exact .inr (mem_bodies_of_newTypes hd)
  · obtain ⟨e, he, rfl⟩ := List.mem_map.mp hb
    exact .inr (mem_bodies_of_typeExtensions (List.mem_filter.mp he).1)

end Definitions

namespace Catalogue

/-- A loaded catalogue is the one of a valid document. -/
theorem load_eq_ok {text : String} {c : Catalogue} (h : load text = .ok c) :
    (Document.parse text).document.Valid ∧ c = (Document.parse text).document.lower.catalogue := by
  rw [load] at h
  by_cases hparsed : (Document.parse text).diagnostics.hasErrors = true
  · rw [if_pos hparsed] at h
    nomatch h
  · rw [if_neg hparsed] at h
    by_cases hlowered : (Document.parse text).document.lower.diagnostics.hasErrors = true
    · rw [if_pos hlowered] at h
      nomatch h
    · rw [if_neg hlowered] at h
      rw [Document.hasErrors_lower_iff, not_not] at hlowered
      exact ⟨hlowered, (Except.ok.inj h).symm⟩

/-- The rules about names that a catalogue keeps. -/
structure WellNamed (c : Catalogue) : Prop where
  distinct : (c.types.map (·.name)).Nodup
  unreserved : ∀ t ∈ c.types, isReservedName t.name = false
  object_fields : ∀ o ∈ c.objects, (o.2.fields.map (·.name)).Nodup
  interface_fields : ∀ i ∈ c.interfaces, (i.2.map (·.name)).Nodup
  members : ∀ u ∈ c.unions, ∀ m ∈ u.2,
    ∃ k, c.kindOf? m = some k ∧ k ≠ .interface ∧ k ≠ .inputObject

/-- An object or an interface, and its fields. -/
inductive HasFields (c : Catalogue) : String → List Field → Prop
  | object {name : String} {o : ObjectType} (h : (name, o) ∈ c.objects) : HasFields c name o.fields
  | interface {name : String} {fields : List Field} (h : (name, fields) ∈ c.interfaces) :
    HasFields c name fields

/-! ## Looking names up -/

section Lookup

variable {c : Catalogue} {name : String}

theorem mem_of_get?_eq_some {t : NamedType} (h : c.get? name = some t) :
    t ∈ c.types ∧ t.name = name :=
  ⟨List.mem_of_find?_eq_some h, by simpa using List.find?_some h⟩

/-- A name that has a kind is that of a type. -/
theorem exists_of_kindOf? {k : Kind} (h : c.kindOf? name = some k) :
    ∃ shape, ⟨name, shape⟩ ∈ c.types ∧ shape.kind = k := by
  rw [kindOf?, Option.map_eq_some_iff] at h
  obtain ⟨⟨n, shape⟩, hget, hk⟩ := h
  obtain ⟨ht, rfl⟩ := mem_of_get?_eq_some hget
  exact ⟨shape, ht, hk⟩

/-- A name of a kind has an entry in the view on that kind, from which its members can be read. -/
theorem exists_of_kindOf?_object (h : c.kindOf? name = some .object) :
    ∃ o, (name, o) ∈ c.objects := by
  obtain ⟨shape, ht, hk⟩ := exists_of_kindOf? h
  cases shape with
  | object o => exact ⟨o, mem_objects_iff.mpr ht⟩
  | _ => nomatch hk

theorem exists_of_kindOf?_interface (h : c.kindOf? name = some .interface) :
    ∃ fields, (name, fields) ∈ c.interfaces := by
  obtain ⟨shape, ht, hk⟩ := exists_of_kindOf? h
  cases shape with
  | interface fields => exact ⟨fields, mem_interfaces_iff.mpr ht⟩
  | _ => nomatch hk

theorem exists_of_kindOf?_union (h : c.kindOf? name = some .union) :
    ∃ members, (name, members) ∈ c.unions := by
  obtain ⟨shape, ht, hk⟩ := exists_of_kindOf? h
  cases shape with
  | union members => exact ⟨members, mem_unions_iff.mpr ht⟩
  | _ => nomatch hk

theorem exists_of_kindOf?_enum (h : c.kindOf? name = some .enum) :
    ∃ values, (name, values) ∈ c.enums := by
  obtain ⟨shape, ht, hk⟩ := exists_of_kindOf? h
  cases shape with
  | enum values => exact ⟨values, mem_enums_iff.mpr ht⟩
  | _ => nomatch hk

theorem exists_of_kindOf?_inputObject (h : c.kindOf? name = some .inputObject) :
    ∃ fields, (name, fields) ∈ c.inputObjects := by
  obtain ⟨shape, ht, hk⟩ := exists_of_kindOf? h
  cases shape with
  | inputObject fields => exact ⟨fields, mem_inputObjects_iff.mpr ht⟩
  | _ => nomatch hk

theorem mem_customScalars_of_kindOf? (h : c.kindOf? name = some .scalar)
    (hbuiltin : isBuiltinScalar name = false) : name ∈ c.customScalars := by
  obtain ⟨shape, ht, hk⟩ := exists_of_kindOf? h
  cases shape with
  | scalar => exact mem_customScalars_iff.mpr ⟨ht, hbuiltin⟩
  | _ => nomatch hk

/-- A type is found by its name. -/
theorem WellNamed.get?_eq_some_iff (hc : c.WellNamed) {t : NamedType} :
    c.get? name = some t ↔ t ∈ c.types ∧ t.name = name :=
  find?_key_eq_some_iff hc.distinct

/-- With names distinct, looking a name up finds the entry that it was taken from. -/
theorem WellNamed.kindOf?_of_mem (hc : c.WellNamed) {shape : TypeShape}
    (h : ⟨name, shape⟩ ∈ c.types) : c.kindOf? name = some shape.kind := by
  rw [kindOf?, hc.get?_eq_some_iff.mpr ⟨h, rfl⟩, Option.map_some]

theorem WellNamed.kindOf?_of_mem_customScalars (hc : c.WellNamed) (h : name ∈ c.customScalars) :
    c.kindOf? name = some .scalar :=
  hc.kindOf?_of_mem (mem_customScalars_iff.mp h).1

/-- Two types of one name are the same. -/
theorem shape_unique (hdistinct : c.names.Nodup) {s s' : TypeShape}
    (h : ⟨name, s⟩ ∈ c.types) (h' : ⟨name, s'⟩ ∈ c.types) : s = s' :=
  congrArg NamedType.shape (eq_of_key_eq hdistinct h h' rfl)

theorem WellNamed.shape_unique (hc : c.WellNamed) {s s' : TypeShape}
    (h : ⟨name, s⟩ ∈ c.types) (h' : ⟨name, s'⟩ ∈ c.types) : s = s' :=
  Catalogue.shape_unique hc.distinct h h'

end Lookup

/-! ## Names by kind

The types of a kind are taken out of the list of all types, so their names are some of all names, in
the same order. Where no name occurs twice there, none does here. -/

section Distinct

variable {c : Catalogue}

theorem map_fst_filterMap_sublist {α : Type} {f : NamedType → Option (String × α)}
    (hf : ∀ t x, f t = some x → x.1 = t.name) (ts : List NamedType) :
    ((ts.filterMap f).map (·.1)).Sublist (ts.map (·.name)) := by
  induction ts with
  | nil => exact List.Sublist.refl _
  | cons t ts ih =>
    cases ht : f t with
    | none =>
      rw [List.filterMap_cons_none ht, List.map_cons]
      exact ih.cons _
    | some x =>
      rw [List.filterMap_cons_some ht, List.map_cons, List.map_cons, hf t x ht]
      exact ih.cons_cons _

/-- The views keep the order of the catalogue, so their names are as distinct as those are. -/
theorem names_objects_sublist (c : Catalogue) : (c.objects.map (·.1)).Sublist c.names := by
  refine map_fst_filterMap_sublist (fun ⟨n, shape⟩ x h => ?_) c.types
  cases shape with
  | object o =>
    obtain rfl := Option.some.inj h
    rfl
  | _ => nomatch h

theorem names_interfaces_sublist (c : Catalogue) : (c.interfaces.map (·.1)).Sublist c.names := by
  refine map_fst_filterMap_sublist (fun ⟨n, shape⟩ x h => ?_) c.types
  cases shape with
  | interface fields =>
    obtain rfl := Option.some.inj h
    rfl
  | _ => nomatch h

/-- No name is that of an interface and of an object. -/
theorem disjoint_names_interfaces_objects (hdistinct : c.names.Nodup) :
    List.Disjoint (c.interfaces.map (·.1)) (c.objects.map (·.1)) := by
  intro name hi ho
  obtain ⟨⟨n, fields⟩, hinterface, rfl⟩ := List.mem_map.mp hi
  obtain ⟨⟨m, o⟩, hobject, hname⟩ := List.mem_map.mp ho
  obtain rfl : m = n := hname
  nomatch shape_unique hdistinct (mem_interfaces_iff.mp hinterface) (mem_objects_iff.mp hobject)

/-- The fields of a type are found by its name. -/
theorem HasFields.unique (hdistinct : c.names.Nodup) {name : String} {fields fields' : List Field}
    (h : c.HasFields name fields) (h' : c.HasFields name fields') : fields = fields' := by
  cases h with
  | object ho =>
    have ho := mem_objects_iff.mp ho
    cases h' with
    | object ho' =>
      obtain rfl := TypeShape.object.inj (shape_unique hdistinct ho (mem_objects_iff.mp ho'))
      rfl
    | interface hi => nomatch shape_unique hdistinct ho (mem_interfaces_iff.mp hi)
  | interface hi =>
    have hi := mem_interfaces_iff.mp hi
    cases h' with
    | object ho => nomatch shape_unique hdistinct hi (mem_objects_iff.mp ho)
    | interface hi' =>
      exact TypeShape.interface.inj (shape_unique hdistinct hi (mem_interfaces_iff.mp hi'))

/-- A field of a type is found by its name. -/
theorem HasFields.field_unique (hc : c.WellNamed) {name : String} {fields : List Field}
    (h : c.HasFields name fields) {f g : Field} (hf : f ∈ fields) (hg : g ∈ fields)
    (hname : f.name = g.name) : f = g := by
  cases h with
  | object ho => exact eq_of_key_eq (hc.object_fields _ ho) hf hg hname
  | interface hi => exact eq_of_key_eq (hc.interface_fields _ hi) hf hg hname

end Distinct

/-! ## Loaded catalogues -/

/-- The catalogue of a valid document is well named. -/
theorem wellNamed_of_valid {document : Document} (hv : document.Valid) :
    document.lower.catalogue.WellNamed := by
  have hn := hv.nodup_allTypes
  have hdistinct {d : TypeDefinition} (hd : d ∈ allTypes document.definitions) :
      TypeBody.JointlyDistinct d.body.kind (bodiesOf document.definitions d) := by
    rcases List.mem_append.mp hd with hd | hd
    · exact jointlyDistinct_of_builtin hn hv.targets hd
    · exact hv.members_distinct d hd
  have hfields {d : TypeDefinition} (hd : d ∈ allTypes document.definitions) :
      ((((bodiesOf document.definitions d).flatMap (·.fields)).map (·.written)).map
        (·.name)).Nodup := by
    rw [List.map_map]
    exact (hdistinct hd).fields
  rw [Document.lower_eq_of_valid hv]
  refine ⟨?_, fun t ht => ?_, fun o ho => ?_, fun i hi => ?_, fun u hu m hm => ?_⟩
  · show ((entries _ _).map (·.name)).Nodup
    rw [entries, List.map_map]
    exact hn
  · obtain ⟨d, hd, rfl⟩ := List.mem_map.mp ht
    rcases List.mem_append.mp hd with hd | hd
    · -- None of the built-in scalars has such a name.
      obtain ⟨name, hname, rfl⟩ := List.mem_map.mp hd
      have hall : ∀ name ∈ builtinScalars, isReservedName name = false := by decide
      exact hall name hname
    · exact hv.names_not_reserved d (List.mem_filter.mp hd).1
  · obtain ⟨d, hd, hshape⟩ := exists_of_mem_entries (mem_objects_iff.mp ho)
    rw [TypeShape.object.inj hshape]
    exact hfields hd
  · obtain ⟨d, hd, hshape⟩ := exists_of_mem_entries (mem_interfaces_iff.mp hi)
    rw [TypeShape.interface.inj hshape]
    exact hfields hd
  · obtain ⟨d, hd, hshape⟩ := exists_of_mem_entries (mem_unions_iff.mp hu)
    rw [TypeShape.union.inj hshape] at hm
    obtain ⟨n, hn', rfl⟩ := List.mem_map.mp hm
    obtain ⟨b, hb, hnb⟩ := List.mem_flatMap.mp hn'
    rcases mem_bodies_of_mem_bodiesOf hd hb with rfl | hb
    · exact absurd hnb List.not_mem_nil
    · obtain ⟨k, hk, hne⟩ := hv.members b hb n hnb
      exact ⟨k, (kindOf?_entries_eq_some_iff hn).mpr hk, hne⟩

theorem load_wellNamed {text : String} {c : Catalogue} (h : load text = .ok c) : c.WellNamed := by
  obtain ⟨hv, rfl⟩ := load_eq_ok h
  exact wellNamed_of_valid hv

/-- The root of an operation is an object, whether it was bound or has the conventional name. -/
theorem kindOf?_root_of_load {text : String} {c : Catalogue} (h : load text = .ok c)
    {operation : Operation} {name : String} (hroot : c.roots.get operation = some name) :
    c.kindOf? name = some .object := by
  obtain ⟨hv, rfl⟩ := load_eq_ok h
  rw [Document.lower_eq_of_valid hv] at hroot ⊢
  rw [rootsOf, rootsAfter] at hroot
  by_cases habout : (Document.parse text).document.definitions.any (·.isAboutRoots) = true
  · rw [if_pos habout] at hroot
    obtain ⟨b, hb, -, rfl⟩ := (Roots.get_ofBindings_eq_some_iff hv.roots_once).mp hroot
    exact (kindOf?_entries_eq_some_iff hv.nodup_allTypes).mpr (hv.roots b hb)
  · rw [if_neg habout] at hroot
    exact (Catalogue.get_conventionalRoots_eq_some_iff.mp hroot).2

/-- The roots that carry no data are objects. -/
theorem kindOf?_of_isQueryOrMutation {text : String} {c : Catalogue} (h : load text = .ok c)
    {name : String} (hroot : c.roots.isQueryOrMutation name = true) :
    c.kindOf? name = some .object := by
  rw [Roots.isQueryOrMutation, Bool.or_eq_true, beq_iff_eq, beq_iff_eq] at hroot
  rcases hroot with hquery | hmutation
  · exact kindOf?_root_of_load h (show c.roots.get .query = some name from hquery)
  · exact kindOf?_root_of_load h (show c.roots.get .mutation = some name from hmutation)

end Catalogue

end ResolverContracts
