import ResolverContracts.Contract.Resolution
import ResolverContracts.Proofs.Document.Marks
import ResolverContracts.Proofs.Schema.Loaded
/-!
# References of a loaded schema

A reference has a type expression when its marks are in order and the name at its bottom is that of a
type. Both hold of every reference in a catalogue that was loaded from a text (`Catalogue.load_sound`),
for different reasons. The marks are in order because the reader of types keeps them so, and
lowering changes no level of a type. The names are there because lowering looks up every one that any
body mentions, whether the body belongs to a definition or to an extension.
-/

set_option autoImplicit false

namespace ResolverContracts

/-! ## What a type refers to -/

/-- Nowhere is a non-null mark directly on a non-null mark. -/
def TypeRef.SingleMarks : TypeRef → Prop
  | named _ => True
  | list item => item.SingleMarks
  | nonNull item => item.isNonNull = false ∧ item.SingleMarks

/-- Lowering keeps marks in order. -/
theorem TypeNode.SingleMarks.toRef {t : TypeNode} (h : t.SingleMarks) : t.toRef.SingleMarks := by
  induction t with
  | named name => trivial
  | list item span ih => exact ih h
  | nonNull item span ih =>
    -- The item has no mark before lowering, and lowering adds none.
    refine ⟨?_, ih h.2⟩
    have hitem := h.1
    cases item with
    | nonNull inner span' => nomatch hitem
    | named name => rfl
    | list inner span' => rfl

/-- The types that a field mentions: its own and those of its arguments. -/
def Field.refs (f : Field) : List TypeRef := f.type :: f.arguments.map (·.type)

namespace TypeShape

/-- The types that fields, arguments and input fields mention. -/
def refs : TypeShape → List TypeRef
  | object o => o.fields.flatMap (·.refs)
  | interface fields => fields.flatMap (·.refs)
  | inputObject fields => fields.map (·.type)
  | scalar | union _ | enum _ => []

/-- The members of a union. -/
def members : TypeShape → List String
  | union members => members
  | _ => []

end TypeShape

/-- Every reference of the catalogue can be followed: marks are in order, and names are those of
types. -/
structure Catalogue.Sound (c : Catalogue) : Prop where
  marks : ∀ t ∈ c.types, ∀ r ∈ t.shape.refs, r.SingleMarks
  leaves : ∀ t ∈ c.types, ∀ r ∈ t.shape.refs, (c.kindOf? r.leaf).isSome = true
  members : ∀ t ∈ c.types, ∀ m ∈ t.shape.members, (c.kindOf? m).isSome = true

/-! ## Loaded catalogues -/

/-- The types that a body mentions, as they are written. -/
def TypeBody.types (b : TypeBody) : List TypeNode :=
  (b.fields.flatMap fun f => f.type :: f.arguments.map (·.type)) ++ b.inputs.map (·.type)

/-- The references of a field as it is written. -/
theorem FieldDefinition.refs_written (d : FieldDefinition) :
    d.written.refs = (d.type :: d.arguments.map (·.type)).map (·.toRef) := by
  rw [Field.refs, written, List.map_cons, List.map_map, List.map_map]
  rfl

/-- What a type mentions, one of its bodies mentions. -/
theorem TypeShape.exists_of_mem_refs_ofBodies {kind : Kind} {bodies : List TypeBody} {r : TypeRef}
    (h : r ∈ (ofBodies kind bodies).refs) : ∃ b ∈ bodies, ∃ t ∈ b.types, t.toRef = r := by
  have hfields (hr : r ∈ ((bodies.flatMap (·.fields)).map (·.written)).flatMap (·.refs)) :
      ∃ b ∈ bodies, ∃ t ∈ b.types, t.toRef = r := by
    obtain ⟨field, hfield, hr⟩ := List.mem_flatMap.mp hr
    obtain ⟨f, hf, rfl⟩ := List.mem_map.mp hfield
    obtain ⟨b, hb, hf⟩ := List.mem_flatMap.mp hf
    rw [f.refs_written] at hr
    obtain ⟨t, ht, rfl⟩ := List.mem_map.mp hr
    exact ⟨b, hb, t, List.mem_append_left _ (List.mem_flatMap.mpr ⟨f, hf, ht⟩), rfl⟩
  cases kind with
  | object => exact hfields h
  | interface => exact hfields h
  | inputObject =>
    obtain ⟨value, hvalue, rfl⟩ := List.mem_map.mp h
    obtain ⟨i, hi, rfl⟩ := List.mem_map.mp hvalue
    obtain ⟨b, hb, hi⟩ := List.mem_flatMap.mp hi
    exact ⟨b, hb, i.type, List.mem_append_right _ (List.mem_map_of_mem hi), rfl⟩
  | scalar => nomatch h
  | union => nomatch h
  | enum => nomatch h

/-- The members of a union are those its bodies list. -/
theorem TypeShape.exists_of_mem_members_ofBodies {kind : Kind} {bodies : List TypeBody} {m : String}
    (h : m ∈ (ofBodies kind bodies).members) : ∃ b ∈ bodies, ∃ n ∈ b.members, n.text = m := by
  cases kind with
  | union =>
    obtain ⟨n, hn, rfl⟩ := List.mem_map.mp h
    obtain ⟨b, hb, hn⟩ := List.mem_flatMap.mp hn
    exact ⟨b, hb, n, hn, rfl⟩
  | _ => nomatch h

namespace Definitions

variable {ds : List Definition}

/-- In a schema, the name of every type that a body mentions is declared. -/
theorem Valid.declares_leaf (hv : Valid ds) {b : TypeBody} (hb : b ∈ bodies ds) {t : TypeNode}
    (ht : t ∈ b.types) : ∃ k, Declares ds t.leaf.text k := by
  rcases List.mem_append.mp ht with ht | ht
  · obtain ⟨f, hf, ht⟩ := List.mem_flatMap.mp ht
    rcases List.mem_cons.mp ht with rfl | ht
    · exact (hv.outputs b hb f hf).imp fun k hk => hk.1
    · obtain ⟨a, ha, rfl⟩ := List.mem_map.mp ht
      exact (hv.arguments b hb f hf a ha).imp fun k hk => hk.1
  · obtain ⟨i, hi, rfl⟩ := List.mem_map.mp ht
    exact (hv.inputs b hb i hi).imp fun k hk => hk.1

end Definitions

/-- The types of a body whose marks are in order. -/
theorem TypeBody.SingleMarks.of_mem_types {b : TypeBody} (hb : b.SingleMarks) {t : TypeNode}
    (ht : t ∈ b.types) : t.SingleMarks := by
  rcases List.mem_append.mp ht with ht | ht
  · obtain ⟨f, hf, ht⟩ := List.mem_flatMap.mp ht
    rcases List.mem_cons.mp ht with rfl | ht
    · exact (hb.1 f hf).1
    · obtain ⟨a, ha, rfl⟩ := List.mem_map.mp ht
      exact (hb.1 f hf).2 a ha
  · obtain ⟨i, hi, rfl⟩ := List.mem_map.mp ht
    exact hb.2 i hi

open Definitions

/-- The catalogue of a schema is sound when the marks in its text are in order. -/
theorem Document.lower_sound {document : Document} (hv : document.Valid)
    (hmarks : ∀ b ∈ bodies document.definitions, b.SingleMarks) : document.lower.catalogue.Sound := by
  have hkind {name : String} (h : ∃ k, Declares document.definitions name k) :
      ((Catalogue.mk (entries document.definitions document.definitions)
        (rootsOf document.definitions)).kindOf? name).isSome = true := by
    obtain ⟨k, hk⟩ := h
    rw [(kindOf?_entries_eq_some_iff hv.nodup_allTypes).mpr hk]
    rfl
  -- A type that the catalogue mentions comes from a body of the document.
  have hrefs {d : TypeDefinition} (hd : d ∈ allTypes document.definitions) {r : TypeRef}
      (hr : r ∈ (entry document.definitions d).shape.refs) :
      ∃ b ∈ bodies document.definitions, ∃ t ∈ b.types, t.toRef = r := by
    obtain ⟨b, hb, t, ht, rfl⟩ := TypeShape.exists_of_mem_refs_ofBodies hr
    rcases mem_bodies_of_mem_bodiesOf hd hb with rfl | hb
    · exact nomatch ht
    · exact ⟨b, hb, t, ht, rfl⟩
  rw [lower_eq_of_valid hv]
  refine ⟨fun entry hentry r hr => ?_, fun entry hentry r hr => ?_, fun entry hentry m hm => ?_⟩
  · obtain ⟨d, hd, rfl⟩ := List.mem_map.mp hentry
    obtain ⟨b, hb, t, ht, rfl⟩ := hrefs hd hr
    exact ((hmarks b hb).of_mem_types ht).toRef
  · obtain ⟨d, hd, rfl⟩ := List.mem_map.mp hentry
    obtain ⟨b, hb, t, ht, rfl⟩ := hrefs hd hr
    rw [t.leaf_toRef]
    exact hkind (hv.declares_leaf hb ht)
  · obtain ⟨d, hd, rfl⟩ := List.mem_map.mp hentry
    obtain ⟨b, hb, n, hn, rfl⟩ := TypeShape.exists_of_mem_members_ofBodies hm
    rcases mem_bodies_of_mem_bodiesOf hd hb with rfl | hb
    · exact nomatch hn
    · exact hkind ((hv.members b hb n hn).imp fun k hk => hk.1)

/-- **Loaded catalogues.** Every reference in a catalogue that was loaded from a text can be
followed. -/
theorem Catalogue.load_sound {text : String} {c : Catalogue} (h : load text = .ok c) : c.Sound := by
  obtain ⟨hv, rfl⟩ := load_eq_ok h
  exact Document.lower_sound hv (Document.singleMarks_parse text)

/-! ## Type expressions -/

namespace Project

variable {p : Project}

/-- A name that some type has gets a type expression. -/
theorem exists_mapNamed {name : String} (h : (p.catalogue.kindOf? name).isSome = true) :
    ∃ type, p.mapNamed name = .ok type := by
  obtain ⟨k, hk⟩ := Option.isSome_iff_exists.mp h
  rw [mapNamed, hk]
  cases k with
  | _ => exact ⟨_, rfl⟩

/-- A reference whose marks are in order and whose name some type has gets a type expression, level by
level. The induction is on the levels: a mark in order leaves an item without one, and the item has
the same name at its bottom. -/
theorem exists_mapLevel (access : Access) {r : TypeRef} (hmarks : r.SingleMarks)
    (hleaf : (p.catalogue.kindOf? r.leaf).isSome = true) : ∃ level, p.mapLevel access r = .ok level := by
  induction r with
  | named name =>
    have hname : (p.catalogue.kindOf? name).isSome = true := hleaf
    obtain ⟨type, htype⟩ := exists_mapNamed hname
    rw [mapLevel, htype]
    exact ⟨_, rfl⟩
  | list item ih =>
    obtain ⟨level, hlevel⟩ := ih hmarks hleaf
    rw [mapLevel, hlevel]
    exact ⟨_, rfl⟩
  | nonNull item ih =>
    obtain ⟨level, hlevel⟩ := ih hmarks.2 hleaf
    rw [mapLevel, if_neg (by simp [hmarks.1]), hlevel]
    exact ⟨_, rfl⟩

/-- The reference has a type in all its uses. -/
def Maps (p : Project) (r : TypeRef) : Prop := ∀ access, ∃ type, p.mapType access r = .ok type

/-- Wherever a type is needed for a reference, there is one. -/
structure Resolves (p : Project) : Prop where
  refs : ∀ t ∈ p.catalogue.types, ∀ r ∈ t.shape.refs, p.Maps r
  members : ∀ t ∈ p.catalogue.types, ∀ m ∈ t.shape.members, ∃ type, p.mapNamed m = .ok type

/-- Over a sound catalogue, all references have types, whatever the user says. -/
theorem resolves_of_sound (h : p.catalogue.Sound) : p.Resolves := by
  refine ⟨fun t ht r hr access => ?_, fun t ht m hm => exists_mapNamed (h.members t ht m hm)⟩
  obtain ⟨level, hlevel⟩ := exists_mapLevel access (h.marks t ht r hr) (h.leaves t ht r hr)
  rw [mapType, hlevel]
  exact ⟨_, rfl⟩

end Project

end ResolverContracts
