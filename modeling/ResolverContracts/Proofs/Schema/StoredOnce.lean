import ResolverContracts.Proofs.Schema.Registered
/-!
# What is stored, once

The catalogue of a document never has a name twice, valid or not: neither a type nor a member of a type
(`TypeShape.Distinct`). What a document writes is not lost silently either. `StoredOnce` is the relation
between the members written for a type and those stored: of each name the first is stored, as it is
written, and each other one has an error at its own name. The main statement is that this relation holds
for every sort of members of every type.

Both halves come from the same reading of the marks: what is stored are the members that are not marked
(`TypeShape.gathered`), and the marked ones are among the faults (`TypeBody.repetitions`).
-/

set_option autoImplicit false

namespace ResolverContracts

/-! ## The relation -/

/-- An error of a second member of one name, at the place of that name. -/
def Diagnostics.ReportRepeated (diagnostics : Diagnostics) (name : Name) : Prop :=
  ∃ d ∈ diagnostics.items, d.severity = .error ∧ d.code = Code.duplicateMember ∧
    ∃ label ∈ d.labels, label.span = name.span

/-- What becomes of the members `xs` that were written, when those stored are `ys`. `Stores x y` says that
`y` is what is stored of `x`. -/
structure StoredOnce {α β : Type} (key : α → Name) (name : β → String) (Stores : α → β → Prop)
    (diagnostics : Diagnostics) (xs : List α) (ys : List β) : Prop where
  /-- No name is stored twice. -/
  distinct : (ys.map name).Nodup
  /-- What is stored was written. -/
  written : ∀ y ∈ ys, ∃ x ∈ xs, Stores x y
  /-- The first member of a name is stored. -/
  first : ∀ before x after, xs = before ++ x :: after →
    (∀ w ∈ before, (key w).text ≠ (key x).text) → ∃ y ∈ ys, Stores x y
  /-- Any other one is reported. -/
  later : ∀ before x after, xs = before ++ x :: after →
    (∃ w ∈ before, (key w).text = (key x).text) → diagnostics.ReportRepeated (key x)

/-- What becomes of arguments or input fields. -/
def InputsStored (diagnostics : Diagnostics) (written : List InputDefinition)
    (stored : List InputValue) : Prop :=
  StoredOnce (·.name) (·.name) (fun d v => v = ⟨d.name.text, d.type.toRef⟩) diagnostics written stored

/-- A field is stored with its type, and of its arguments the first of each name are. -/
structure FieldStored (diagnostics : Diagnostics) (d : FieldDefinition) (f : Field) : Prop where
  name : f.name = d.name.text
  type : f.type = d.type.toRef
  arguments : InputsStored diagnostics d.arguments f.arguments

/-- What becomes of fields. -/
def FieldsStored (diagnostics : Diagnostics) (written : List FieldDefinition)
    (stored : List Field) : Prop :=
  StoredOnce (·.name) (·.name) (FieldStored diagnostics) diagnostics written stored

/-- What becomes of a list of names. -/
def NamesStored (diagnostics : Diagnostics) (written : List Name) (stored : List String) : Prop :=
  StoredOnce id id (fun n s => s = n.text) diagnostics written stored

/-- What becomes of the values of an enum. -/
def ValuesStored (diagnostics : Diagnostics) (written : List EnumValueDefinition)
    (stored : List String) : Prop :=
  StoredOnce (·.name) id (fun v s => s = v.name.text) diagnostics written stored

namespace TypeShape

/-- What becomes of the members of all bodies of a type. The interfaces of an interface are not kept. -/
def Stores (diagnostics : Diagnostics) (bodies : List TypeBody) : TypeShape → Prop
  | scalar => True
  | object o =>
    FieldsStored diagnostics (bodies.flatMap (·.fields)) o.fields ∧
      NamesStored diagnostics (bodies.flatMap (·.implementsNames)) o.implements
  | interface fields => FieldsStored diagnostics (bodies.flatMap (·.fields)) fields
  | union members => NamesStored diagnostics (bodies.flatMap (·.members)) members
  | enum values => ValuesStored diagnostics (bodies.flatMap (·.values)) values
  | inputObject fields => InputsStored diagnostics (bodies.flatMap (·.inputs)) fields

end TypeShape

/-- No two fields have one name, and no two arguments of one field. -/
def FieldsDistinct (fields : List Field) : Prop :=
  (fields.map (·.name)).Nodup ∧ ∀ f ∈ fields, (f.arguments.map (·.name)).Nodup

/-- No two members of one sort have one name. -/
def TypeShape.Distinct : TypeShape → Prop
  | scalar => True
  | object o => FieldsDistinct o.fields ∧ o.implements.Nodup
  | interface fields => FieldsDistinct fields
  | union members => members.Nodup
  | enum values => values.Nodup
  | inputObject fields => (fields.map (·.name)).Nodup

/-- The definition makes a type: it is the first of its name, and a built-in scalar has another name. -/
structure Definitions.Registers (ds : List Definition) (d : TypeDefinition) : Prop where
  not_builtin : isBuiltinScalar d.name.text = false
  first : ∃ before after, ds = before ++ .type d :: after ∧
    ∀ e ∈ typeDefinitions before, e.name.text ≠ d.name.text

/-- The type is what is stored of the definition and of the extensions of its name and kind. -/
structure Definitions.StoredAs (ds : List Definition) (diagnostics : Diagnostics) (d : TypeDefinition)
    (t : NamedType) : Prop where
  name : t.name = d.name.text
  kind : t.shape.kind = d.body.kind
  members : t.shape.Stores diagnostics (appliedBodies ds d)

/-! ## Stored members are distinct -/

section Distinct

variable {diagnostics : Diagnostics}

theorem FieldsStored.fieldsDistinct {written : List FieldDefinition} {stored : List Field}
    (h : FieldsStored diagnostics written stored) : FieldsDistinct stored := by
  refine ⟨StoredOnce.distinct h, fun f hf => ?_⟩
  obtain ⟨d, -, hd⟩ := StoredOnce.written h f hf
  exact StoredOnce.distinct hd.arguments

theorem NamesStored.nodup {written : List Name} {stored : List String}
    (h : NamesStored diagnostics written stored) : stored.Nodup :=
  List.map_id stored ▸ StoredOnce.distinct h

theorem TypeShape.Stores.distinct {bodies : List TypeBody} {s : TypeShape}
    (h : s.Stores diagnostics bodies) : s.Distinct := by
  cases s with
  | scalar => trivial
  | object o => exact ⟨FieldsStored.fieldsDistinct h.1, NamesStored.nodup h.2⟩
  | interface fields => exact FieldsStored.fieldsDistinct h
  | union members => exact NamesStored.nodup h
  | enum values => exact List.map_id values ▸ StoredOnce.distinct h
  | inputObject fields => exact StoredOnce.distinct h

end Distinct

/-! ## What bodies gather is stored once -/

section Gathered

variable {faults : List SchemaFault} {owner : String}

/-- A repeated member is reported at its name. -/
theorem reportRepeated_of_mem {sort : MemberSort} {name : Name}
    (h : .repeated sort owner name ∈ faults) :
    (Diagnostics.mk (faults.map (·.toDiagnostic))).ReportRepeated name :=
  ⟨_, List.mem_map.mpr ⟨_, h, rfl⟩, rfl, rfl, _, List.mem_cons_self, rfl⟩

/-- The items that are not marked are stored once, provided the marked ones are among the faults. -/
theorem storedOnce_untaken {α β : Type} {key : α → Name} {name : β → String} {store : α → β}
    {Stores : α → β → Prop} {written : List α} {sort : MemberSort}
    (hname : ∀ x, name (store x) = (key x).text)
    (hstores : ∀ x ∈ untaken key [] written, Stores x (store x))
    (hnoted : takenFaults sort owner key [] written ⊆ faults) :
    StoredOnce key name Stores ⟨faults.map (·.toDiagnostic)⟩ written
      ((untaken key [] written).map store) where
  distinct := by
    have hnames : ((untaken key [] written).map store).map name =
        [] ++ (untaken key [] written).map fun x => (key x).text := by
      rw [List.map_map, List.nil_append]
      exact List.map_congr_left fun x _ => hname x
    rw [hnames]
    exact nodup_names_untaken .nil
  written y hy := by
    obtain ⟨x, hx, rfl⟩ := List.mem_map.mp hy
    obtain ⟨-, before, after, rfl, -⟩ := exists_first_of_mem_untaken hx
    exact ⟨x, List.mem_append_right _ List.mem_cons_self, hstores x hx⟩
  -- The first item of a name is stored; each later one is a fault that was noted.
  first before x after hsplit hfirst := by
    have hx : x ∈ untaken key [] written := by
      rw [hsplit]
      exact mem_untaken_of_first List.not_mem_nil hfirst
    exact ⟨store x, List.mem_map.mpr ⟨x, hx, rfl⟩, hstores x hx⟩
  later before x after hsplit hlater := by
    have hfault : .repeated sort owner (key x) ∈ takenFaults sort owner key [] written := by
      rw [hsplit]
      exact repeated_mem_takenFaults hlater
    exact reportRepeated_of_mem (hnoted hfault)

theorem inputsStored_addedInputs {written : List InputDefinition} {sort : MemberSort}
    (h : takenFaults sort owner (·.name) [] written ⊆ faults) :
    InputsStored ⟨faults.map (·.toDiagnostic)⟩ written (addedInputs [] written) :=
  storedOnce_untaken (fun _ => rfl) (fun _ _ => rfl) h

theorem namesStored_addedNames {written : List Name} {sort : MemberSort}
    (h : takenFaults sort owner id [] written ⊆ faults) :
    NamesStored ⟨faults.map (·.toDiagnostic)⟩ written (addedNames [] written) :=
  storedOnce_untaken (fun _ => rfl) (fun _ _ => rfl) h

/-- The fields that are added are those whose names were free, and each of them has its arguments
stored once. -/
theorem fieldsStored_addedFields {written : List FieldDefinition}
    (h : fieldRepetitions owner [] written ⊆ faults) :
    FieldsStored ⟨faults.map (·.toDiagnostic)⟩ written (addedFields [] written) := by
  obtain ⟨hfields, harguments⟩ := List.append_subset.mp h
  refine storedOnce_untaken (fun _ => rfl) (fun d hd => ⟨rfl, rfl, ?_⟩) hfields
  -- A field that is kept has its arguments looked at.
  have hd : takenFaults .argument owner (·.name) [] d.arguments ⊆ faults := fun _ hfault =>
    harguments (List.mem_flatMap.mpr ⟨d, hd, hfault⟩)
  exact inputsStored_addedInputs hd

/-- **A type of any bodies** stores their members once, provided their repetitions are among the faults. -/
theorem TypeShape.stores_gathered {kind : Kind} {bodies : List TypeBody}
    (h : TypeBody.repetitions owner kind bodies ⊆ faults) :
    (TypeShape.gathered kind bodies).Stores ⟨faults.map (·.toDiagnostic)⟩ bodies := by
  cases kind with
  | scalar => trivial
  | object =>
    obtain ⟨hfields, hinterfaces⟩ := List.append_subset.mp h
    exact ⟨fieldsStored_addedFields hfields, namesStored_addedNames hinterfaces⟩
  | interface => exact fieldsStored_addedFields h
  | union => exact namesStored_addedNames h
  | enum =>
    show StoredOnce _ _ _ _ _ (addedNames [] _)
    rw [addedNames, untaken_id_map, List.map_map]
    exact storedOnce_untaken (fun _ => rfl) (fun _ _ => rfl) h
  | inputObject => exact inputsStored_addedInputs h

end Gathered

/-! ## The catalogue -/

namespace Definitions

/-- The definitions that make a type are the first ones of their names. -/
theorem mem_registered_iff {ds : List Definition} {d : TypeDefinition} :
    d ∈ registered ds ↔ Registers ds d := by
  have hbuiltin : isBuiltinScalar d.name.text = false ↔ d.name.text ∉ builtinScalars := by
    rw [isBuiltinScalar, Bool.eq_false_iff, Ne, List.contains_iff_mem]
  constructor
  · intro h
    obtain ⟨hfree, before, after, hsplit, hfirst⟩ := exists_first_of_mem_untaken h
    -- The split of the type definitions comes from one of all definitions.
    obtain ⟨ds₁, ds₂, rfl, hbefore, hafter⟩ := List.filterMap_eq_append_iff.mp hsplit
    obtain ⟨others, x, rest, rfl, hothers, hx, -⟩ := List.filterMap_eq_cons_iff.mp hafter
    obtain rfl := Definition.eq_of_typeDefinition? hx
    refine ⟨hbuiltin.mpr hfree, ds₁ ++ others, rest, (List.append_assoc _ _ _).symm, ?_⟩
    rw [typeDefinitions, List.filterMap_append, hbefore, List.filterMap_eq_nil_iff.mpr hothers,
      List.append_nil]
    exact hfirst
  · rintro ⟨hfree, before, after, rfl, hfirst⟩
    have hsplit : typeDefinitions (before ++ .type d :: after) =
        typeDefinitions before ++ d :: typeDefinitions after :=
      List.filterMap_append
    rw [registered, hsplit]
    exact mem_untaken_of_first (hbuiltin.mp hfree) hfirst

end Definitions

open Definitions

/-- **Stored once.** Whatever the document, no name stands for two types of its catalogue, the built-in
scalars come first, and no type has two members of one sort and one name. The other types are those of the
first definition of each name. They store the members of that definition and of the extensions of its name
and kind: of each name the first member, while every other one is reported at its own name. -/
theorem Document.lower_stores_once (document : Document) :
    let ds := document.definitions
    let types := document.lower.catalogue.types
    let diagnostics := document.lower.diagnostics
    (types.map (·.name)).Nodup ∧
      ["Int", "Float", "String", "Boolean", "ID"].map (⟨·, .scalar⟩) <+: types ∧
      (∀ t ∈ types, t.shape.Distinct) ∧
      (∀ t ∈ types, isBuiltinScalar t.name = false →
        ∃ d, Registers ds d ∧ StoredAs ds diagnostics d t) ∧
      ∀ d, Registers ds d → ∃ t ∈ types, StoredAs ds diagnostics d t := by
  intro ds types diagnostics
  obtain ⟨htypes, hnoted⟩ := Draft.gathers_ofDocument document
  have htypes : types = (storedTypes ds).map (gatheredEntry ds) := htypes
  have hstored (d : TypeDefinition) (hd : d ∈ storedTypes ds) :
      StoredAs ds diagnostics d (gatheredEntry ds d) := by
    -- The third round only adds faults.
    have hfaults := List.subset_append_of_subset_left
      ((Draft.ofDocument document).findings.references.filterMap (·.fault? document.lower.catalogue))
      (hnoted d hd)
    exact ⟨rfl, TypeShape.kind_gathered _ _, TypeShape.stores_gathered hfaults⟩
  rw [htypes]
  refine ⟨?_, ?_, ?_, ?_, fun d hd => ?_⟩
  · rw [List.map_map]
    exact nodup_storedTypes ds
  · rw [storedTypes, List.map_append]
    exact List.prefix_append _ _
  · rw [List.forall_mem_map]
    exact fun d hd => (hstored d hd).members.distinct
  · rw [List.forall_mem_map]
    intro d hd hbuiltin
    rcases List.mem_append.mp hd with hscalar | hregistered
    · rw [gatheredEntry, (isBuiltin_of_mem_builtinDefinitions hscalar).1] at hbuiltin
      cases hbuiltin
    · exact ⟨d, mem_registered_iff.mp hregistered, hstored d hd⟩
  · have hmem : d ∈ storedTypes ds := List.mem_append_right _ (mem_registered_iff.mpr hd)
    exact ⟨_, List.mem_map.mpr ⟨d, hmem, rfl⟩, hstored d hmem⟩

end ResolverContracts
