import ResolverContracts.Document.Names
/-!
# The places of a document

For most questions about places it does not matter what a node of a document means. An `Extent` keeps
of a node its span, the span of the description in front of it, its names, and its parts in the order
of the text, and every node of a document has one (`Document.extent`).

Two things can be asked of an extent. It is `Sound` for a text if all its spans run forward and end no
more than one byte behind the text, and every name has the text that its span covers. It is `Nested`
if no name is empty, every node covers its parts, and parts follow each other. Soundness is what one can
ask of a document with faults; one without faults is nested too.
-/

set_option autoImplicit false

namespace ResolverContracts

/-- A span that runs forward and leaves a text by no more than one byte. -/
def Span.Fits (text : List Char) (s : Span) : Prop :=
  s.start ≤ s.stop ∧ s.stop ≤ byteLength text + 1

/-! ## Extents -/

/-- A node of a document by its places. -/
inductive Extent
  | name (name : Name)
  /-- `front` is the place of the description, which is in front of the node. -/
  | node (front : Option Span) (span : Span) (parts : List Extent)

namespace Extent

/-- The place of a node without its description. -/
def span : Extent → Span
  | name n => n.span
  | node _ span _ => span

/-- Where a node starts, its description included. -/
def first : Extent → Nat
  | name n => n.span.start
  | node front span _ => (front.getD span).start

mutual

/-- The names in a node, in the order of the text. -/
def names : Extent → List Name
  | name n => [n]
  | node _ _ parts => namesOfParts parts

/-- The names in the parts of a node. -/
def namesOfParts : List Extent → List Name
  | [] => []
  | e :: es => e.names ++ namesOfParts es

end

/-- The recursion over the parts of an extent is a `flatMap`, which the library has lemmas about. -/
theorem namesOfParts_eq (es : List Extent) : namesOfParts es = es.flatMap names := by
  induction es with
  | nil => rfl
  | cons e es ih => rw [namesOfParts, ih, List.flatMap_cons]

@[simp] theorem names_name (n : Name) : (name n).names = [n] := by rw [names]

@[simp] theorem names_node (front : Option Span) (span : Span) (parts : List Extent) :
    (node front span parts).names = parts.flatMap names := by
  rw [names, namesOfParts_eq]

/-! ## Sound and nested extents -/

/-- All spans fit the text, and the names are what their spans cover. -/
inductive Sound (text : List Char) : Extent → Prop
  | name {n : Name} (hspan : n.span.Fits text) (htext : n.span.slice text = n.text.toList) :
      Sound text (name n)
  | node {front : Option Span} {span : Span} {parts : List Extent}
      (hfront : ∀ s ∈ front, s.Fits text) (hspan : span.Fits text)
      (hparts : ∀ p ∈ parts, Sound text p) : Sound text (node front span parts)

/-- Nodes cover their parts, the parts follow each other, and no name is empty. A description ends
before what it describes starts. -/
inductive Nested : Extent → Prop
  | name {n : Name} (hspan : n.span.start < n.span.stop) : Nested (name n)
  | node {front : Option Span} {span : Span} {parts : List Extent}
      (hfront : ∀ s ∈ front, s.start ≤ s.stop ∧ s.stop ≤ span.start)
      (hspan : span.start ≤ span.stop)
      (hwithin : ∀ p ∈ parts, span.start ≤ p.first ∧ p.span.stop ≤ span.stop)
      (hordered : parts.Pairwise fun p later => p.span.stop ≤ later.first)
      (hparts : ∀ p ∈ parts, Nested p) : Nested (node front span parts)

/-- Every name in a sound node is what its span covers. -/
theorem Sound.slice_name {text : List Char} {e : Extent} (h : e.Sound text) :
    ∀ n ∈ e.names, n.span.slice text = n.text.toList := by
  induction h with
  | name _ htext =>
    rw [names_name]
    exact List.forall_mem_singleton.mpr htext
  | node _ _ _ ih =>
    rw [names_node]
    intro n hn
    obtain ⟨p, hp, hn⟩ := List.mem_flatMap.mp hn
    exact ih p hp n hn

/-- No node runs backwards, with its description or without. -/
theorem Nested.first_le_stop {e : Extent} (h : e.Nested) : e.first ≤ e.span.stop := by
  cases h with
  | name hspan => exact Nat.le_of_lt hspan
  | @node front span parts hfront hspan _ _ _ =>
    cases front with
    | none => exact hspan
    | some s =>
      obtain ⟨hs, hstop⟩ := hfront s rfl
      exact Nat.le_trans hs (Nat.le_trans hstop hspan)

/-- Nested extents that follow each other between two places. -/
structure InRow (es : List Extent) (start stop : Nat) : Prop where
  nested : ∀ e ∈ es, e.Nested
  within : ∀ e ∈ es, start ≤ e.first ∧ e.span.stop ≤ stop
  ordered : es.Pairwise fun e later => e.span.stop ≤ later.first

namespace InRow

variable {es fs : List Extent} {e : Extent} {start stop middle : Nat}

theorem nil : InRow [] start stop :=
  ⟨List.forall_mem_nil _, List.forall_mem_nil _, .nil⟩

theorem singleton (hnested : e.Nested) (hstart : start ≤ e.first) (hstop : e.span.stop ≤ stop) :
    InRow [e] start stop :=
  ⟨List.forall_mem_singleton.mpr hnested, List.forall_mem_singleton.mpr ⟨hstart, hstop⟩,
    List.pairwise_singleton ..⟩

theorem mono (h : InRow es start stop) {start' stop' : Nat} (hstart : start' ≤ start)
    (hstop : stop ≤ stop') : InRow es start' stop' := by
  refine ⟨h.nested, fun e he => ?_, h.ordered⟩
  obtain ⟨hfirst, hlast⟩ := h.within e he
  exact ⟨Nat.le_trans hstart hfirst, Nat.le_trans hlast hstop⟩

/-- One row behind the other. -/
theorem append {start' stop' : Nat} (h : InRow es start stop) (hlater : InRow fs start' stop')
    (hmiddle : stop ≤ start') (hstart : start ≤ start') (hstop : stop ≤ stop') :
    InRow (es ++ fs) start stop' := by
  have hfront := h.mono (Nat.le_refl start) hstop
  have hback := hlater.mono hstart (Nat.le_refl stop')
  refine ⟨List.forall_mem_append.mpr ⟨hfront.nested, hback.nested⟩,
    List.forall_mem_append.mpr ⟨hfront.within, hback.within⟩,
    List.pairwise_append.mpr ⟨h.ordered, hlater.ordered, fun e he f hf => ?_⟩⟩
  calc e.span.stop ≤ stop := (h.within e he).2
    _ ≤ start' := hmiddle
    _ ≤ f.first := (hlater.within f hf).1

/-- A row that is not empty takes place. -/
theorem start_le_stop (h : InRow (e :: es) start stop) : start ≤ stop := by
  have hnested := h.nested e List.mem_cons_self
  obtain ⟨hfirst, hlast⟩ := h.within e List.mem_cons_self
  exact Nat.le_trans hfirst (Nat.le_trans hnested.first_le_stop hlast)

end InRow

end Extent

/-! ## Extents of documents -/

/-- The place of a description that may be missing. -/
def frontOf (description : Option Description) : Option Span := description.map (·.span)

mutual

/-- The extent of a constant. -/
def Value.extent : Value → Extent
  | .enum name => .name name
  | .list items span => .node none span (Value.extentsOfItems items)
  | .object fields span => .node none span (Value.extentsOfFields fields)
  | .int _ span | .float _ span | .string _ span | .bool _ span | .null span => .node none span []

/-- The extents of a list of constants. -/
def Value.extentsOfItems : List Value → List Extent
  | [] => []
  | v :: vs => v.extent :: Value.extentsOfItems vs

/-- The extents of keys and their constants. -/
def Value.extentsOfFields : List (Name × Value) → List Extent
  | [] => []
  | (name, v) :: fs => .name name :: v.extent :: Value.extentsOfFields fs

end

theorem Value.extentsOfItems_eq (vs : List Value) :
    extentsOfItems vs = vs.flatMap fun v => [v.extent] := by
  induction vs with
  | nil => rfl
  | cons v vs ih => rw [extentsOfItems, ih, List.flatMap_cons]; rfl

/-- A field of an object value gives two extents in the row: its key, then its value. -/
theorem Value.extentsOfFields_eq (fs : List (Name × Value)) :
    extentsOfFields fs = fs.flatMap fun f => [.name f.1, f.2.extent] := by
  induction fs with
  | nil => rfl
  | cons f fs ih => rw [extentsOfFields, ih, List.flatMap_cons]; rfl

/-- The extent of a type. -/
def TypeNode.extent : TypeNode → Extent
  | named name => .name name
  | list item span | nonNull item span => .node none span [item.extent]

/-- The extent of an argument. -/
def Argument.extent (a : Argument) : Extent := .node none a.span [.name a.name, a.value.extent]

/-- The extent of the use of a directive. -/
def Directive.extent (d : Directive) : Extent :=
  .node none d.span ([.name d.name] ++ d.arguments.map (·.extent))

/-- The extent of the definition of an argument or input field. -/
def InputDefinition.extent (d : InputDefinition) : Extent :=
  .node (frontOf d.description) d.span
    ([.name d.name] ++ [d.type.extent] ++ d.default.toList.map (·.extent) ++
      d.directives.map (·.extent))

/-- The extent of the definition of a field. -/
def FieldDefinition.extent (d : FieldDefinition) : Extent :=
  .node (frontOf d.description) d.span
    ([.name d.name] ++ d.arguments.map (·.extent) ++ [d.type.extent] ++ d.directives.map (·.extent))

/-- The extent of the definition of an enum value. -/
def EnumValueDefinition.extent (d : EnumValueDefinition) : Extent :=
  .node (frontOf d.description) d.span ([.name d.name] ++ d.directives.map (·.extent))

/-- The extents of the parts of a type definition that stand behind its directives. -/
def TypeBody.memberExtents : TypeBody → List Extent
  | .scalar => []
  | .object _ fields | .interface _ fields => fields.map (·.extent)
  | .union members => members.map .name
  | .enum values => values.map (·.extent)
  | .inputObject fields => fields.map (·.extent)

/-- The extent of a type definition. -/
def TypeDefinition.extent (d : TypeDefinition) : Extent :=
  .node (frontOf d.description) d.span
    ([.name d.name] ++ d.body.implementsNames.map .name ++ d.directives.map (·.extent) ++
      d.body.memberExtents)

/-- The extent of the binding of an operation. -/
def RootBinding.extent (b : RootBinding) : Extent := .node none b.span [.name b.type]

/-- The extent of a schema block. -/
def SchemaDefinition.extent (d : SchemaDefinition) : Extent :=
  .node (frontOf d.description) d.span (d.directives.map (·.extent) ++ d.operations.map (·.extent))

/-- The extent of a directive definition. -/
def DirectiveDefinition.extent (d : DirectiveDefinition) : Extent :=
  .node (frontOf d.description) d.span ([.name d.name] ++ d.arguments.map (·.extent))

/-- The extent of a definition. -/
def Definition.extent : Definition → Extent
  | .schema d | .schemaExtension d => d.extent
  | .type d | .typeExtension d => d.extent
  | .directive d => d.extent

/-- The extent of a document. -/
def Document.extent (d : Document) : Extent := .node none d.span (d.definitions.map (·.extent))

/-! ## Names of extents -/

mutual

/-- The extent of a value has the names of the value: the enum values and variables in it, and the keys
of its objects. From here on each construct takes this over from its parts, up to the document. -/
@[simp] theorem Value.names_extent (v : Value) : v.extent.names = v.names := by
  cases v with
  | list items span => rw [extent, Extent.names_node, names, names_extentsOfItems items]
  | object fields span => rw [extent, Extent.names_node, names, names_extentsOfFields fields]
  | _ => simp [extent, names]

theorem Value.names_extentsOfItems (vs : List Value) :
    (extentsOfItems vs).flatMap (·.names) = namesOfItems vs := by
  cases vs with
  | nil => rfl
  | cons v vs =>
    rw [extentsOfItems, namesOfItems, List.flatMap_cons, names_extent v, names_extentsOfItems vs]

theorem Value.names_extentsOfFields (fs : List (Name × Value)) :
    (extentsOfFields fs).flatMap (·.names) = namesOfFields fs := by
  match fs with
  | [] => rfl
  | (name, v) :: fs =>
    rw [extentsOfFields, namesOfFields, List.flatMap_cons, List.flatMap_cons, names_extent v,
      names_extentsOfFields fs]
    simp

end

@[simp] theorem TypeNode.names_extent (t : TypeNode) : t.extent.names = [t.leaf] := by
  induction t with
  | named name => simp [extent, leaf]
  | list item span ih => simp [extent, leaf, ih]
  | nonNull item span ih => simp [extent, leaf, ih]

@[simp] theorem Argument.names_extent (a : Argument) : a.extent.names = a.name :: a.value.names := by
  simp [extent]

@[simp] theorem Directive.names_extent (d : Directive) : d.extent.names = d.names := by
  simp [extent, names, List.flatMap_map]

@[simp] theorem InputDefinition.names_extent (d : InputDefinition) : d.extent.names = d.names := by
  cases hdefault : d.default <;> simp [extent, names, List.flatMap_map, hdefault]

@[simp] theorem FieldDefinition.names_extent (d : FieldDefinition) : d.extent.names = d.names := by
  simp [extent, names, List.flatMap_map]

@[simp] theorem EnumValueDefinition.names_extent (d : EnumValueDefinition) :
    d.extent.names = d.names := by
  simp [extent, names, List.flatMap_map]

@[simp] theorem TypeBody.names_memberExtents (b : TypeBody) :
    b.memberExtents.flatMap (·.names) = b.memberNames := by
  cases b <;> simp [memberExtents, memberNames, List.flatMap_map]

@[simp] theorem TypeDefinition.names_extent (d : TypeDefinition) : d.extent.names = d.names := by
  simp [extent, names, List.flatMap_map]

@[simp] theorem RootBinding.names_extent (b : RootBinding) : b.extent.names = [b.type] := by
  simp [extent]

@[simp] theorem SchemaDefinition.names_extent (d : SchemaDefinition) : d.extent.names = d.names := by
  simp [extent, names, List.flatMap_map, ← List.map_eq_flatMap]

@[simp] theorem DirectiveDefinition.names_extent (d : DirectiveDefinition) :
    d.extent.names = d.names := by
  simp [extent, names, List.flatMap_map]

@[simp] theorem Definition.names_extent (d : Definition) : d.extent.names = d.names := by
  cases d <;> simp [extent, names]

/-- The extent of a document has the names of the document. -/
theorem Document.names_extent (d : Document) : d.extent.names = d.names := by
  simp [extent, names, List.flatMap_map]

end ResolverContracts
