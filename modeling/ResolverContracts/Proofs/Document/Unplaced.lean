import ResolverContracts.Document.Basic
/-!
# Documents apart from their places

Two readings of one document differ in their spans only. `unplaced` moves every span to the start of
the text, so that equality of the unplaced forms is equality of everything else: the definitions and
their order, names, contents of strings, constants, types, places of directives and flags.
-/

set_option autoImplicit false

namespace ResolverContracts

def Name.unplaced (n : Name) : Name := ⟨n.text, .emptyAt 0⟩

def Description.unplaced (d : Description) : Description := ⟨d.text, .emptyAt 0⟩

mutual

def Value.unplaced : Value → Value
  | .int n _ => .int n (.emptyAt 0)
  | .float literal _ => .float literal (.emptyAt 0)
  | .string contents _ => .string contents (.emptyAt 0)
  | .bool b _ => .bool b (.emptyAt 0)
  | .null _ => .null (.emptyAt 0)
  | .enum name => .enum name.unplaced
  | .list items _ => .list (Value.unplacedItems items) (.emptyAt 0)
  | .object fields _ => .object (Value.unplacedFields fields) (.emptyAt 0)

def Value.unplacedItems : List Value → List Value
  | [] => []
  | v :: vs => v.unplaced :: Value.unplacedItems vs

def Value.unplacedFields : List (Name × Value) → List (Name × Value)
  | [] => []
  | (name, v) :: fs => (name.unplaced, v.unplaced) :: Value.unplacedFields fs

end

/-- A field of an object constant apart from its place. -/
def Value.unplacedField (f : Name × Value) : Name × Value := (f.1.unplaced, f.2.unplaced)

@[simp] theorem Value.unplacedItems_eq (vs : List Value) :
    Value.unplacedItems vs = vs.map Value.unplaced := by
  induction vs with
  | nil => rfl
  | cons v vs ih => rw [Value.unplacedItems, ih, List.map_cons]

@[simp] theorem Value.unplacedFields_eq (fs : List (Name × Value)) :
    Value.unplacedFields fs = fs.map Value.unplacedField := by
  induction fs with
  | nil => rfl
  | cons f fs ih =>
    obtain ⟨name, v⟩ := f
    rw [Value.unplacedFields, ih, List.map_cons, Value.unplacedField]

def Argument.unplaced (a : Argument) : Argument := ⟨a.name.unplaced, a.value.unplaced, .emptyAt 0⟩

def Directive.unplaced (d : Directive) : Directive :=
  ⟨d.name.unplaced, d.arguments.map (·.unplaced), .emptyAt 0⟩

def TypeNode.unplaced : TypeNode → TypeNode
  | named name => .named name.unplaced
  | list item _ => .list item.unplaced (.emptyAt 0)
  | nonNull item _ => .nonNull item.unplaced (.emptyAt 0)

def InputDefinition.unplaced (d : InputDefinition) : InputDefinition where
  description := d.description.map (·.unplaced)
  name := d.name.unplaced
  type := d.type.unplaced
  default := d.default.map (·.unplaced)
  directives := d.directives.map (·.unplaced)
  span := .emptyAt 0

def FieldDefinition.unplaced (d : FieldDefinition) : FieldDefinition where
  description := d.description.map (·.unplaced)
  name := d.name.unplaced
  arguments := d.arguments.map (·.unplaced)
  type := d.type.unplaced
  directives := d.directives.map (·.unplaced)
  span := .emptyAt 0

def EnumValueDefinition.unplaced (d : EnumValueDefinition) : EnumValueDefinition where
  description := d.description.map (·.unplaced)
  name := d.name.unplaced
  directives := d.directives.map (·.unplaced)
  span := .emptyAt 0

def TypeBody.unplaced : TypeBody → TypeBody
  | scalar => .scalar
  | object implements fields => .object (implements.map (·.unplaced)) (fields.map (·.unplaced))
  | interface implements fields => .interface (implements.map (·.unplaced)) (fields.map (·.unplaced))
  | union members => .union (members.map (·.unplaced))
  | enum values => .enum (values.map (·.unplaced))
  | inputObject fields => .inputObject (fields.map (·.unplaced))

def TypeDefinition.unplaced (d : TypeDefinition) : TypeDefinition where
  description := d.description.map (·.unplaced)
  name := d.name.unplaced
  directives := d.directives.map (·.unplaced)
  body := d.body.unplaced
  span := .emptyAt 0

def RootBinding.unplaced (b : RootBinding) : RootBinding := ⟨b.operation, b.type.unplaced, .emptyAt 0⟩

def SchemaDefinition.unplaced (d : SchemaDefinition) : SchemaDefinition where
  description := d.description.map (·.unplaced)
  directives := d.directives.map (·.unplaced)
  operations := d.operations.map (·.unplaced)
  span := .emptyAt 0

def DirectiveDefinition.unplaced (d : DirectiveDefinition) : DirectiveDefinition where
  description := d.description.map (·.unplaced)
  name := d.name.unplaced
  arguments := d.arguments.map (·.unplaced)
  repeatable := d.repeatable
  locations := d.locations
  span := .emptyAt 0

def Definition.unplaced : Definition → Definition
  | schema d => .schema d.unplaced
  | schemaExtension d => .schemaExtension d.unplaced
  | type d => .type d.unplaced
  | typeExtension d => .typeExtension d.unplaced
  | directive d => .directive d.unplaced

/-- A document with every span moved to the start of the text. -/
def Document.unplaced (d : Document) : Document := ⟨d.definitions.map (·.unplaced), .emptyAt 0⟩

end ResolverContracts
