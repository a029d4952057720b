import ResolverContracts.Document.Basic
import ResolverContracts.Text.Interner
/-!
# The names of a document

Every name that a document mentions, in the order of the text: types, fields, arguments, values,
directives and object keys alike. A reader of the document that stores names by number sees exactly
these, so `Document.interner` is the store it ends with.
-/

set_option autoImplicit false

namespace ResolverContracts

mutual

/-- The names in a constant: enum values and the keys of objects. -/
def Value.names : Value → List Name
  | .enum name => [name]
  | .list items _ => Value.namesOfItems items
  | .object fields _ => Value.namesOfFields fields
  | .int .. | .float .. | .string .. | .bool .. | .null .. => []

/-- The names in a list of constants. -/
def Value.namesOfItems : List Value → List Name
  | [] => []
  | v :: vs => v.names ++ Value.namesOfItems vs

/-- The names in the fields of an object constant. -/
def Value.namesOfFields : List (Name × Value) → List Name
  | [] => []
  | (name, v) :: fs => name :: v.names ++ Value.namesOfFields fs

end

/-- The names in the use of a directive. -/
def Directive.names (d : Directive) : List Name :=
  d.name :: d.arguments.flatMap fun a => a.name :: a.value.names

/-- The names in the definition of an argument or input field. -/
def InputDefinition.names (d : InputDefinition) : List Name :=
  d.name :: d.type.leaf :: ((d.default.map Value.names).getD [] ++ d.directives.flatMap (·.names))

/-- The names in the definition of a field. -/
def FieldDefinition.names (d : FieldDefinition) : List Name :=
  d.name :: d.arguments.flatMap (·.names) ++ d.type.leaf :: d.directives.flatMap (·.names)

/-- The names in the definition of an enum value. -/
def EnumValueDefinition.names (d : EnumValueDefinition) : List Name :=
  d.name :: d.directives.flatMap (·.names)

/-- The interfaces that a type definition lists, which stand before its directives. -/
def TypeBody.implementsNames : TypeBody → List Name
  | .object implements _ | .interface implements _ => implements
  | _ => []

/-- The names in the parts of a type definition that stand behind its directives. -/
def TypeBody.memberNames : TypeBody → List Name
  | .scalar => []
  | .object _ fields | .interface _ fields => fields.flatMap (·.names)
  | .union members => members
  | .enum values => values.flatMap (·.names)
  | .inputObject fields => fields.flatMap (·.names)

/-- The names in a type definition. -/
def TypeDefinition.names (d : TypeDefinition) : List Name :=
  d.name :: d.body.implementsNames ++ d.directives.flatMap (·.names) ++ d.body.memberNames

/-- The names in a schema block. -/
def SchemaDefinition.names (d : SchemaDefinition) : List Name :=
  d.directives.flatMap (·.names) ++ d.operations.map (·.type)

/-- The names in a directive definition. Its places are no names. -/
def DirectiveDefinition.names (d : DirectiveDefinition) : List Name :=
  d.name :: d.arguments.flatMap (·.names)

/-- The names in a definition. -/
def Definition.names : Definition → List Name
  | .schema d | .schemaExtension d => d.names
  | .type d | .typeExtension d => d.names
  | .directive d => d.names

/-- The names in a document. -/
def Document.names (d : Document) : List Name := d.definitions.flatMap (·.names)

/-- The store of all names of a document. -/
def Document.interner (d : Document) : Interner := .ofNames (d.names.map (·.text))

end ResolverContracts
