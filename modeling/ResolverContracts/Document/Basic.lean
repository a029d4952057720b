import ResolverContracts.Text.Span
import ResolverContracts.Document.Kind
import ResolverContracts.Document.Location
/-!
# Documents

A document is what a schema text says before anyone asks whether it makes sense: its definitions in
the order of the text, each part with the span it was read from. A name carries its own text. Where
a name was required and another token stood there, the name has the text of that token, so that a
document can be read off any text at all.

Strings are kept as written, without their quotes. Numbers with a point or an exponent keep their
literal, because their value is a matter of a number format and not of the document.
-/

set_option autoImplicit false

namespace ResolverContracts

/-- A name and its place. -/
structure Name where
  text : String
  span : Span
  deriving DecidableEq, Inhabited

/-- A description: the contents of a string in front of what it describes, and the place of the
string with its quotes. -/
structure Description where
  text : String
  span : Span

/-- A constant. -/
inductive Value
  | int (value : Int) (span : Span)
  | float (literal : String) (span : Span)
  | string (contents : String) (span : Span)
  | bool (value : Bool) (span : Span)
  | null (span : Span)
  | enum (name : Name)
  | list (items : List Value) (span : Span)
  | object (fields : List (Name × Value)) (span : Span)

/-- An argument given to a directive. -/
structure Argument where
  name : Name
  value : Value
  span : Span

/-- A directive applied to something. -/
structure Directive where
  name : Name
  arguments : List Argument
  span : Span

/-- A type as it is written. -/
inductive TypeNode
  | named (name : Name)
  | list (item : TypeNode) (span : Span)
  | nonNull (item : TypeNode) (span : Span)
  deriving DecidableEq

namespace TypeNode

/-- The name under all lists and non-null marks. -/
def leaf : TypeNode → Name
  | named name => name
  | list item _ | nonNull item _ => item.leaf

/-- The place of the whole. -/
def span : TypeNode → Span
  | named name => name.span
  | list _ span | nonNull _ span => span

end TypeNode

/-- An argument that a field or a directive takes, or a field of an input object. -/
structure InputDefinition where
  description : Option Description
  name : Name
  type : TypeNode
  default : Option Value
  directives : List Directive
  span : Span

/-- A field of an object or an interface. -/
structure FieldDefinition where
  description : Option Description
  name : Name
  arguments : List InputDefinition
  type : TypeNode
  directives : List Directive
  span : Span

/-- A value of an enum. -/
structure EnumValueDefinition where
  description : Option Description
  name : Name
  directives : List Directive
  span : Span

/-- What a type definition says beyond its name. -/
inductive TypeBody
  | scalar
  | object (implements : List Name) (fields : List FieldDefinition)
  | interface (implements : List Name) (fields : List FieldDefinition)
  | union (members : List Name)
  | enum (values : List EnumValueDefinition)
  | inputObject (fields : List InputDefinition)

/-- The kind of type that a body describes. -/
def TypeBody.kind : TypeBody → Kind
  | scalar => .scalar
  | object .. => .object
  | interface .. => .interface
  | union .. => .union
  | enum .. => .enum
  | inputObject .. => .inputObject

/-- A type definition, or the part that an extension adds to one. -/
structure TypeDefinition where
  description : Option Description
  name : Name
  directives : List Directive
  body : TypeBody
  span : Span

/-- The binding of an operation to its root type. -/
structure RootBinding where
  operation : Operation
  type : Name
  span : Span

/-- A schema block, or the part that a schema extension adds. -/
structure SchemaDefinition where
  description : Option Description
  directives : List Directive
  operations : List RootBinding
  span : Span

/-- A directive definition. -/
structure DirectiveDefinition where
  description : Option Description
  name : Name
  arguments : List InputDefinition
  repeatable : Bool
  locations : List Location
  span : Span

/-- A definition at the top of a document. -/
inductive Definition
  | schema (definition : SchemaDefinition)
  | schemaExtension (definition : SchemaDefinition)
  | type (definition : TypeDefinition)
  | typeExtension (definition : TypeDefinition)
  | directive (definition : DirectiveDefinition)

/-- A schema text as its definitions. -/
structure Document where
  definitions : List Definition
  span : Span

end ResolverContracts
