import ResolverContracts.Document.Basic
import ResolverContracts.Proofs.Schema.Bodies
/-!
# Valid documents

When a document is a schema, said of its definitions as they stand, with no catalogue in sight. The
rules speak of all definitions at once: which names are declared as which kind (`Declares`), and which
bodies make up a type wherever they stand (`bodiesOf`). Nothing here depends on which definition comes
first, except for the order of the bodies of one type.

Everything is stated for a list of definitions and not for a document, because lowering is followed
through every initial part of a document.
-/

set_option autoImplicit false

namespace ResolverContracts

/-! ## Parts of a definition -/

namespace Definition

/-- The type that a definition defines. -/
def typeDefinition? : Definition → Option TypeDefinition
  | type definition => some definition
  | _ => none

/-- The extension of a type. -/
def typeExtension? : Definition → Option TypeDefinition
  | typeExtension definition => some definition
  | _ => none

/-- What defines a type is its definition. -/
theorem eq_of_typeDefinition? {x : Definition} {d : TypeDefinition} (h : x.typeDefinition? = some d) :
    x = .type d := by
  cases x with
  | type d' => exact congrArg type (Option.some.inj h)
  | _ => exact absurd h.symm (Option.some_ne_none d)

/-- What extends a type is its extension. -/
theorem eq_of_typeExtension? {x : Definition} {e : TypeDefinition} (h : x.typeExtension? = some e) :
    x = .typeExtension e := by
  cases x with
  | typeExtension e' => exact congrArg typeExtension (Option.some.inj h)
  | _ => exact absurd h.symm (Option.some_ne_none e)

/-- The schema block. -/
def schemaBlock? : Definition → Option SchemaDefinition
  | schema definition => some definition
  | _ => none

/-- The operations bound, by a schema block or a schema extension. -/
def rootBindings : Definition → List RootBinding
  | schema definition | schemaExtension definition => definition.operations
  | _ => []

/-- Whether this is a schema block or a schema extension. -/
def isAboutRoots : Definition → Bool
  | schema _ | schemaExtension _ => true
  | _ => false

end Definition

/-- Whether a definition only declares a built-in scalar again. -/
def TypeDefinition.isRedeclaration (d : TypeDefinition) : Bool :=
  d.body.kind == .scalar && isBuiltinScalar d.name.text

/-! ## Definitions together -/

namespace Definitions

/-- The types defined. -/
def typeDefinitions (ds : List Definition) : List TypeDefinition :=
  ds.filterMap (·.typeDefinition?)

/-- The types defined that are new: all but the built-in scalars declared again. -/
def newTypes (ds : List Definition) : List TypeDefinition :=
  (typeDefinitions ds).filter (!·.isRedeclaration)

/-- The extensions of types. -/
def typeExtensions (ds : List Definition) : List TypeDefinition :=
  ds.filterMap (·.typeExtension?)

/-- The schema blocks. -/
def schemaBlocks (ds : List Definition) : List SchemaDefinition :=
  ds.filterMap (·.schemaBlock?)

/-- The operations bound, by all schema blocks and schema extensions. -/
def rootBindings (ds : List Definition) : List RootBinding :=
  ds.flatMap (·.rootBindings)

/-- The bodies of the extensions of a name. -/
def extensionBodies (ds : List Definition) (name : String) : List TypeBody :=
  ((typeExtensions ds).filter (·.name.text == name)).map (·.body)

/-- The bodies that make up a type: that of its definition, then those of its extensions. -/
def bodiesOf (ds : List Definition) (d : TypeDefinition) : List TypeBody :=
  d.body :: extensionBodies ds d.name.text

/-- The bodies of all definitions and extensions of types. -/
def bodies (ds : List Definition) : List TypeBody :=
  (typeDefinitions ds ++ typeExtensions ds).map (·.body)

/-- A name is declared as a type of a kind: as a built-in scalar, or by a definition. -/
inductive Declares (ds : List Definition) : String → Kind → Prop
  | builtin {name : String} (h : isBuiltinScalar name = true) : Declares ds name .scalar
  | defined {d : TypeDefinition} (h : d ∈ typeDefinitions ds) : Declares ds d.name.text d.body.kind

/-- The definitions make up a schema. -/
structure Valid (ds : List Definition) : Prop where
  /-- There is one schema block at most. -/
  schema_once : (schemaBlocks ds).length ≤ 1
  /-- An operation is bound once, whether by the schema block or by an extension. -/
  roots_once : ((rootBindings ds).map (·.operation)).Nodup
  /-- The root of an operation is an object. -/
  roots : ∀ r ∈ rootBindings ds, Declares ds r.type.text .object
  /-- No type is defined twice. -/
  names_distinct : ((newTypes ds).map (·.name.text)).Nodup
  /-- Only a scalar can have the name of a built-in scalar. -/
  names_not_builtin : ∀ d ∈ newTypes ds, isBuiltinScalar d.name.text = false
  /-- No type has a name kept for introspection. -/
  names_not_reserved : ∀ d ∈ typeDefinitions ds, isReservedName d.name.text = false
  /-- What is extended is declared, as a type of the kind it is extended as. -/
  targets : ∀ e ∈ typeExtensions ds, Declares ds e.name.text e.body.kind
  /-- Every body is well formed by itself. -/
  well_formed : ∀ b ∈ bodies ds, b.WellFormed
  /-- Over a definition and its extensions, no member is written twice. -/
  members_distinct : ∀ d ∈ newTypes ds, TypeBody.JointlyDistinct d.body.kind (bodiesOf ds d)
  /-- A field has the type of a declared name that is no input object. -/
  outputs : ∀ b ∈ bodies ds, ∀ f ∈ b.fields,
    ∃ k, Declares ds f.type.leaf.text k ∧ k ≠ .inputObject
  /-- An argument has the type of a declared scalar, enum or input object. -/
  arguments : ∀ b ∈ bodies ds, ∀ f ∈ b.fields, ∀ a ∈ f.arguments,
    ∃ k, Declares ds a.type.leaf.text k ∧ (k = .scalar ∨ k = .enum ∨ k = .inputObject)
  /-- So has an input field. -/
  inputs : ∀ b ∈ bodies ds, ∀ i ∈ b.inputs,
    ∃ k, Declares ds i.type.leaf.text k ∧ (k = .scalar ∨ k = .enum ∨ k = .inputObject)
  /-- What is implemented is an interface. -/
  interfaces : ∀ b ∈ bodies ds, ∀ n ∈ b.implementsNames, Declares ds n.text .interface
  /-- What a union lists is no interface and no input object. -/
  members : ∀ b ∈ bodies ds, ∀ n ∈ b.members,
    ∃ k, Declares ds n.text k ∧ k ≠ .interface ∧ k ≠ .inputObject

end Definitions

/-- The document is a schema. -/
def Document.Valid (d : Document) : Prop := Definitions.Valid d.definitions

end ResolverContracts
