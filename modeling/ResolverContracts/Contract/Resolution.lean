import ResolverContracts.Config.Overrides
import ResolverContracts.Contract.TypeExpr
import ResolverContracts.Schema.Implementors
/-!
# Schema types as type expressions

A reference to a schema type becomes a type expression level by level. Every level may be missing
unless the schema marks it, so a level is first answered with a marker (`Level`), which a non-null
mark takes away. The name at the bottom is answered by its kind and by what the user says about it.

A reference goes wrong in two ways only: a mark directly on a mark, and a name that no type has.
-/

set_option autoImplicit false

namespace ResolverContracts

/-- Why a reference has no type expression. -/
inductive TypeError
  /-- A non-null mark on a type that has one already. -/
  | nestedNonNull (type : TypeRef)
  | unknownType (name : String)
  deriving DecidableEq

/-- The error in words. -/
def TypeError.message : TypeError → String
  | nestedNonNull type => "`" ++ type.display ++ "` wraps a non-null type in another non-null"
  | unknownType name => "unknown type `" ++ name ++ "`"

/-- A type expression for one level, and whether the level may be missing. -/
structure Level where
  nullable : Bool
  type : TypeExpr

/-- The level as one type expression. -/
def Level.toType (l : Level) : TypeExpr := if l.nullable then .nullable l.type else l.type

/-- A schema and what a user says about its types. -/
structure Project where
  catalogue : Catalogue
  overrides : Overrides

namespace Project

/-- Whether the user gives a type for the object, interface or union of this name. -/
def isMapped (p : Project) (name : String) : Bool := p.overrides.mappers.contains name

/-! ## Names -/

/-- The type of a scalar. Built-in scalars are primitives. Another one is what the user says, or a
placeholder of its own name. -/
def mapScalar (p : Project) (name : String) : TypeExpr :=
  if name = "String" ∨ name = "ID" then .primitive .string
  else if name = "Int" ∨ name = "Float" then .primitive .number
  else if name = "Boolean" then .primitive .boolean
  else match p.overrides.scalars.get? name with
    | some symbol => .external symbol name
    | none => .declared name

/-- The type of an enum. -/
def mapEnum (p : Project) (name : String) : TypeExpr :=
  match p.overrides.enumValues.get? name with
  | some symbol => .external symbol name
  | none => .declared name

/-- The type of an object, a union, or an interface that the user gives a type for. The roots of
queries and mutations carry no data. -/
def mapComposite (p : Project) (name : String) : TypeExpr :=
  if p.catalogue.roots.isQueryOrMutation name then .emptyRecord
  else match p.overrides.mappers.get? name with
    | some symbol => .external symbol name
    | none => .declared name

/-- The type of a field that is declared as an interface. Without a type from the user, a value is
one of the user's types for its implementors, or else the interface's own data. -/
def mapInterface (p : Project) (name : String) : TypeExpr :=
  if p.isMapped name then p.mapComposite name
  else
    let mapped := (p.catalogue.implementors name).filter p.isMapped
    .unionOf (mapped.map p.mapComposite ++ [.declared name])

/-- The type of a name. -/
def mapNamed (p : Project) (name : String) : Except TypeError TypeExpr :=
  match p.catalogue.kindOf? name with
  | some .scalar => .ok (p.mapScalar name)
  | some .enum => .ok (p.mapEnum name)
  | some .object | some .union => .ok (p.mapComposite name)
  | some .interface => .ok (p.mapInterface name)
  | some .inputObject => .ok (.declared name)
  | none => .error (.unknownType name)

/-! ## References -/

/-- Whether a reference, but for one non-null mark, is the name of an interface. -/
def namesInterface (p : Project) : TypeRef → Bool
  | .named name | .nonNull (.named name) => p.catalogue.kindOf? name == some .interface
  | _ => false

/-- The spelling of a list. What may be missing, a union, and an interface (which is a union as soon
as an implementor is mapped) are easier to read in angle brackets. -/
def listForm (p : Project) (item : TypeRef) (element : Level) : ListForm :=
  if element.nullable || element.type.isMultiUnion || p.namesInterface item then .generic
  else .suffix

/-- The outermost level of a reference. -/
def mapLevel (p : Project) (access : Access) : TypeRef → Except TypeError Level
  | .nonNull item =>
    if item.isNonNull then .error (.nestedNonNull (.nonNull item))
    else do
      let level ← p.mapLevel access item
      return ⟨false, level.type⟩
  | .list item => do
    let element ← p.mapLevel access item
    return ⟨true, .list element.toType (p.listForm item element) access⟩
  | .named name => do
    return ⟨true, ← p.mapNamed name⟩

/-- The type of a reference. -/
def mapType (p : Project) (access : Access) (type : TypeRef) : Except TypeError TypeExpr :=
  (p.mapLevel access type).map (·.toType)

/-! ## Concrete types -/

/-- What a value of an interface can be: the user's type for it, or else any implementor. -/
def interfaceMembers (p : Project) (name : String) : List TypeExpr :=
  if p.isMapped name then [p.mapComposite name]
  else (p.catalogue.implementors name).map p.mapComposite

/-- What a value of a union can be. Members that are no objects stand for themselves. -/
def unionMembers (p : Project) (members : List String) : List TypeExpr :=
  members.map fun member =>
    if p.catalogue.kindOf? member = some .object then p.mapComposite member else .declared member

end Project

end ResolverContracts
