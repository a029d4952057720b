import ResolverContracts.Config.Symbol
/-!
# Type expressions

The types that the generated module writes: primitives, names, the record without fields, parameters
of generic contracts, lists, unions, and types that may be missing. A name is either declared by the
module itself or stands for a symbol of another one.
-/

set_option autoImplicit false

namespace ResolverContracts

/-- The primitive types. -/
inductive Primitive
  | string | number | boolean
  deriving DecidableEq

/-- A primitive as it is written. -/
def Primitive.text : Primitive → String
  | string => "string"
  | number => "number"
  | boolean => "boolean"

/-- A symbol of another module, or a type expression, and the name it is used by. -/
structure External where
  symbol : Symbol
  name : String
  deriving DecidableEq

/-- A symbol as it stands for a schema type. -/
def Symbol.toExternal (s : Symbol) (typeName : String) : External := ⟨s, s.localName typeName⟩

/-- A named type. -/
inductive NamedRef
  /-- Declared by the generated module. -/
  | declared (name : String)
  | external (target : External)
  deriving DecidableEq

/-- The name by which it is used. -/
def NamedRef.name : NamedRef → String
  | declared name => name
  | external target => target.name

/-- The two spellings of a list. -/
inductive ListForm
  /-- Brackets behind the element. -/
  | suffix
  /-- A generic type with the element in angle brackets. -/
  | generic
  deriving DecidableEq

/-- What may be done with a list. -/
inductive Access
  /-- Only read, as what a handler returns. -/
  | readonly
  /-- Changed, as data and arguments. -/
  | mutable
  deriving DecidableEq

/-- A type expression. -/
inductive TypeExpr
  | primitive (type : Primitive)
  | named (ref : NamedRef)
  /-- The record without fields. -/
  | emptyRecord
  /-- A parameter of the contract around. -/
  | parameter (name : String)
  | list (element : TypeExpr) (form : ListForm) (access : Access)
  | union (members : List TypeExpr)
  /-- A type or nothing. -/
  | nullable (inner : TypeExpr)

namespace TypeExpr

/-- A type that the module declares. -/
def declared (name : String) : TypeExpr := named (.declared name)

/-- A symbol that stands for a schema type. -/
def external (symbol : Symbol) (typeName : String) : TypeExpr :=
  named (.external (symbol.toExternal typeName))

/-- A union of types, which for a single one is that type. -/
def unionOf : List TypeExpr → TypeExpr
  | [type] => type
  | types => union types

/-- Whether nothing is allowed at the outermost level. -/
def isNullable : TypeExpr → Bool
  | nullable _ => true
  | _ => false

/-- Whether this is a union of two members or more. -/
def isMultiUnion : TypeExpr → Bool
  | union members => 1 < members.length
  | _ => false

mutual

/-- The external symbols of a type, from the left, repetitions kept. -/
def externals : TypeExpr → List External
  | named (.external target) => [target]
  | list element _ _ => element.externals
  | nullable inner => inner.externals
  | union members => externalsOfMembers members
  | primitive _ | named (.declared _) | emptyRecord | parameter _ => []

/-- The external symbols of types, one after the other. -/
def externalsOfMembers : List TypeExpr → List External
  | [] => []
  | type :: types => type.externals ++ externalsOfMembers types

end

theorem externalsOfMembers_eq_flatMap (types : List TypeExpr) :
    externalsOfMembers types = types.flatMap externals := by
  induction types with
  | nil => rfl
  | cons type types ih => simp only [externalsOfMembers, ih, List.flatMap_cons]

/-! ## Writing

A list in suffix form binds tighter than anything else, so an element with a sign of its own goes
into parentheses. Generic brackets need none. -/

/-- Whether an element in front of brackets goes into parentheses. -/
def needsParens : TypeExpr → Bool
  | union members => 1 < members.length
  | nullable _ => true
  | list _ .suffix .readonly => true
  | _ => false

mutual

/-- A type as it is written. -/
def render : TypeExpr → String
  | primitive type => type.text
  | named ref => ref.name
  | emptyRecord => "\x7b\x7d"
  | parameter name => name
  | list element .generic .readonly => "ReadonlyArray<" ++ element.render ++ ">"
  | list element .generic .mutable => "Array<" ++ element.render ++ ">"
  | list element .suffix access =>
    let text := element.render
    (match access with
      | .readonly => "readonly "
      | .mutable => "") ++
    (if element.needsParens then "(" ++ text ++ ")" else text) ++ "[]"
  | union [] => "never"
  | union (type :: types) => type.render ++ renderAlternatives types
  | nullable inner => inner.render ++ " | null | undefined"

/-- The members of a union behind the first one. -/
def renderAlternatives : List TypeExpr → String
  | [] => ""
  | type :: types => " | " ++ type.render ++ renderAlternatives types

end

end TypeExpr

end ResolverContracts
