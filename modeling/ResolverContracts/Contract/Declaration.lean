import ResolverContracts.Contract.TypeExpr
/-!
# Declarations

What the generated module declares, in order and without a word about how it is written. Everything
the printer needs is here; it never looks at the schema.
-/

set_option autoImplicit false

namespace ResolverContracts

/-- The contract of the whole module, by the names of the types that have handlers. -/
structure RootContract where
  /-- Types whose handlers must be given. -/
  required : List String
  /-- Types whose handlers by default read the fields of their data. -/
  optional : List String
  /-- Custom scalars. -/
  scalars : List String
  deriving DecidableEq

/-- A generic contract that another one takes over, for its own root. -/
structure Extension where
  contract : String
  root : TypeExpr

/-- A field that a handler answers. -/
structure HandlerField where
  name : String
  /-- Whether it is answered by a stream of events. -/
  isSubscription : Bool
  root : TypeExpr
  args : TypeExpr
  result : TypeExpr

/-- The contract of the handlers of one type. -/
structure Handler where
  name : String
  /-- The parameter of a generic contract. -/
  parameter : Option String
  extensions : List Extension
  fields : List HandlerField

/-- A field of a record. -/
structure RecordField where
  name : String
  type : TypeExpr
  /-- Whether it can be left out. -/
  isOptional : Bool

/-- Plain data. -/
structure Record where
  name : String
  fields : List RecordField

/-- A member of an enum, and the value it stands for. -/
structure EnumMember where
  identifier : String
  value : String
  deriving DecidableEq

/-- A name for a union of types. -/
structure Alias where
  name : String
  members : List TypeExpr

/-- What the module can declare. -/
inductive Declaration
  | root (contract : RootContract)
  | handler (contract : Handler)
  /-- The types that contracts are written with. -/
  | helpers
  /-- The arguments of a field. -/
  | args (record : Record)
  /-- The data behind an object or an interface. -/
  | dto (record : Record)
  | input (record : Record)
  | enum (name : String) (members : List EnumMember)
  /-- An enum of another module, exported again in place of a schema enum. -/
  | reexport (name : String) (target : External)
  /-- What has to be told apart at run time. -/
  | table (entries : List Alias)
  /-- The implementors of an interface. -/
  | implementors (entry : Alias)
  | union (entry : Alias)

namespace Declaration

/-- The names that a declaration binds in the module. A name that is only exported again is not
bound. -/
def declaredNames : Declaration → List String
  | root _ => ["Resolvers"]
  | handler contract => [contract.name]
  | helpers => ["MaybePromise", "Resolver", "SubscriptionResolverFilter", "SubscriptionResolver"]
  | args record | dto record | input record => [record.name]
  | enum name _ => [name]
  | reexport _ _ => []
  | table _ => ["UnionResolvers"]
  | implementors entry | union entry => [entry.name]

/-- The type expressions of a declaration, in the order in which they are written. -/
def types : Declaration → List TypeExpr
  | handler contract =>
    contract.extensions.map (·.root) ++ contract.fields.flatMap fun f => [f.root, f.args, f.result]
  | args record | dto record | input record => record.fields.map (·.type)
  | table entries => entries.flatMap (·.members)
  | implementors entry | union entry => entry.members
  | root _ | helpers | enum _ _ | reexport _ _ => []

/-- The external symbols that a declaration uses. What is exported again names its module where it is
exported. -/
def externals (d : Declaration) : List External := d.types.flatMap (·.externals)

end Declaration

/-- The declarations of a module, and the type of the context that its handlers are given. -/
structure DeclarationSet where
  context : External
  declarations : List Declaration

namespace DeclarationSet

/-- Number of declarations. -/
def size (s : DeclarationSet) : Nat := s.declarations.length

/-- Whether nothing is declared. -/
def isEmpty (s : DeclarationSet) : Bool := s.declarations.isEmpty

/-- Whether the root contract names a custom scalar. -/
def hasCustomScalars (s : DeclarationSet) : Bool :=
  s.declarations.any fun
    | .root contract => !contract.scalars.isEmpty
    | _ => false

/-- Every external symbol used, the context first, repetitions kept. -/
def externals (s : DeclarationSet) : List External :=
  s.context :: s.declarations.flatMap (·.externals)

/-- Every name bound, in order. -/
def declaredNames (s : DeclarationSet) : List String := s.declarations.flatMap (·.declaredNames)

end DeclarationSet

end ResolverContracts
