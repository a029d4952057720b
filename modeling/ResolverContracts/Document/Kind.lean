/-!
# Kinds of types and of operations

A named type is of one of six kinds, and a schema has up to three root operations. Both are needed
on the side of the text, where they have keywords, and on the side of the schema, where they decide
which references are allowed.
-/

set_option autoImplicit false

namespace ResolverContracts

/-- The kinds of named types. -/
inductive Kind
  | scalar | object | interface | union | enum | inputObject
  deriving DecidableEq

namespace Kind

/-- The keyword that opens a definition of this kind. -/
def keyword : Kind → String
  | scalar => "scalar"
  | object => "type"
  | interface => "interface"
  | union => "union"
  | enum => "enum"
  | inputObject => "input"

/-- The kind as a sentence names it. -/
def label : Kind → String
  | scalar => "scalar"
  | object => "object type"
  | interface => "interface"
  | union => "union"
  | enum => "enum"
  | inputObject => "input object"

/-- Whether values of such a type can be given as arguments and input fields. -/
def isInput : Kind → Bool
  | scalar | enum | inputObject => true
  | _ => false

/-- Whether values of such a type can be the result of a field. -/
def isOutput : Kind → Bool
  | inputObject => false
  | _ => true

/-- Whether such a type can be listed by a union. Scalars, enums and other unions can; what no
value is an instance of by itself, and what no field can return, cannot. -/
def isUnionMember : Kind → Bool
  | interface | inputObject => false
  | _ => true

end Kind

/-- The operations a schema may offer. -/
inductive Operation
  | query | mutation | subscription
  deriving DecidableEq

namespace Operation

/-- The keyword of the operation. -/
def keyword : Operation → String
  | query => "query"
  | mutation => "mutation"
  | subscription => "subscription"

/-- The name of its root type in a schema that binds none. -/
def conventionalName : Operation → String
  | query => "Query"
  | mutation => "Mutation"
  | subscription => "Subscription"

end Operation

end ResolverContracts
