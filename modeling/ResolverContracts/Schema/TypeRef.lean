/-!
# References to types

What a field, an argument or an input field says about its type: a name under lists and non-null
marks. A level without a mark may be null.
-/

set_option autoImplicit false

namespace ResolverContracts

/-- A reference to a named type. -/
inductive TypeRef
  | named (name : String)
  | list (item : TypeRef)
  | nonNull (item : TypeRef)
  deriving DecidableEq

namespace TypeRef

/-- The name under all lists and non-null marks. -/
def leaf : TypeRef → String
  | named name => name
  | list item | nonNull item => item.leaf

/-- Whether the outermost level is marked as non-null. -/
def isNonNull : TypeRef → Bool
  | nonNull _ => true
  | _ => false

/-- The reference as a schema text writes it. -/
def display : TypeRef → String
  | named name => name
  | list item => "[" ++ item.display ++ "]"
  | nonNull item => item.display ++ "!"

end TypeRef

end ResolverContracts
