import ResolverContracts.Schema.Catalogue
/-!
# Implementors

Which objects implement which interface. An object implements what it names, whether or not the name
is that of an interface; implementors are listed in the order of the catalogue, and interfaces in the
order in which the objects first name them.
-/

set_option autoImplicit false

namespace ResolverContracts

namespace Catalogue

/-- The objects that implement an interface, each once. -/
def implementors (c : Catalogue) (interface : String) : List String :=
  (c.objects.filter (·.2.implements.contains interface)).map (·.1)

/-- Whether any object implements an interface. -/
def hasImplementors (c : Catalogue) (interface : String) : Bool :=
  !(c.implementors interface).isEmpty

/-- The interfaces that are implemented, in the order of their first mention. -/
def implementedInterfaces (c : Catalogue) : List String :=
  (c.objects.flatMap (·.2.implements)).eraseDups

/-- The implemented interfaces with their implementors. -/
def implementorIndex (c : Catalogue) : List (String × List String) :=
  c.implementedInterfaces.map fun interface => (interface, c.implementors interface)

end Catalogue

end ResolverContracts
