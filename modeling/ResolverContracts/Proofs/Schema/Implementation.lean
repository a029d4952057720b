import ResolverContracts.Proofs.Schema.Loaded
/-!
# Implementing an interface

The rules of GraphQL for an object that implements an interface. It has all fields of the interface,
and whoever knows the field of the interface can use that of the object: its values are values of the
type the interface promises, it takes the arguments of the interface, with the same types, and needs no
others. Loading does not check this. A field of an object may well be more special than the field it
implements.

Interfaces can implement interfaces too. The catalogue does not keep that, so it is read from the
definitions.
-/

set_option autoImplicit false

namespace ResolverContracts

/-- The interfaces that an object or an interface says it implements, in its definition and in its
extensions. -/
def Definitions.implemented (ds : List Definition) (name : String) : List String :=
  ((typeDefinitions ds ++ typeExtensions ds).filter (·.name.text == name)).flatMap fun d =>
    d.body.implementsNames.map (·.text)

namespace Catalogue

/-- The values of one type are values of another one. -/
inductive Subtype (c : Catalogue) (ds : List Definition) : String → String → Prop
  | refl (name : String) : Subtype c ds name name
  | member {u : String × List String} {name : String} (h : u ∈ c.unions) (hname : name ∈ u.2) :
    Subtype c ds name u.1
  | implements {name interface : String} (h : interface ∈ Definitions.implemented ds name) :
    Subtype c ds name interface

/-- A reference is at least as special as another one: level by level it promises the same, and where
the other one allows nothing to be there it can be marked. -/
inductive Covariant (c : Catalogue) (ds : List Definition) : TypeRef → TypeRef → Prop
  | named {a b : String} (h : c.Subtype ds a b) : Covariant c ds (.named a) (.named b)
  | list {r r' : TypeRef} (h : Covariant c ds r r') : Covariant c ds (.list r) (.list r')
  | nonNull {r r' : TypeRef} (h : Covariant c ds r r') : Covariant c ds (.nonNull r) (.nonNull r')
  | marked {r r' : TypeRef} (h : Covariant c ds r r') : Covariant c ds (.nonNull r) r'

/-- A field of an object can stand for the field of an interface. -/
structure FieldImplements (c : Catalogue) (ds : List Definition) (f g : Field) : Prop where
  name : f.name = g.name
  type : c.Covariant ds f.type g.type
  arguments : ∀ a ∈ g.arguments, a ∈ f.arguments
  others : ∀ a ∈ f.arguments, a.name ∉ g.arguments.map (·.name) → a.type.isNonNull = false

/-- Every object implements what it says it implements. -/
structure ImplementsValidly (c : Catalogue) (ds : List Definition) : Prop where
  interfaces : ∀ o ∈ c.objects, ∀ x ∈ o.2.implements,
    ∀ y ∈ Definitions.implemented ds x, y ∈ o.2.implements
  fields : ∀ o ∈ c.objects, ∀ i ∈ c.interfaces, i.1 ∈ o.2.implements →
    ∀ g ∈ i.2, ∃ f ∈ o.2.fields, c.FieldImplements ds f g

variable {c : Catalogue} {ds : List Definition}

/-- The field that implements one of an interface is the one of the same name. -/
theorem ImplementsValidly.fieldImplements (h : c.ImplementsValidly ds) (hc : c.WellNamed)
    {o : String × ObjectType} (ho : o ∈ c.objects) {i : String × List Field} (hi : i ∈ c.interfaces)
    (himplements : i.1 ∈ o.2.implements) {f g : Field} (hf : f ∈ o.2.fields) (hg : g ∈ i.2)
    (hname : f.name = g.name) : c.FieldImplements ds f g := by
  obtain ⟨f', hf', hfg⟩ := h.fields o ho i hi himplements g hg
  have hsame : f.name = f'.name := hname.trans hfg.name.symm
  rwa [eq_of_key_eq (hc.object_fields o ho) hf hf' hsame]

end Catalogue

end ResolverContracts
