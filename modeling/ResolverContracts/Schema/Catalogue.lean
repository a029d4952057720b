import ResolverContracts.Document.Kind
import ResolverContracts.Schema.TypeRef
import ResolverContracts.Text.Interner
/-!
# The catalogue of a schema

A catalogue lists the named types of a schema. The order of the list is part of its meaning: the
built-in scalars come first, then the types in the order of their definition, and everything that is
generated follows this order. A name stands for one type, so `insert?` refuses a name that is taken.
-/

set_option autoImplicit false

namespace ResolverContracts

/-! ## Types -/

/-- An argument of a field, or a field of an input object. -/
structure InputValue where
  name : String
  type : TypeRef
  deriving DecidableEq

/-- A field of an object or an interface, its arguments in order. -/
structure Field where
  name : String
  type : TypeRef
  arguments : List InputValue
  deriving DecidableEq

/-- What an object consists of. -/
structure ObjectType where
  fields : List Field
  /-- The interfaces it names, in order. -/
  implements : List String
  deriving DecidableEq

/-- What a type consists of. -/
inductive TypeShape
  | scalar
  | object (type : ObjectType)
  | interface (fields : List Field)
  | union (members : List String)
  | enum (values : List String)
  | inputObject (fields : List InputValue)
  deriving DecidableEq

namespace TypeShape

/-- The kind of a type of this shape. -/
def kind : TypeShape → Kind
  | scalar => .scalar
  | object _ => .object
  | interface _ => .interface
  | union _ => .union
  | enum _ => .enum
  | inputObject _ => .inputObject

/-- A type of a kind that has nothing in it yet. -/
def empty : Kind → TypeShape
  | .scalar => scalar
  | .object => object ⟨[], []⟩
  | .interface => interface []
  | .union => union []
  | .enum => enum []
  | .inputObject => inputObject []

@[simp] theorem kind_empty (k : Kind) : (empty k).kind = k := by cases k <;> rfl

end TypeShape

/-- A type with its name. -/
structure NamedType where
  name : String
  shape : TypeShape
  deriving DecidableEq

/-! ## Root operations -/

/-- The names of the root types, one for each operation the schema offers. -/
structure Roots where
  query : Option String
  mutation : Option String
  subscription : Option String
  deriving DecidableEq

namespace Roots

/-- No operation is offered. -/
def none : Roots := ⟨.none, .none, .none⟩

/-- Each operation has its conventional root. -/
def conventional : Roots :=
  ⟨some Operation.query.conventionalName, some Operation.mutation.conventionalName,
    some Operation.subscription.conventionalName⟩

/-- The root of an operation. -/
def get (r : Roots) : Operation → Option String
  | .query => r.query
  | .mutation => r.mutation
  | .subscription => r.subscription

/-- Gives an operation a root. -/
def set (r : Roots) (operation : Operation) (name : String) : Roots :=
  match operation with
  | .query => { r with query := some name }
  | .mutation => { r with mutation := some name }
  | .subscription => { r with subscription := some name }

/-- Whether a name is the root of queries or of mutations. Those types carry no data. -/
def isQueryOrMutation (r : Roots) (name : String) : Bool :=
  r.query == some name || r.mutation == some name

/-- Whether a name is the root of subscriptions. -/
def isSubscription (r : Roots) (name : String) : Bool := r.subscription == some name

end Roots

/-! ## Catalogues -/

/-- The named types of a schema in order, and its roots. -/
structure Catalogue where
  types : List NamedType
  roots : Roots
  deriving DecidableEq

namespace Catalogue

/-- The catalogue of the built-in scalars, with the conventional roots. -/
def initial : Catalogue := ⟨builtinScalars.map (⟨·, .scalar⟩), .conventional⟩

/-- The type of a name. -/
def get? (c : Catalogue) (name : String) : Option NamedType := c.types.find? (·.name == name)

/-- Whether a name is taken. -/
def contains (c : Catalogue) (name : String) : Bool := c.types.any (·.name == name)

/-- The kind of the type of a name. -/
def kindOf? (c : Catalogue) (name : String) : Option Kind := (c.get? name).map (·.shape.kind)

/-- Adds a type at the end, unless its name is taken. -/
def insert? (c : Catalogue) (type : NamedType) : Option Catalogue :=
  if c.contains type.name then none else some { c with types := c.types ++ [type] }

/-- Gives the type of a name another shape, in its place. -/
def reshape (c : Catalogue) (name : String) (shape : TypeShape) : Catalogue :=
  { c with types := c.types.map fun t => if t.name == name then { t with shape } else t }

/-- Number of types. -/
def size (c : Catalogue) : Nat := c.types.length

/-- Whether there is no type. -/
def isEmpty (c : Catalogue) : Bool := c.types.isEmpty

/-- The names of all types, in order. -/
def names (c : Catalogue) : List String := c.types.map (·.name)

/-- The objects, in order. -/
def objects (c : Catalogue) : List (String × ObjectType) :=
  c.types.filterMap fun t => match t.shape with
    | .object o => some (t.name, o)
    | _ => none

/-- The interfaces with their fields, in order. -/
def interfaces (c : Catalogue) : List (String × List Field) :=
  c.types.filterMap fun t => match t.shape with
    | .interface fields => some (t.name, fields)
    | _ => none

/-- The unions with their members, in order. -/
def unions (c : Catalogue) : List (String × List String) :=
  c.types.filterMap fun t => match t.shape with
    | .union members => some (t.name, members)
    | _ => none

/-- The enums with their values, in order. -/
def enums (c : Catalogue) : List (String × List String) :=
  c.types.filterMap fun t => match t.shape with
    | .enum values => some (t.name, values)
    | _ => none

/-- The input objects with their fields, in order. -/
def inputObjects (c : Catalogue) : List (String × List InputValue) :=
  c.types.filterMap fun t => match t.shape with
    | .inputObject fields => some (t.name, fields)
    | _ => none

/-- The scalars that are not built in, in order. -/
def customScalars (c : Catalogue) : List String :=
  c.types.filterMap fun t => match t.shape with
    | .scalar => if isBuiltinScalar t.name then none else some t.name
    | _ => none

/-! ## Types by kind -/

section Lists

variable {c : Catalogue} {name : String}

/-- A list that takes out of each type of a shape what the shape is made of has just those types. -/
theorem mem_filterMap_types_iff {α : Type} {f : NamedType → Option (String × α)} {g : α → TypeShape}
    {a : α} (hf : ∀ t, f t = some (name, a) ↔ t = ⟨name, g a⟩) :
    (name, a) ∈ c.types.filterMap f ↔ ⟨name, g a⟩ ∈ c.types := by
  rw [List.mem_filterMap]
  constructor
  · rintro ⟨t, ht, h⟩
    rwa [← (hf t).mp h]
  · intro h
    exact ⟨_, h, (hf _).mpr rfl⟩

/-- The view on the objects loses none of them, and names each by its own entry of the catalogue; the
views on the other kinds do the same. -/
theorem mem_objects_iff {o : ObjectType} : (name, o) ∈ c.objects ↔ ⟨name, .object o⟩ ∈ c.types := by
  refine mem_filterMap_types_iff fun ⟨n, shape⟩ => ?_
  cases shape <;> simp

theorem mem_interfaces_iff {fields : List Field} :
    (name, fields) ∈ c.interfaces ↔ ⟨name, .interface fields⟩ ∈ c.types := by
  refine mem_filterMap_types_iff fun ⟨n, shape⟩ => ?_
  cases shape <;> simp

theorem mem_unions_iff {members : List String} :
    (name, members) ∈ c.unions ↔ ⟨name, .union members⟩ ∈ c.types := by
  refine mem_filterMap_types_iff fun ⟨n, shape⟩ => ?_
  cases shape <;> simp

theorem mem_enums_iff {values : List String} :
    (name, values) ∈ c.enums ↔ ⟨name, .enum values⟩ ∈ c.types := by
  refine mem_filterMap_types_iff fun ⟨n, shape⟩ => ?_
  cases shape <;> simp

/-- Scalars are the one kind of which the view leaves members out: the built-in ones are mapped by a
table, and nothing is declared for them. -/
theorem mem_customScalars_iff :
    name ∈ c.customScalars ↔ ⟨name, .scalar⟩ ∈ c.types ∧ isBuiltinScalar name = false := by
  rw [customScalars, List.mem_filterMap]
  constructor
  · rintro ⟨⟨n, shape⟩, ht, h⟩
    cases shape with
    | scalar =>
      by_cases hbuiltin : isBuiltinScalar n = true
      · simp [hbuiltin] at h
      · obtain rfl : n = name := by simpa [hbuiltin] using h
        exact ⟨ht, by simpa using hbuiltin⟩
    | _ => simp at h
  · rintro ⟨ht, h⟩
    exact ⟨_, ht, by simp [h]⟩

theorem mem_inputObjects_iff {fields : List InputValue} :
    (name, fields) ∈ c.inputObjects ↔ ⟨name, .inputObject fields⟩ ∈ c.types := by
  refine mem_filterMap_types_iff fun ⟨n, shape⟩ => ?_
  cases shape <;> simp

end Lists

end Catalogue

end ResolverContracts
