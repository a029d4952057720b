/-!
# Places of directives

A directive definition lists where its directive may be applied. The places are a closed list of
upper-case words, those of type systems and those of queries alike.
-/

set_option autoImplicit false

namespace ResolverContracts

/-- Where a directive may be applied. -/
inductive Location
  | schema | scalar | object | fieldDefinition | argumentDefinition | interface | union | enum
  | enumValue | inputObject | inputFieldDefinition
  | query | mutation | subscription | field | fragmentDefinition | fragmentSpread | inlineFragment
  | variableDefinition
  deriving DecidableEq

namespace Location

/-- The place as it is written. -/
def text : Location → String
  | schema => "SCHEMA"
  | scalar => "SCALAR"
  | object => "OBJECT"
  | fieldDefinition => "FIELD_DEFINITION"
  | argumentDefinition => "ARGUMENT_DEFINITION"
  | interface => "INTERFACE"
  | union => "UNION"
  | enum => "ENUM"
  | enumValue => "ENUM_VALUE"
  | inputObject => "INPUT_OBJECT"
  | inputFieldDefinition => "INPUT_FIELD_DEFINITION"
  | query => "QUERY"
  | mutation => "MUTATION"
  | subscription => "SUBSCRIPTION"
  | field => "FIELD"
  | fragmentDefinition => "FRAGMENT_DEFINITION"
  | fragmentSpread => "FRAGMENT_SPREAD"
  | inlineFragment => "INLINE_FRAGMENT"
  | variableDefinition => "VARIABLE_DEFINITION"

/-- Every place once. -/
def all : List Location :=
  [schema, scalar, object, fieldDefinition, argumentDefinition, interface, union, enum, enumValue,
    inputObject, inputFieldDefinition, query, mutation, subscription, field, fragmentDefinition,
    fragmentSpread, inlineFragment, variableDefinition]

/-- The place written so, if there is one. -/
def ofText? (word : String) : Option Location := all.find? (·.text == word)

/-- Reading a place gives it back: no two places are written alike. -/
theorem ofText?_text (l : Location) : ofText? l.text = some l := by cases l <;> decide

end Location

end ResolverContracts
