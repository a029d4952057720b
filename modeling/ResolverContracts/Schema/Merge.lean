import ResolverContracts.Schema.Catalogue
import ResolverContracts.Schema.Fault
/-!
# What a definition adds to a type

A definition starts a type and extensions go on with it, in the same way: the members they write are
put behind the members there are. A member whose name is taken adds nothing but a fault. So a list
of written members is first marked, each with whether its name was taken (`markTaken`), and the
members added, the faults and the references are three readings of the marked list.
-/

set_option autoImplicit false

namespace ResolverContracts

/-! ## Findings -/

/-- A mention of a type that has to be allowed there. -/
structure Reference where
  name : Name
  site : Site
  deriving DecidableEq

/-- What a part of a document brings to light besides its members. -/
structure Findings where
  faults : List SchemaFault
  references : List Reference
  deriving DecidableEq

namespace Findings

/-- Nothing. -/
def none : Findings := ⟨[], []⟩

instance : Append Findings := ⟨fun a b => ⟨a.faults ++ b.faults, a.references ++ b.references⟩⟩

end Findings

/-! ## Taken names -/

/-- Marks each item with whether its name is in `taken` or was an earlier item's. -/
def markTaken {α : Type} (key : α → Name) : List String → List α → List (α × Bool)
  | _, [] => []
  | taken, x :: xs =>
    (x, taken.contains (key x).text) :: markTaken key ((key x).text :: taken) xs

/-- The items whose names were free. -/
def untaken {α : Type} (key : α → Name) (taken : List String) (xs : List α) : List α :=
  (markTaken key taken xs).filterMap fun m => if m.2 then none else some m.1

/-- A fault for each item whose name was taken. -/
def takenFaults {α : Type} (sort : MemberSort) (owner : String) (key : α → Name)
    (taken : List String) (xs : List α) : List SchemaFault :=
  (markTaken key taken xs).filterMap fun m =>
    if m.2 then some (.repeated sort owner (key m.1)) else none

/-- The fault of a name that is kept for introspection. -/
def reservedFaults (name : Name) : List SchemaFault :=
  if isReservedName name.text then [.reserved name] else []

/-! ## Members -/

/-- A type as written, without the places. -/
def TypeNode.toRef : TypeNode → TypeRef
  | .named name => .named name.text
  | .list item _ => .list item.toRef
  | .nonNull item _ => .nonNull item.toRef

/-- The name of a type keeps its text. -/
theorem TypeNode.leaf_toRef (t : TypeNode) : t.toRef.leaf = t.leaf.text := by
  induction t with
  | named name => rfl
  | list item _ ih => exact ih
  | nonNull item _ ih => exact ih

/-- The arguments or input fields added to those there are. -/
def addedInputs (present : List InputValue) (defs : List InputDefinition) : List InputValue :=
  (untaken (·.name) (present.map (·.name)) defs).map fun d => ⟨d.name.text, d.type.toRef⟩

/-- What the definitions of arguments or input fields bring to light. -/
def inputFindings (sort : MemberSort) (owner : String) (present : List InputValue)
    (defs : List InputDefinition) : Findings where
  faults := (markTaken (·.name) (present.map (·.name)) defs).flatMap fun m =>
    reservedFaults m.1.name ++ if m.2 then [.repeated sort owner m.1.name] else []
  references := (untaken (·.name) (present.map (·.name)) defs).map fun d => ⟨d.type.leaf, .input⟩

/-- The field that a definition writes. -/
def FieldDefinition.toField (d : FieldDefinition) : Field :=
  ⟨d.name.text, d.type.toRef, addedInputs [] d.arguments⟩

/-- The fields added to those there are. -/
def addedFields (present : List Field) (defs : List FieldDefinition) : List Field :=
  (untaken (·.name) (present.map (·.name)) defs).map (·.toField)

/-- What the definitions of fields bring to light. The arguments of a field that is not added are
not looked at. -/
def fieldFindings (owner : String) (present : List Field) (defs : List FieldDefinition) :
    Findings where
  faults := (markTaken (·.name) (present.map (·.name)) defs).flatMap fun m =>
    reservedFaults m.1.name ++
      if m.2 then [.repeated .field owner m.1.name]
      else (inputFindings .argument owner [] m.1.arguments).faults
  references := (untaken (·.name) (present.map (·.name)) defs).flatMap fun d =>
    ⟨d.type.leaf, .output⟩ :: (inputFindings .argument owner [] d.arguments).references

/-- The names added to those there are. -/
def addedNames (present : List String) (names : List Name) : List String :=
  (untaken id present names).map (·.text)

/-- What a list of names of types brings to light. -/
def nameFindings (sort : MemberSort) (site : Site) (owner : String) (present : List String)
    (names : List Name) : Findings where
  faults := takenFaults sort owner id present names
  references := (untaken id present names).map (⟨·, site⟩)

/-! ## Types -/

/-- A type with the members of a body added. A body of another kind adds nothing. -/
def TypeShape.merge : TypeShape → TypeBody → TypeShape
  | .object o, .object implements fields =>
    .object ⟨o.fields ++ addedFields o.fields fields,
      o.implements ++ addedNames o.implements implements⟩
  | .interface present, .interface _ fields => .interface (present ++ addedFields present fields)
  | .union present, .union members => .union (present ++ addedNames present members)
  | .enum present, .enum values => .enum (present ++ addedNames present (values.map (·.name)))
  | .inputObject present, .inputObject fields =>
    .inputObject (present ++ addedInputs present fields)
  | shape, _ => shape

/-- What a body brings to light when it is added to a type. The interfaces of an interface are
checked, but not kept: each body is checked by itself. -/
def TypeShape.findings (owner : String) : TypeShape → TypeBody → Findings
  | .object o, .object implements fields =>
    fieldFindings owner o.fields fields ++
      nameFindings .interface .implements owner o.implements implements
  | .interface present, .interface implements fields =>
    fieldFindings owner present fields ++ nameFindings .interface .implements owner [] implements
  | .union present, .union members => nameFindings .member .unionMember owner present members
  | .enum present, .enum values => ⟨takenFaults .value owner (·.name) present values, []⟩
  | .inputObject present, .inputObject fields => inputFindings .field owner present fields
  | _, _ => .none

/-- Adding members does not change the kind of a type. -/
@[simp] theorem TypeShape.kind_merge (s : TypeShape) (b : TypeBody) : (s.merge b).kind = s.kind := by
  cases s <;> cases b <;> rfl

end ResolverContracts
