import ResolverContracts.Contract.Declaration
import ResolverContracts.Contract.Resolution
import ResolverContracts.Text.Words
/-!
# From schema to declarations

The module of a schema is declared section by section: the root contract, the handlers, the types
they are written with, the arguments of their fields, the data, the enums, what has to be told apart
at run time, and the names for interfaces and unions. Each section follows the catalogue.

An object takes over the contracts of the interfaces it implements, unless the user gives a type for
the interface; a field that such an interface has is left to its contract.
-/

set_option autoImplicit false

namespace ResolverContracts

/-- Why a schema has no declarations. -/
inductive SynthesisError
  /-- The type of a field, an argument, an input field or a member has no type expression. -/
  | field (owner place : String) (error : TypeError)
  /-- Two values of an enum get the same identifier. -/
  | enumCollision (enum identifier first second : String)
  deriving DecidableEq

/-- The error in words. -/
def SynthesisError.message : SynthesisError → String
  | field owner place error => owner ++ "." ++ place ++ ": " ++ error.message
  | enumCollision enum identifier first second =>
    "enum `" ++ enum ++ "`: values `" ++ first ++ "` and `" ++ second ++ "` both become member `" ++
      identifier ++ "`"

namespace Project

/-! ## Records -/

/-- The type of a reference, with the place to blame if it has none. -/
def typeAt (p : Project) (owner place : String) (access : Access) (type : TypeRef) :
    Except SynthesisError TypeExpr :=
  (p.mapType access type).mapError (.field owner place)

/-- The fields of a record of values that are given: each can be left out if it may be missing.
`place` says how an error names a value. -/
def inputRecordFields (p : Project) (owner : String) (place : InputValue → String)
    (values : List InputValue) : Except SynthesisError (List RecordField) :=
  values.mapM fun value => do
    return ⟨value.name, ← p.typeAt owner (place value) .mutable value.type, !value.type.isNonNull⟩

/-- The data behind the fields of a type. Every field is there, even if its value is missing. -/
def dataRecord (p : Project) (owner : String) (fields : List Field) :
    Except SynthesisError Record := do
  let fields ← fields.mapM fun field => do
    return (⟨field.name, ← p.typeAt owner field.name .mutable field.type, false⟩ : RecordField)
  return ⟨owner, fields⟩

/-! ## Handlers -/

/-- The record of the arguments of a field, if it has arguments. -/
def argsRecord? (p : Project) (owner : String) (field : Field) :
    Except SynthesisError (Option Record) :=
  if field.arguments.isEmpty then return none
  else do
    let place (argument : InputValue) : String := field.name ++ "(" ++ argument.name ++ ")"
    let fields ← p.inputRecordFields owner place field.arguments
    return some ⟨argsRecordName owner field.name, fields⟩

/-- A field of a contract, and the record of its arguments. -/
def handlerField (p : Project) (owner : String) (root : TypeExpr) (isSubscription : Bool)
    (field : Field) : Except SynthesisError (HandlerField × Option Record) := do
  let record ← p.argsRecord? owner field
  let args := match record with
    | some record => TypeExpr.declared record.name
    | none => .emptyRecord
  let result ← p.typeAt owner field.name .readonly field.type
  return (⟨field.name, isSubscription, root, args, result⟩, record)

/-- A contract with the records of the arguments of its fields. -/
structure HandlerWithArgs where
  handler : Handler
  records : List Record

/-- The contract of some fields. -/
def handlerOf (p : Project) (owner : String) (parameter : Option String)
    (extensions : List Extension) (root : TypeExpr) (isSubscription : Bool) (fields : List Field) :
    Except SynthesisError HandlerWithArgs := do
  let answered ← fields.mapM (p.handlerField owner root isSubscription)
  return ⟨⟨resolversName owner, parameter, extensions, answered.map (·.1)⟩,
    answered.filterMap (·.2)⟩

/-- The generic contract of an interface: its parameter stands for the type that implements it. -/
def interfaceHandler (p : Project) (name : String) (fields : List Field) :
    Except SynthesisError HandlerWithArgs :=
  p.handlerOf name (some "T") [] (.parameter "T") false fields

/-- The interfaces whose contracts an object takes over, with their fields: those it names that are
interfaces and that the user gives no type for. -/
def extendedInterfaces (p : Project) (object : ObjectType) : List (String × List Field) :=
  object.implements.filterMap fun name =>
    if p.isMapped name then none
    else (p.catalogue.get? name).bind fun type =>
      match type.shape with
      | .interface fields => some (name, fields)
      | _ => none

/-- The fields of an object that no contract it takes over has. -/
def ownFields (p : Project) (object : ObjectType) : List Field :=
  let inherited := (p.extendedInterfaces object).flatMap fun i => i.2.map (·.name)
  object.fields.filter fun field => !inherited.contains field.name

/-- The contract of an object. -/
def objectHandler (p : Project) (name : String) (object : ObjectType) :
    Except SynthesisError HandlerWithArgs :=
  let root := p.mapComposite name
  let extensions := (p.extendedInterfaces object).map fun i => ⟨resolversName i.1, root⟩
  p.handlerOf name none extensions root (p.catalogue.roots.isSubscription name) (p.ownFields object)

/-! ## Sections -/

/-- The objects that are declared. Names kept for introspection are not. -/
def declaredObjects (p : Project) : List (String × ObjectType) :=
  p.catalogue.objects.filter fun o => !isReservedName o.1

/-- Whether the handlers of an object must be given: the user gives a type for it, or it is a root
without data. -/
def isRequired (p : Project) (name : String) : Bool :=
  p.isMapped name || p.catalogue.roots.isQueryOrMutation name

/-- The objects whose handlers must be given. -/
def requiredObjects (p : Project) : List (String × ObjectType) :=
  p.declaredObjects.filter fun o => p.isRequired o.1

/-- The objects whose handlers can be left out. They have data to read. -/
def optionalObjects (p : Project) : List (String × ObjectType) :=
  p.declaredObjects.filter fun o => !p.isRequired o.1

/-- The interfaces that the user gives no type for. -/
def unmappedInterfaces (p : Project) : List (String × List Field) :=
  p.catalogue.interfaces.filter fun i => !p.isMapped i.1

/-- The interfaces that an object implements. -/
def implementedInterfaces (p : Project) : List String :=
  (p.catalogue.interfaces.map (·.1)).filter p.catalogue.hasImplementors

/-- The contract of the module. -/
def rootContract (p : Project) : RootContract :=
  ⟨p.requiredObjects.map (·.1), p.optionalObjects.map (·.1), p.catalogue.customScalars⟩

/-- The members of an enum. `members` are those of the values before, none of which collide. -/
def enumMembersAfter (enum : String) (members : List EnumMember) :
    List String → Except SynthesisError (List EnumMember)
  | [] => .ok members
  | value :: values =>
    let identifier := pascalCase value
    match members.find? (·.identifier == identifier) with
    | some first => .error (.enumCollision enum identifier first.value value)
    | none => enumMembersAfter enum (members ++ [⟨identifier, value⟩]) values

/-- The declaration of an enum: the user's enum under its name, or an enum of its values. -/
def enumDeclaration (p : Project) (name : String) (values : List String) :
    Except SynthesisError Declaration :=
  match p.overrides.enumValues.get? name with
  | some symbol => .ok (.reexport name (symbol.toExternal name))
  | none => (enumMembersAfter name [] values).map (.enum name)

/-- What has to be told apart at run time: the unions that have members, then the interfaces that
have implementors. -/
def discriminationTable (p : Project) : List Alias :=
  let unions := p.catalogue.unions.filter fun u => !u.2.isEmpty
  (unions.map fun u => ⟨u.1, p.unionMembers u.2⟩) ++
    p.implementedInterfaces.map fun name => ⟨name, p.interfaceMembers name⟩

/-- The name that stands for the implementors of an interface. -/
def implementorsAlias (p : Project) (name : String) : Alias :=
  ⟨name ++ "Types", p.interfaceMembers name⟩

/-- The name that stands for the members of a union. -/
def unionAlias (p : Project) (name : String) (members : List String) :
    Except SynthesisError Alias := do
  let members ← members.mapM fun member => (p.mapNamed member).mapError (.field name member)
  return ⟨name, members⟩

/-- The declarations of a schema. -/
def declarations (p : Project) : Except SynthesisError DeclarationSet := do
  let interfaceHandlers ← p.unmappedInterfaces.mapM fun i => p.interfaceHandler i.1 i.2
  let objectHandlers ←
    (p.requiredObjects ++ p.optionalObjects).mapM fun o => p.objectHandler o.1 o.2
  let handlers := interfaceHandlers ++ objectHandlers
  let objectData ← p.optionalObjects.mapM fun o => p.dataRecord o.1 o.2.fields
  let interfaceData ← p.unmappedInterfaces.mapM fun i => p.dataRecord i.1 i.2
  let inputs ← p.catalogue.inputObjects.mapM fun i => do
    return (⟨i.1, ← p.inputRecordFields i.1 (·.name) i.2⟩ : Record)
  let enums ← p.catalogue.enums.mapM fun e => p.enumDeclaration e.1 e.2
  let unions ← p.catalogue.unions.mapM fun u => p.unionAlias u.1 u.2
  return ⟨p.overrides.contextType.toExternal "Context",
    [.root p.rootContract] ++
    handlers.map (fun h => .handler h.handler) ++
    [.helpers] ++
    (handlers.flatMap (·.records)).map .args ++
    (objectData ++ interfaceData).map .dto ++
    inputs.map .input ++
    enums ++
    [.table p.discriminationTable] ++
    p.implementedInterfaces.map (fun name => .implementors (p.implementorsAlias name)) ++
    unions.map .union⟩

end Project

end ResolverContracts
