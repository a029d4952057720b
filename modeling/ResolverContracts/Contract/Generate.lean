import ResolverContracts.Contract.Module
import ResolverContracts.Contract.Synthesis
/-!
# Generation and its events

The whole way from a schema and the user's overrides to the text of a module. On the way, events tell
what was found and done, and warn of entries without effect; they are the same whether or not anyone
listens, and stop where generation fails.
-/

set_option autoImplicit false

namespace ResolverContracts

/-- Why no module is generated. -/
inductive GenerateError
  | synthesis (error : SynthesisError)
  | rendering (error : ModuleError)
  deriving DecidableEq

/-- The error in words. -/
def GenerateError.message : GenerateError → String
  | synthesis error => error.message
  | rendering error => error.message

/-- The errors behind an error, the nearest first. -/
def GenerateError.causes : GenerateError → List String
  | synthesis (.field _ _ error) => [error.message]
  | _ => []

/-! ## Events -/

/-- How much an event matters. -/
inductive EventLevel
  | debug | warn
  deriving DecidableEq

/-- A detail of an event. -/
inductive Detail
  | count (n : Nat)
  | text (s : String)
  deriving DecidableEq

/-- What happens during a run. -/
inductive Event
  | schemaLoaded (types : Nat)
  /-- An override names nothing of the schema that it could override. -/
  | uselessOverride (part : Section) (name : String)
  | implementorsIndexed (interfaces : Nat)
  /-- A scalar of the schema has no type. -/
  | unmappedScalar (name : String)
  | declared (required optional declarations : Nat)
  | rendered (declarations bytes : Nat)
  deriving DecidableEq

namespace Event

/-- How much an event matters: what the user should look at is a warning. -/
def level : Event → EventLevel
  | uselessOverride .. | unmappedScalar .. => .warn
  | _ => .debug

/-- An event in words. -/
def message : Event → String
  | schemaLoaded _ => "schema loaded"
  | uselessOverride .. => "configuration entry names no matching schema type"
  | implementorsIndexed _ => "implementor index built"
  | unmappedScalar _ => "custom scalar has no mapping; its name is used as a placeholder type"
  | declared .. => "declarations synthesized"
  | rendered .. => "output rendered"

/-- The details of an event by name. -/
def details : Event → List (String × Detail)
  | schemaLoaded types => [("types", .count types)]
  | uselessOverride part name => [("section", .text part.key), ("name", .text name)]
  | implementorsIndexed interfaces => [("interfaces", .count interfaces)]
  | unmappedScalar name => [("scalar", .text name)]
  | declared required optional declarations =>
    [("required", .count required), ("optional", .count optional),
      ("declarations", .count declarations)]
  | rendered declarations bytes => [("declarations", .count declarations), ("bytes", .count bytes)]

end Event

/-- Whether an override in a section has an effect on a type of this kind. -/
def Section.concerns : Section → Kind → Bool
  | contextType, _ => false
  | scalars, k => k == .scalar
  | mappers, k => k == .object || k == .interface || k == .union
  | enumValues, k => k == .enum

namespace Project

/-- The events of overrides of a section that name no type of a fitting kind. -/
def uselessOverrides (p : Project) (part : Section) (entries : SymbolMap) : List Event :=
  (entries.names.filter fun name => !(p.catalogue.kindOf? name).any part.concerns).map
    (.uselessOverride part)

/-- The events before the declarations are made. -/
def preparationEvents (p : Project) : List Event :=
  p.uselessOverrides .scalars p.overrides.scalars ++
    p.uselessOverrides .mappers p.overrides.mappers ++
    p.uselessOverrides .enumValues p.overrides.enumValues ++
    [.implementorsIndexed p.catalogue.implementedInterfaces.length] ++
    (p.catalogue.customScalars.filter (!p.overrides.scalars.contains ·)).map .unmappedScalar

/-- The text of the module. -/
def generate (p : Project) : Except GenerateError String := do
  let set ← p.declarations.mapError .synthesis
  set.render.mapError .rendering

/-- The text of the module, or the error, with the events up to there. -/
def generateWithEvents (p : Project) : List Event × Except GenerateError String :=
  match p.declarations with
  | .error e => (p.preparationEvents, .error (.synthesis e))
  | .ok set =>
    let events := p.preparationEvents ++
      [.declared p.requiredObjects.length p.optionalObjects.length set.size]
    match set.render with
    | .error e => (events, .error (.rendering e))
    | .ok text => (events ++ [.rendered set.size text.utf8ByteSize], .ok text)

/-- Events do not change the result. -/
theorem snd_generateWithEvents (p : Project) : p.generateWithEvents.2 = p.generate := by
  unfold generateWithEvents generate
  cases p.declarations with
  | error e => rfl
  | ok set =>
    simp only
    cases hr : set.render with
    | error e => exact congrArg (Except.mapError GenerateError.rendering) hr.symm
    | ok text => exact congrArg (Except.mapError GenerateError.rendering) hr.symm

end Project

end ResolverContracts
