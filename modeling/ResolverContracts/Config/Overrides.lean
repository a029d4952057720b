import ResolverContracts.Config.Json
import ResolverContracts.Config.SymbolMap
/-!
# Overrides

A configuration says what schema types are in the program around the generated module: which type
stands for a custom scalar, which for an object, an interface or a union, which enum replaces an
enum, and what type the context argument has. `Overrides.parse` reads it from a text, which is either
an object of sections or a sequence that gives the sections in order.
-/

set_option autoImplicit false

namespace ResolverContracts

open JsonReader

/-- What a user says about the types of a schema. -/
structure Overrides where
  /-- The type of the context that every handler is given. -/
  contextType : Symbol
  /-- The types of custom scalars. -/
  scalars : SymbolMap
  /-- The types behind objects, interfaces and unions. -/
  mappers : SymbolMap
  /-- The enums that replace enums. -/
  enumValues : SymbolMap
  deriving DecidableEq

namespace Overrides

/-- Nothing is said. The context then is the type `Context` of a module beside the generated one. -/
def default : Overrides := ⟨.named "./context" "Context", .empty, .empty, .empty⟩

/-! ## Reading -/

/-- The sections read so far. -/
structure Sections where
  contextType : Option Symbol
  scalars : Option SymbolMap
  mappers : Option SymbolMap
  enumValues : Option SymbolMap

namespace Sections

/-- No section. -/
def empty : Sections := ⟨none, none, none, none⟩

/-- Whether a section was read. -/
def has (p : Sections) : Section → Bool
  | .contextType => p.contextType.isSome
  | .scalars => p.scalars.isSome
  | .mappers => p.mappers.isSome
  | .enumValues => p.enumValues.isSome

/-- The sections read; for the others nothing is said. -/
def complete (p : Sections) : Overrides where
  contextType := p.contextType.getD default.contextType
  scalars := p.scalars.getD .empty
  mappers := p.mappers.getD .empty
  enumValues := p.enumValues.getD .empty

end Sections

/-- A reference. -/
def readSymbol : JsonReader Symbol := do
  match Symbol.parse (← readText) with
  | .ok symbol => return symbol
  | .error e => fail (.badSymbol e)

/-- An entry of a section, behind its key. -/
def readEntry (name : String) (entries : SymbolMap) : JsonReader SymbolMap := do
  readColon
  return entries.insert name (← readSymbol)

/-- The entries of a section. -/
def readEntries : JsonReader SymbolMap := do
  match ← peek with
  | none => fail .ended
  | some '{' => do
    skipOne
    readObject readEntry .empty
  | some _ => refuse .table

/-- The contents of a section. -/
def readSection (part : Section) (p : Sections) : JsonReader Sections := do
  match part with
  | .contextType => return { p with contextType := some (← readSymbol) }
  | .scalars => return { p with scalars := some (← readEntries) }
  | .mappers => return { p with mappers := some (← readEntries) }
  | .enumValues => return { p with enumValues := some (← readEntries) }

/-- A section behind its key. A key that is unknown or was there before ends the reading at once. -/
def readKeyedSection (key : String) (p : Sections) : JsonReader Sections :=
  match Section.ofKey? key with
  | none => fail (.unknownSection key)
  | some part =>
    if p.has part then fail (.repeatedSection part)
    else do
      readColon
      readSection part p

/-- The sections of a sequence, as far as there are elements. -/
def readSequence (isFirst : Bool) : List Section → Sections → JsonReader Sections
  | [], p => return p
  | part :: parts, p => do
    if ← hasElement isFirst then readSequence false parts (← readSection part p)
    else return p

/-- A configuration. -/
def readOverrides : JsonReader Overrides := do
  match ← peek with
  | none => fail .ended
  | some '{' => do
    skipOne
    return (← readObject readKeyedSection .empty).complete
  | some '[' => do
    skipOne
    let p ← readSequence true Section.all .empty
    endArray
    return p.complete
  | some _ => refuse .configuration

/-! ## Checking -/

/-- The first enum that is replaced by a type expression. -/
def enumWithoutModule? (o : Overrides) : Option String :=
  (o.enumValues.entries.find? fun e => e.2.path?.isNone).map (·.1)

/-- Overrides in which every enum is replaced by something that can be exported. -/
def checked (o : Overrides) : Except ConfigError Overrides :=
  match o.enumWithoutModule? with
  | some name => .error (.enumWithoutModule name)
  | none => .ok o

/-- The overrides that a text gives. -/
def parse (text : String) : Except ConfigError Overrides :=
  let reader : JsonReader Overrides := do
    let overrides ← readOverrides
    endText
    return overrides
  match reader text.toList with
  | .ok r => r.1.1.checked
  | .error e => .error e

end Overrides

end ResolverContracts
