import ResolverContracts.Document.Lexeme
import ResolverContracts.Document.Parts
/-!
# From text to document

`Document.parse` reads every text. The result is the document of all definitions that could be made
out, together with the faults; only a result without faults says that the text is a schema text.

A definition that starts with none of the known words is reported and skipped by the loop over
definitions. Operations and fragments have a place in other documents: they cost one fault, and are
skipped up to the brace that closes them.
-/

set_option autoImplicit false

namespace ResolverContracts

open Reader

/-! ## Type definitions -/

/-- The definition of an object or an interface behind its keyword; `body` joins the interfaces and
the fields. -/
def readFieldedType (description : Option Description) (start : Nat)
    (body : List Name → List FieldDefinition → TypeBody) : Reader TypeDefinition := do
  let name ← readName
  let implements ← readImplements
  let directives ← readDirectives
  let fields ← optionalItems .braceOpen .braceClose readFieldDefinition
  return ⟨description, name, directives, body implements fields, ← spanFrom start⟩

/-- Any other type definition behind its keyword; `body` reads what stands behind the directives. -/
def readPlainType (description : Option Description) (start : Nat) (body : Reader TypeBody) :
    Reader TypeDefinition := do
  let name ← readName
  let directives ← readDirectives
  let body ← body
  return ⟨description, name, directives, body, ← spanFrom start⟩

/-- A type definition, if a keyword for one stands here. -/
def readTypeDefinition (description : Option Description) : Reader (Option TypeDefinition) := do
  let token ← current
  let start := token.span.start
  match token.kind with
  | .keyword .type => do
    advance
    some <$> readFieldedType description start .object
  | .keyword .interface => do
    advance
    some <$> readFieldedType description start .interface
  | .keyword .union => do
    advance
    some <$> readPlainType description start (.union <$> readMembers)
  | .keyword .enum => do
    advance
    some <$> readPlainType description start
      (.enum <$> optionalItems .braceOpen .braceClose readEnumValue)
  | .keyword .input => do
    advance
    some <$> readPlainType description start
      (.inputObject <$> optionalItems .braceOpen .braceClose readInputDefinition)
  | .keyword .scalar => do
    advance
    some <$> readPlainType description start (pure .scalar)
  | _ => do
    complain .typeDefinition
    return none

/-! ## Schema blocks -/

/-- The operation that a token names. -/
def TokenKind.operation? : TokenKind → Option Operation
  | .keyword .query => some .query
  | .keyword .mutation => some .mutation
  | .keyword .subscription => some .subscription
  | _ => none

/-- The binding of an operation. -/
def readRootBinding : Reader (Option RootBinding) := do
  let token ← current
  match token.kind.operation? with
  | some operation => do
    advance
    expect (.punct .colon)
    let type ← readName
    return some ⟨operation, type, ← spanFrom token.span.start⟩
  | none => do
    complain .rootOperation
    return none

/-- A schema block from its keyword on. Its span starts at `start`, which for an extension is a word
earlier. -/
def readSchemaDefinition (description : Option Description) (start : Nat) :
    Reader SchemaDefinition := do
  advance
  let directives ← readDirectives
  let operations ← optionalItems .braceOpen .braceClose readRootBinding
  return ⟨description, directives, operations.filterMap id, ← spanFrom start⟩

/-! ## Directive definitions -/

/-- The places of a directive. They end at the first word that is none. -/
def readLocations (c : Cursor) : Step c (List Location) :=
  match hc : c.ahead.head?.bind (Location.ofText? ·.text) with
  | none => (complain .location c).andThen fun _ => pure []
  | some location =>
    have hb : c.ahead ≠ [] := by intro hn; simp [hn] at hc
    have := Cursor.length_advance_ahead_lt hb
    let mark := (eat (.punct .pipe) c.advance).since c.advance_ahead_suffix
    have : mark.1.2.ahead.length < c.ahead.length :=
      Nat.lt_of_le_of_lt (eat (.punct .pipe) c.advance).2.length_le this
    if mark.1.1 then
      let rest := readLocations mark.1.2
      ⟨(location :: rest.1.1, rest.1.2), rest.2.trans mark.2⟩
    else ⟨([location], mark.1.2), mark.2⟩
termination_by c.ahead.length

/-- A directive definition from its keyword on. -/
def readDirectiveDefinition (description : Option Description) : Reader DirectiveDefinition := do
  let start ← place
  advance
  expect (.punct .atSign)
  let name ← readName
  let arguments ← readArgumentDefinitions
  let repeatable ← eat (.keyword .repeatable)
  expect (.keyword .on)
  let _ ← eat (.punct .pipe)
  let locations ← (readLocations : Reader (List Location))
  return ⟨description, name, arguments, repeatable, locations, ← spanFrom start⟩

/-! ## Documents -/

/-- What extends a definition, behind the word `extend` that stood at `start`. -/
def readExtension (start : Nat) : Reader (Option Definition) := do
  if (← current).kind = .keyword .schema then
    return some (.schemaExtension (← readSchemaDefinition none start))
  else
    return (← readTypeDefinition none).map .typeExtension

/-- A definition, if one stands here. -/
def readDefinition : Reader (Option Definition) := do
  let description ← readDescription
  let token ← current
  match token.kind with
  | .keyword .schema => return some (.schema (← readSchemaDefinition description token.span.start))
  | .keyword .type | .keyword .interface | .keyword .union | .keyword .enum | .keyword .input
  | .keyword .scalar => return (← readTypeDefinition description).map .type
  | .keyword .directive => return some (.directive (← readDirectiveDefinition description))
  | .keyword .extend => do
    if description.isSome then report .describedExtension
    advance
    readExtension token.span.start
  | .keyword .query | .keyword .mutation | .keyword .subscription | .keyword .fragment
  | .punct .braceOpen => do
    report .executable
    (skipTo .braceOpen : Reader Unit)
    (skipBlock 0 : Reader Unit)
    return none
  | _ => do
    complain .definition
    return none

/-- A document and the faults of the text it was read from. -/
structure Parsed where
  document : Document
  faults : List Fault

/-- Reads a text that was cut into tokens. -/
def Parsed.ofLexed (lexed : Lexed) : Parsed :=
  let start := Cursor.start lexed.tokens lexed.stop
  let (definitions, finish) := (itemsUntil .endOfText readDefinition).run start
  ⟨⟨definitions.filterMap id, ⟨start.current.span.start, finish.current.span.stop⟩⟩, finish.faults⟩

/-- Reads a text. -/
def Document.parse (text : String) : Parsed := .ofLexed (.ofText text)

/-- The faults as diagnostics. -/
def Parsed.diagnostics (p : Parsed) : Diagnostics := ⟨p.faults.map (·.toDiagnostic)⟩

end ResolverContracts
