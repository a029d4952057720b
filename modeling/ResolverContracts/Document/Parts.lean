import ResolverContracts.Document.Basic
import ResolverContracts.Document.Cursor
import ResolverContracts.Document.Literal
/-!
# Parts of definitions

Readers for what definitions are made of: names, descriptions, types, constants, directives, fields
and arguments. None of them refuses a text. What is missing is reported and read as if it were
there, so that one fault does not hide the next.

Types and constants nest. Their readers ask for themselves only behind an opening bracket, where
fewer tokens are ahead, and that count is what they end by.
-/

set_option autoImplicit false

namespace ResolverContracts

open Reader

/-! ## Names and descriptions -/

/-- A name. Any word is one. Another token is reported and left where it is, and its text is taken
for the name. -/
def readName : Reader Name := do
  let token ← current
  if token.kind.isName then advance else complain .name
  return ⟨token.text, token.span⟩

/-- The contents of a string token; no other token has contents. -/
def Token.contents? (t : Token) : Option String :=
  match t.kind with
  | .string => some (withoutEnds 1 t.text)
  | .blockString => some (withoutEnds 3 t.text)
  | _ => none

/-- A description, if a string stands in front. -/
def readDescription : Reader (Option Description) := do
  let token ← current
  match token.contents? with
  | some text => do
    advance
    return some ⟨text, token.span⟩
  | none => return none

/-! ## Types -/

/-- Closes a type that started at `start`: an exclamation mark makes it non-null. -/
def closeType (start : Nat) (type : TypeNode) : Reader TypeNode := do
  if ← eat (.punct .bang) then return .nonNull type (← spanFrom start)
  else return type

/-- A type: a name or a bracketed type, either with an exclamation mark behind it. -/
def readType (c : Cursor) : Step c TypeNode :=
  let start := c.current.span.start
  if hk : c.kind = .punct .bracketOpen then
    have := Cursor.length_advance_ahead_lt (Cursor.ahead_ne_nil_of_punct hk)
    ((readType c.advance).since c.advance_ahead_suffix).andThen fun item => do
      expect (.punct .bracketClose)
      closeType start (.list item (← spanFrom start))
  else
    (readName c).andThen fun name => closeType start (.named name)
termination_by c.ahead.length

/-! ## Constants -/

/-- Takes a token as a constant. -/
def takeValue (start : Nat) (value : Span → Value) : Reader Value := do
  advance
  return value (← spanFrom start)

/-- A whole number. One that 64 bits cannot hold is reported and read as zero. -/
def readInt (start : Nat) : Reader Value := do
  match int64OfLiteral? (← current).text with
  | some n => takeValue start (.int n)
  | none => do
    complain .integerRange
    takeValue start (.int 0)

/-- A variable, which no constant may contain: it is reported and read as an enum value. -/
def readVariable : Reader Value := do
  complain .variableUse
  advance
  return .enum (← readName)

/-- What stands where no constant starts: it is reported, taken, and read as null. -/
def readNoValue (start : Nat) : Reader Value := do
  complain .value
  takeValue start .null

/-- A constant that is no list and no object. -/
def readScalarValue : Reader Value := do
  let token ← current
  let start := token.span.start
  match token.kind with
  | .int => readInt start
  | .float => takeValue start (.float token.text)
  | .string | .blockString => takeValue start (.string (token.contents?.getD ""))
  | .keyword .trueWord => takeValue start (.bool true)
  | .keyword .falseWord => takeValue start (.bool false)
  | .keyword .nullWord => takeValue start .null
  | .punct .dollar => readVariable
  | .name | .keyword _ => return .enum (← readName)
  | _ => readNoValue start

/-- The key of a field of an object constant, and the colon behind it. -/
def readKey : Reader Name := do
  let name ← readName
  expect (.punct .colon)
  return name

/-- A constant. -/
def readValue (c : Cursor) : Step c Value :=
  let start := c.current.span.start
  if hl : c.kind = .punct .bracketOpen then
    have hlt := Cursor.length_advance_ahead_lt (Cursor.ahead_ne_nil_of_punct hl)
    let items := itemsBelow c.left (.punct .bracketClose)
      (fun d hd => have := c.left_eq ▸ hd; readValue d) c.advance (c.left_eq ▸ hlt)
    (items.since c.advance_ahead_suffix).andThen fun items => do
      expect (.punct .bracketClose)
      return .list items (← spanFrom start)
  else if ho : c.kind = .punct .braceOpen then
    have hlt := Cursor.length_advance_ahead_lt (Cursor.ahead_ne_nil_of_punct ho)
    let field (d : Cursor) (hd : d.ahead.length < c.left) : Step d (Name × Value) :=
      have := c.left_eq ▸ hd
      have := (readKey d).2.length_le
      let value := readValue (readKey d).1.2
      ⟨(((readKey d).1.1, value.1.1), value.1.2), value.2.trans (readKey d).2⟩
    let fields := itemsBelow c.left (.punct .braceClose) field c.advance (c.left_eq ▸ hlt)
    (fields.since c.advance_ahead_suffix).andThen fun fields => do
      expect (.punct .braceClose)
      return .object fields (← spanFrom start)
  else readScalarValue c
termination_by c.ahead.length

/-! ## Directives -/

/-- An argument given to a directive. -/
def readArgument : Reader Argument := do
  let start ← place
  let name ← readName
  expect (.punct .colon)
  let value ← (readValue : Reader Value)
  return ⟨name, value, ← spanFrom start⟩

/-- Items in brackets that may be absent altogether. -/
def optionalItems {α : Type} (opening closing : Punctuator) (item : Reader α) : Reader (List α) := do
  if ← eat (.punct opening) then itemsIn closing item else return []

/-- Directives, as many as follow. -/
def readDirectives : Reader (List Directive) :=
  eachAfter .atSign fun start => do
    let name ← readName
    let arguments ← optionalItems .parenOpen .parenClose readArgument
    return ⟨name, arguments, ← spanFrom start⟩

/-! ## Fields and arguments -/

/-- The definition of an argument or of an input field. -/
def readInputDefinition : Reader InputDefinition := do
  let description ← readDescription
  let start ← place
  let name ← readName
  expect (.punct .colon)
  let type ← (readType : Reader TypeNode)
  let default ← if ← eat (.punct .equals) then some <$> (readValue : Reader Value) else pure none
  let directives ← readDirectives
  return ⟨description, name, type, default, directives, ← spanFrom start⟩

/-- The definitions of the arguments of a field or a directive. -/
def readArgumentDefinitions : Reader (List InputDefinition) :=
  optionalItems .parenOpen .parenClose readInputDefinition

/-- The definition of a field. -/
def readFieldDefinition : Reader FieldDefinition := do
  let description ← readDescription
  let start ← place
  let name ← readName
  let arguments ← readArgumentDefinitions
  expect (.punct .colon)
  let type ← (readType : Reader TypeNode)
  let directives ← readDirectives
  return ⟨description, name, arguments, type, directives, ← spanFrom start⟩

/-- The definition of an enum value. A word that is a constant is reported, and read as a value all
the same. -/
def readEnumValue : Reader EnumValueDefinition := do
  let description ← readDescription
  let start ← place
  match (← current).kind with
  | .keyword .trueWord | .keyword .falseWord | .keyword .nullWord => complain .constantAsEnumValue
  | _ => pure ()
  let name ← readName
  let directives ← readDirectives
  return ⟨description, name, directives, ← spanFrom start⟩

/-- The interfaces that a type lists, if it lists any. -/
def readImplements : Reader (List Name) := do
  if ← eat (.keyword .implements) then separated .ampersand readName else return []

/-- The members that a union lists, if it lists any. -/
def readMembers : Reader (List Name) := do
  if ← eat (.punct .equals) then separated .pipe readName else return []

end ResolverContracts
