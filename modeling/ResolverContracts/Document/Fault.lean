import ResolverContracts.Document.Token
import ResolverContracts.Text.Diagnostic
/-!
# Faults of a text

Where a schema text is not of the form required, a fault tells what was wanted, which token stood
there, and where. A fault is a cause; the wording is in `Fault.toDiagnostic` alone.
-/

set_option autoImplicit false

namespace ResolverContracts

/-- What was wanted, or not wanted, at a token. -/
inductive Complaint
  | definition
  | typeDefinition
  | name
  | rootOperation
  | location
  | value
  /-- A whole number outside of 64 bits. -/
  | integerRange
  /-- An enum value with the spelling of a constant. -/
  | constantAsEnumValue
  /-- A variable where only constants are allowed. -/
  | variableUse
  deriving DecidableEq

/-- The complaint as a sentence says it. -/
def Complaint.text : Complaint → String
  | definition => "expected definition"
  | typeDefinition => "expected type definition"
  | name => "expected name"
  | rootOperation => "expected `query`, `mutation` or `subscription`"
  | location => "expected directive location"
  | value => "expected value"
  | integerRange => "integer literal out of range"
  | constantAsEnumValue => "enum values cannot be `true`, `false` or `null`"
  | variableUse => "variables are not allowed in a schema"

/-- Why a text is refused at a token. -/
inductive Cause
  /-- One certain token was required. -/
  | missing (expected : TokenKind)
  | complaint (about : Complaint)
  /-- An extension with a description. -/
  | describedExtension
  /-- An operation or a fragment. -/
  | executable
  deriving DecidableEq

/-- A fault: its cause, and the kind and place of the token it was found at. -/
structure Fault where
  cause : Cause
  found : TokenKind
  span : Span
  deriving DecidableEq

/-- A fault in words. At the end of the text the end itself is the fault, whatever was wanted. -/
def Fault.toDiagnostic (f : Fault) : Diagnostic :=
  match f.cause with
  | .missing expected =>
    if f.found = .endOfText then
      .error Code.unexpectedEnd "unexpected end of input" [⟨f.span, "expected " ++ expected.display⟩]
    else
      .error Code.unexpectedToken "unexpected token"
        [⟨f.span, "expected " ++ expected.display ++ ", found " ++ f.found.display⟩]
  | .complaint about =>
    if f.found = .endOfText then
      .error Code.unexpectedEnd "unexpected end of input" [⟨f.span, about.text⟩]
    else
      .error Code.invalidForm about.text [⟨f.span, about.text ++ ", found " ++ f.found.display⟩]
  | .describedExtension =>
    .error Code.invalidForm "extensions cannot have descriptions" [⟨f.span, "remove the description"⟩]
  | .executable =>
    .error Code.invalidForm "executable definitions are not allowed in a schema"
      [⟨f.span, "operations and fragments belong in documents, not in the schema"⟩]

end ResolverContracts
