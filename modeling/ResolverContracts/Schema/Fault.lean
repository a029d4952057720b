import ResolverContracts.Document.Basic
import ResolverContracts.Text.Diagnostic
/-!
# Faults of a schema

Why a document is no schema. A fault is a cause with the names and places it is about; its wording is
in `SchemaFault.toDiagnostic` alone. Every fault is an error.
-/

set_option autoImplicit false

namespace ResolverContracts

/-- Where a type is referred to. The place decides which kinds are allowed. -/
inductive Site
  | output | input | implements | unionMember | root
  deriving DecidableEq

/-- Whether a type of this kind may be referred to from there. -/
def Site.allows : Site → Kind → Bool
  | output, k => k.isOutput
  | input, k => k.isInput
  | implements, k => k == .interface
  | unionMember, k => k.isUnionMember
  | root, k => k == .object

/-- The members of a type that may not repeat. -/
inductive MemberSort
  | field | argument | interface | member | value
  deriving DecidableEq

/-- The sort as a sentence names it. -/
def MemberSort.label : MemberSort → String
  | field => "field"
  | argument => "argument"
  | interface => "interface"
  | member => "member"
  | value => "value"

/-- Why a document is no schema. -/
inductive SchemaFault
  /-- A name kept for introspection is used. -/
  | reserved (name : Name)
  /-- A type is defined again. -/
  | redefined (name : Name)
  /-- Nothing of this name can be extended. -/
  | noTarget (name : Name)
  /-- The target of an extension is of another kind. -/
  | otherTarget (name : Name) (extendedAs found : Kind)
  /-- A member of a type is named again. -/
  | repeated (sort : MemberSort) (owner : String) (name : Name)
  /-- The schema is defined again. -/
  | secondSchema (second first : Span)
  /-- An operation is bound again. -/
  | rootRebound (operation : Operation) (span : Span)
  /-- A reference to no type. -/
  | unknown (name : Name)
  /-- A reference to a type of a kind that is not allowed there. -/
  | misplaced (site : Site) (name : Name) (found : Kind)
  deriving DecidableEq

/-- A reference to a type of a wrong kind, in words. -/
def misplacedDiagnostic (site : Site) (name : Name) (found : Kind) : Diagnostic :=
  let wrongPosition (title help : String) : Diagnostic :=
    ⟨.error, Code.wrongPosition, title, some help, [⟨name.span, "used here"⟩]⟩
  match site with
  | .output =>
    wrongPosition (found.label ++ " `" ++ name.text ++ "` cannot be used as an output type")
      "input objects may only appear in arguments and input fields"
  | .input =>
    wrongPosition (found.label ++ " `" ++ name.text ++ "` cannot be used as an input type")
      "arguments and input fields take scalars, enums and input objects"
  | .unionMember =>
    wrongPosition (found.label ++ " `" ++ name.text ++ "` cannot be a union member")
      "list the implementing object types instead"
  | .root =>
    wrongPosition
      ("root operation type `" ++ name.text ++ "` must be an object type, found " ++ found.label)
      "bind the operation to an object type in the `schema` definition"
  | .implements =>
    .error Code.notAnInterface ("`" ++ name.text ++ "` is not an interface")
      [⟨name.span, "`" ++ name.text ++ "` is " ++ found.label⟩]

/-- A fault in words. -/
def SchemaFault.toDiagnostic : SchemaFault → Diagnostic
  | reserved name =>
    .error Code.reservedName ("`" ++ name.text ++ "` uses a reserved name")
      [⟨name.span, "names starting with `__` are reserved for introspection"⟩]
  | redefined name =>
    .error Code.duplicateType ("type `" ++ name.text ++ "` is defined more than once")
      [⟨name.span, "redefined here"⟩]
  | noTarget name =>
    .error Code.undefinedExtensionTarget ("cannot extend undefined type `" ++ name.text ++ "`")
      [⟨name.span, "no such type"⟩]
  | otherTarget name extendedAs found =>
    .error Code.undefinedExtensionTarget
      ("cannot extend `" ++ name.text ++ "` as " ++ extendedAs.label)
      [⟨name.span, "`" ++ name.text ++ "` is " ++ found.label⟩]
  | repeated sort owner name =>
    .error Code.duplicateMember
      ("duplicate " ++ sort.label ++ " `" ++ name.text ++ "` on `" ++ owner ++ "`")
      [⟨name.span, "`" ++ name.text ++ "` is already declared"⟩]
  | secondSchema second first =>
    .error Code.duplicateType "schema is defined more than once"
      [⟨second, "second definition"⟩, ⟨first, "first defined here"⟩]
  | rootRebound operation span =>
    .error Code.duplicateMember ("`" ++ operation.keyword ++ "` root is bound more than once")
      [⟨span, "already bound"⟩]
  | unknown name =>
    .error Code.undefinedType ("unknown type `" ++ name.text ++ "`")
      [⟨name.span, "`" ++ name.text ++ "` is not defined"⟩]
  | misplaced site name found => misplacedDiagnostic site name found

end ResolverContracts
