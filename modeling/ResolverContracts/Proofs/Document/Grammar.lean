import ResolverContracts.Document.Names
import ResolverContracts.Proofs.Document.Layout
/-!
# The grammar of schema documents

Which rows of tokens say which document: `d.Written ls` for each part `d` of a document, said without
a reader. One document can be written in many ways, and all of them are here. A list in brackets that
has no elements may be left out together with its brackets (`Bracketed`), a row of names may have its
mark in front of the first one, too (`Separated`), a string may be written with either kind of
quotes, and a minus in front of zero changes nothing. Every word is a name, even one that is a keyword
elsewhere; only constants and enum values cannot be called `true`, `false` or `null`.

Spans do not matter to any of this: a part that was never read from a text has the same writings.
-/

set_option autoImplicit false

namespace ResolverContracts

open Lexeme (word keyword mark)

/-! ## Rows of elements -/

section Rows

variable {α : Type}

/-- Elements written one behind the other. -/
inductive Row (W : α → List Lexeme → Prop) : List α → List Lexeme → Prop
  | nil : Row W [] []
  | cons {x : α} {xs : List α} {ls more : List Lexeme} (hx : W x ls) (hxs : Row W xs more) :
      Row W (x :: xs) (ls ++ more)

/-- Elements in brackets. Where there are none, the brackets may be missing. -/
inductive Bracketed (opening closing : Punctuator) (W : α → List Lexeme → Prop) :
    List α → List Lexeme → Prop
  | absent : Bracketed opening closing W [] []
  | present {xs : List α} {ls : List Lexeme} (hxs : Row W xs ls) :
      Bracketed opening closing W xs (mark opening :: (ls ++ [mark closing]))

/-- One word or more with a mark between each two, and perhaps one in front. -/
inductive Separated (p : Punctuator) (text : α → String) : List α → List Lexeme → Prop
  | plain {x : α} {xs : List α} {more : List Lexeme}
      (hxs : Row (fun y ls => ls = [mark p, word (text y)]) xs more) :
      Separated p text (x :: xs) (word (text x) :: more)
  | behindMark {x : α} {xs : List α} {more : List Lexeme}
      (hxs : Row (fun y ls => ls = [mark p, word (text y)]) xs more) :
      Separated p text (x :: xs) (mark p :: word (text x) :: more)

/-- A clause that opens with `opener` and lists names, or no clause where there are none to list. -/
inductive Listed (opener : Lexeme) (p : Punctuator) : List Name → List Lexeme → Prop
  | absent : Listed opener p [] []
  | present {names : List Name} {ls : List Lexeme} (h : Separated p Name.text names ls) :
      Listed opener p names (opener :: ls)

end Rows

/-! ## Strings, types and constants -/

/-- A text with `n` quotes on either side. -/
def betweenQuotes (n : Nat) (contents : String) : String :=
  String.ofList (List.replicate n '"' ++ (contents.toList ++ List.replicate n '"'))

/-- A string with these contents: in one pair of quotes, or in triple quotes. -/
inductive StringWritten (contents : String) : Lexeme → Prop
  | string : StringWritten contents ⟨.string, betweenQuotes 1 contents⟩
  | blockString : StringWritten contents ⟨.blockString, betweenQuotes 3 contents⟩

/-- A description stands as a string, and no description as nothing. -/
inductive DescriptionWritten : Option Description → List Lexeme → Prop
  | absent : DescriptionWritten none []
  | present {d : Description} {l : Lexeme} (h : StringWritten d.text l) :
      DescriptionWritten (some d) [l]

/-- A type. No mark stands behind another one. -/
inductive TypeNode.Written : TypeNode → List Lexeme → Prop
  | named (name : Name) : Written (.named name) [word name.text]
  | list {item : TypeNode} {ls : List Lexeme} (span : Span) (h : Written item ls) :
      Written (.list item span) (mark .bracketOpen :: (ls ++ [mark .bracketClose]))
  | nonNullNamed (name : Name) (span : Span) :
      Written (.nonNull (.named name) span) [word name.text, mark .bang]
  | nonNullList {item : TypeNode} {ls : List Lexeme} (span outer : Span) (h : Written item ls) :
      Written (.nonNull (.list item span) outer)
        (mark .bracketOpen :: (ls ++ [mark .bracketClose, mark .bang]))

/-- The decimal writing of a whole number. Zero may have a sign. -/
inductive IntegerWritten : Int → String → Prop
  | decimal (n : Int) : IntegerWritten n (toString n)
  | negativeZero : IntegerWritten 0 "-0"

/-- The words that are constants and no enum values. -/
def constantWords : List String := ["true", "false", "null"]

/-- A constant of one token. A whole number is one of 64 bits with a sign. -/
inductive Value.ScalarWritten : Value → Lexeme → Prop
  | int {n : Int} {text : String} (span : Span) (h : IntegerWritten n text)
      (hrange : -9223372036854775808 ≤ n ∧ n ≤ 9223372036854775807) :
      ScalarWritten (.int n span) ⟨.int, text⟩
  | float (literal : String) (span : Span) : ScalarWritten (.float literal span) ⟨.float, literal⟩
  | string {contents : String} {l : Lexeme} (span : Span) (h : StringWritten contents l) :
      ScalarWritten (.string contents span) l
  | true (span : Span) : ScalarWritten (.bool true span) (keyword .trueWord)
  | false (span : Span) : ScalarWritten (.bool false span) (keyword .falseWord)
  | null (span : Span) : ScalarWritten (.null span) (keyword .nullWord)
  | enum {name : Name} (h : name.text ∉ constantWords) : ScalarWritten (.enum name) (word name.text)

mutual

/-- A constant. What stands in brackets needs nothing between the elements. -/
inductive Value.Written : Value → List Lexeme → Prop
  | scalar {v : Value} {l : Lexeme} (h : v.ScalarWritten l) : Value.Written v [l]
  | list {items : List Value} {ls : List Lexeme} (span : Span) (h : Row Value.Written items ls) :
      Value.Written (.list items span) (mark .bracketOpen :: (ls ++ [mark .bracketClose]))
  | object {fields : List (Name × Value)} {ls : List Lexeme} (span : Span)
      (h : Row Value.FieldWritten fields ls) :
      Value.Written (.object fields span) (mark .braceOpen :: (ls ++ [mark .braceClose]))

/-- A field of an object constant. -/
inductive Value.FieldWritten : Name × Value → List Lexeme → Prop
  | field {v : Value} {ls : List Lexeme} (name : Name) (h : Value.Written v ls) :
      Value.FieldWritten (name, v) (word name.text :: mark .colon :: ls)

end

/-! ## Directives, arguments and fields -/

/-- An argument given to a directive. -/
inductive Argument.Written (a : Argument) : List Lexeme → Prop
  | parts {value : List Lexeme} (hvalue : a.value.Written value) :
      Written a (word a.name.text :: mark .colon :: value)

/-- A directive applied to something. -/
inductive Directive.Written (d : Directive) : List Lexeme → Prop
  | parts {arguments : List Lexeme}
      (harguments : Bracketed .parenOpen .parenClose Argument.Written d.arguments arguments) :
      Written d (mark .atSign :: word d.name.text :: arguments)

/-- The default of an argument or an input field. -/
inductive DefaultWritten : Option Value → List Lexeme → Prop
  | absent : DefaultWritten none []
  | present {v : Value} {ls : List Lexeme} (h : v.Written ls) :
      DefaultWritten (some v) (mark .equals :: ls)

/-- The definition of an argument or of an input field. -/
inductive InputDefinition.Written (d : InputDefinition) : List Lexeme → Prop
  | parts {description type default directives : List Lexeme}
      (hdescription : DescriptionWritten d.description description) (htype : d.type.Written type)
      (hdefault : DefaultWritten d.default default)
      (hdirectives : Row Directive.Written d.directives directives) :
      Written d (description ++
        word d.name.text :: mark .colon :: (type ++ (default ++ directives)))

/-- The definitions of the arguments of a field or a directive. -/
abbrev ArgumentsWritten : List InputDefinition → List Lexeme → Prop :=
  Bracketed .parenOpen .parenClose InputDefinition.Written

/-- The definition of a field. -/
inductive FieldDefinition.Written (d : FieldDefinition) : List Lexeme → Prop
  | parts {description arguments type directives : List Lexeme}
      (hdescription : DescriptionWritten d.description description)
      (harguments : ArgumentsWritten d.arguments arguments) (htype : d.type.Written type)
      (hdirectives : Row Directive.Written d.directives directives) :
      Written d (description ++
        word d.name.text :: (arguments ++ mark .colon :: (type ++ directives)))

/-- The definition of an enum value. -/
inductive EnumValueDefinition.Written (d : EnumValueDefinition) : List Lexeme → Prop
  | parts {description directives : List Lexeme}
      (hdescription : DescriptionWritten d.description description)
      (hname : d.name.text ∉ constantWords)
      (hdirectives : Row Directive.Written d.directives directives) :
      Written d (description ++ word d.name.text :: directives)

/-! ## Definitions -/

/-- The members of a type definition, which stand behind its directives. -/
def TypeBody.MembersWritten : TypeBody → List Lexeme → Prop
  | .scalar => fun ls => ls = []
  | .object _ fields | .interface _ fields =>
    Bracketed .braceOpen .braceClose FieldDefinition.Written fields
  | .union members => Listed (mark .equals) .pipe members
  | .enum values => Bracketed .braceOpen .braceClose EnumValueDefinition.Written values
  | .inputObject fields => Bracketed .braceOpen .braceClose InputDefinition.Written fields

/-- A type definition. -/
inductive TypeDefinition.Written (d : TypeDefinition) : List Lexeme → Prop
  | parts {description implements directives members : List Lexeme}
      (hdescription : DescriptionWritten d.description description)
      (himplements : Listed (keyword .implements) .ampersand d.body.implementsNames implements)
      (hdirectives : Row Directive.Written d.directives directives)
      (hmembers : d.body.MembersWritten members) :
      Written d (description ++ word d.body.kind.keyword :: word d.name.text ::
        (implements ++ (directives ++ members)))

/-- The binding of an operation. -/
inductive RootBinding.Written (b : RootBinding) : List Lexeme → Prop
  | parts : Written b [word b.operation.keyword, mark .colon, word b.type.text]

/-- A schema block. -/
inductive SchemaDefinition.Written (d : SchemaDefinition) : List Lexeme → Prop
  | parts {description directives operations : List Lexeme}
      (hdescription : DescriptionWritten d.description description)
      (hdirectives : Row Directive.Written d.directives directives)
      (hoperations : Bracketed .braceOpen .braceClose RootBinding.Written d.operations operations) :
      Written d (description ++ keyword .schema :: (directives ++ operations))

/-- The word that allows a directive more than once in a place. -/
inductive RepeatableWritten : Bool → List Lexeme → Prop
  | absent : RepeatableWritten false []
  | present : RepeatableWritten true [keyword .repeatable]

/-- A directive definition. -/
inductive DirectiveDefinition.Written (d : DirectiveDefinition) : List Lexeme → Prop
  | parts {description arguments repeatable locations : List Lexeme}
      (hdescription : DescriptionWritten d.description description)
      (harguments : ArgumentsWritten d.arguments arguments)
      (hrepeatable : RepeatableWritten d.repeatable repeatable)
      (hlocations : Separated .pipe Location.text d.locations locations) :
      Written d (description ++ keyword .directive :: mark .atSign :: word d.name.text ::
        (arguments ++ (repeatable ++ keyword .on :: locations)))

/-- A definition. What extends another definition is written like one, without a description and
behind the word that says so. -/
inductive Definition.Written : Definition → List Lexeme → Prop
  | schema {d : SchemaDefinition} {ls : List Lexeme} (h : d.Written ls) : Written (.schema d) ls
  | schemaExtension {d : SchemaDefinition} {ls : List Lexeme} (hplain : d.description = none)
      (h : d.Written ls) : Written (.schemaExtension d) (keyword .extend :: ls)
  | type {d : TypeDefinition} {ls : List Lexeme} (h : d.Written ls) : Written (.type d) ls
  | typeExtension {d : TypeDefinition} {ls : List Lexeme} (hplain : d.description = none)
      (h : d.Written ls) : Written (.typeExtension d) (keyword .extend :: ls)
  | directive {d : DirectiveDefinition} {ls : List Lexeme} (h : d.Written ls) :
      Written (.directive d) ls

/-- A document is written as its definitions, one behind the other. -/
def Document.Written (d : Document) (ls : List Lexeme) : Prop :=
  Row Definition.Written d.definitions ls

end ResolverContracts
