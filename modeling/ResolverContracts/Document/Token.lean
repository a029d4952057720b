import ResolverContracts.Text.Span
/-!
# Tokens

A schema text is made of words, literals and punctuation. A keyword is an ordinary word with a
meaning in some places only, so every keyword is also a name (`TokenKind.isName`); the word list
itself is `Keyword.all`, and `Keyword.ofText?` is the inverse of `Keyword.text`.
-/

set_option autoImplicit false

namespace ResolverContracts

/-- Words with a meaning of their own at some place. -/
inductive Keyword
  | type | interface | union | enum | input | scalar | schema | extend | implements | directive
  | repeatable | on
  | query | mutation | subscription | fragment
  | trueWord | falseWord | nullWord
  deriving DecidableEq

namespace Keyword

/-- The keyword as it is written. -/
def text : Keyword → String
  | type => "type"
  | interface => "interface"
  | union => "union"
  | enum => "enum"
  | input => "input"
  | scalar => "scalar"
  | schema => "schema"
  | extend => "extend"
  | implements => "implements"
  | directive => "directive"
  | repeatable => "repeatable"
  | on => "on"
  | query => "query"
  | mutation => "mutation"
  | subscription => "subscription"
  | fragment => "fragment"
  | trueWord => "true"
  | falseWord => "false"
  | nullWord => "null"

/-- Every keyword once. -/
def all : List Keyword :=
  [type, interface, union, enum, input, scalar, schema, extend, implements, directive, repeatable,
    on, query, mutation, subscription, fragment, trueWord, falseWord, nullWord]

/-- The keyword written so, if there is one. -/
def ofText? (word : String) : Option Keyword := all.find? (·.text == word)

/-- Reading a keyword gives it back: no two keywords are written alike. -/
theorem ofText?_text (k : Keyword) : ofText? k.text = some k := by cases k <;> decide

end Keyword

/-- Punctuation. -/
inductive Punctuator
  | braceOpen | braceClose | parenOpen | parenClose | bracketOpen | bracketClose
  | colon | equals | pipe | ampersand | atSign | bang | dollar | ellipsis
  deriving DecidableEq

namespace Punctuator

/-- The punctuation as it is written. -/
def text : Punctuator → String
  | braceOpen => "\x7b"
  | braceClose => "\x7d"
  | parenOpen => "("
  | parenClose => ")"
  | bracketOpen => "["
  | bracketClose => "]"
  | colon => ":"
  | equals => "="
  | pipe => "|"
  | ampersand => "&"
  | atSign => "@"
  | bang => "!"
  | dollar => "$"
  | ellipsis => "..."

/-- The punctuation of one character that this character is. -/
def ofChar? : Char → Option Punctuator
  | '{' => some braceOpen
  | '}' => some braceClose
  | '(' => some parenOpen
  | ')' => some parenClose
  | '[' => some bracketOpen
  | ']' => some bracketClose
  | ':' => some colon
  | '=' => some equals
  | '|' => some pipe
  | '&' => some ampersand
  | '@' => some atSign
  | '!' => some bang
  | '$' => some dollar
  | _ => none

end Punctuator

/-- What a token is. -/
inductive TokenKind
  /-- The end of the text, after the last token. -/
  | endOfText
  /-- Characters that form no token. -/
  | stray
  | name
  | int
  | float
  /-- A string within one pair of quotes. -/
  | string
  /-- A string within triple quotes, which may run over lines. -/
  | blockString
  | keyword (word : Keyword)
  | punct (mark : Punctuator)
  deriving DecidableEq

namespace TokenKind

/-- How a message shows a token of this kind: its text where that is fixed, else the class in
angle brackets. -/
def display : TokenKind → String
  | endOfText => "<eof>"
  | stray => "<error>"
  | name => "<name>"
  | int => "<int>"
  | float => "<float>"
  | string => "<string>"
  | blockString => "<block-string>"
  | keyword k => k.text
  | punct p => p.text

/-- Whether a token of this kind can stand for a name. Every keyword can. -/
def isName : TokenKind → Bool
  | name | keyword _ => true
  | _ => false

end TokenKind

/-- A token, its text and its place. -/
structure Token where
  kind : TokenKind
  text : String
  span : Span
  deriving DecidableEq

/-- The token that stands at the end of a text. -/
def Token.endAt (place : Nat) : Token := ⟨.endOfText, "", .emptyAt place⟩

end ResolverContracts
