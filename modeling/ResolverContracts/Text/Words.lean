import ResolverContracts.Text.Letters.Basic
/-!
# Words and the names made of them

Names of the generated module are made from names of the schema. An enum value becomes a member in
Pascal case: it is cut into words, each word begins with a capital and goes on in lower case, and an
underscore is kept in front of a word that begins with a digit, so that `V1_2` and `V12` stay apart.

A word ends at a character that is neither letter nor number. It also ends before a capital that
follows a lower-case letter or a digit, and before the last capital of several when a lower-case
letter comes behind it.
-/

set_option autoImplicit false

namespace ResolverContracts

open Letters

/-- Whether a new word begins at `c`, between the character of a word in front and the character
behind. -/
def beginsWord (before c : Char) (behind : Option Char) : Bool :=
  isUpper c &&
    (isLower before || before.isDigit || (isUpper before && behind.any isLower))

/-- Puts a word in front of other words, if there is anything in it. -/
def consWord (word : List Char) (words : List (List Char)) : List (List Char) :=
  if word.isEmpty then words else word :: words

/-- What continues the word in front, and the words that come later. `before` is the last character
of the word in front, if there is one. -/
def splitWords (before : Option Char) : List Char → List Char × List (List Char)
  | [] => ([], [])
  | c :: cs =>
    if isAlphanumeric c then
      let (word, later) := splitWords (some c) cs
      if before.any fun b => beginsWord b c cs.head? then ([], (c :: word) :: later)
      else (c :: word, later)
    else
      let (word, later) := splitWords none cs
      ([], consWord word later)

/-- The words of a name. -/
def words (cs : List Char) : List (List Char) :=
  let (word, later) := splitWords none cs
  consWord word later

/-- A word with its first character in upper case and the others in lower case. -/
def capitalized : List Char → List Char
  | [] => []
  | c :: cs => toUpper c ++ cs.flatMap toLower

/-- A word that is not the first one: an underscore parts it from the one in front if it begins with
a digit. -/
def joined : List Char → List Char
  | [] => []
  | c :: cs => if c.isDigit then '_' :: c :: cs.flatMap toLower else capitalized (c :: cs)

/-- A name in Pascal case. -/
def pascalCase (name : String) : String :=
  String.ofList <| match words name.toList with
    | [] => []
    | w :: ws => capitalized w ++ ws.flatMap joined

/-- A name with its first character in upper case. -/
def upperFirst (name : String) : String :=
  match name.toList with
  | [] => ""
  | c :: cs => String.ofList (toUpper c ++ cs)

/-- The name of the record of the arguments that a field of a type takes. -/
def argsRecordName (owner field : String) : String := owner ++ upperFirst field ++ "Args"

/-- The name of the handler contract of a type. -/
def resolversName (typeName : String) : String := typeName ++ "Resolvers"

end ResolverContracts
