import ResolverContracts.Text.Cut
/-!
# Symbols of other modules

A configuration names types of other modules by references. `path#Symbol` is the symbol of a module,
`path#Symbol as Name` the same under another name, and `path#default` what the module exports without
a name. A text without `#` is a type expression, taken as it is. A path that itself begins with `#`
is written with a backslash in front.

`Symbol.display` writes a reference back in this form.
-/

set_option autoImplicit false

namespace ResolverContracts

/-- What is imported from a module. -/
inductive Binding
  /-- A symbol exported under its name. -/
  | named (symbol : String)
  /-- The default export. -/
  | default
  deriving DecidableEq

/-- A reference to a type outside of the generated module. -/
inductive Symbol
  /-- A symbol of a module, perhaps under another name. -/
  | imported (path : String) (binding : Binding) (rename : Option String)
  /-- A type expression as it is. -/
  | verbatim (text : String)
  deriving DecidableEq

/-- Why a text is no reference. -/
inductive SymbolFlaw
  | emptyReference
  | emptyPath
  | missingSymbol
  | emptySymbol
  | badSymbol
  | badRename
  deriving DecidableEq

/-- The flaw in words. -/
def SymbolFlaw.text : SymbolFlaw → String
  | emptyReference => "empty reference"
  | emptyPath => "empty module path"
  | missingSymbol => "missing `#Symbol` after the module path"
  | emptySymbol => "empty symbol"
  | badSymbol => "symbol is not an identifier"
  | badRename => "alias is not an identifier"

/-- A text, trimmed, that is no reference. -/
structure SymbolError where
  reference : String
  flaw : SymbolFlaw
  deriving DecidableEq

/-- The error in words. -/
def SymbolError.message (e : SymbolError) : String :=
  "invalid symbol reference `" ++ e.reference ++ "`: " ++ e.flaw.text

/-- A character that an identifier can start with. -/
def isIdentifierStart (c : Char) : Bool := c.isAlpha || c == '_' || c == '$'

/-- A character that an identifier can go on with. -/
def isIdentifierChar (c : Char) : Bool := c.isAlphanum || c == '_' || c == '$'

/-- Whether a text is an identifier of plain letters. -/
def isIdentifier : List Char → Bool
  | [] => false
  | c :: cs => isIdentifierStart c && cs.all isIdentifierChar

namespace Symbol

/-- A symbol of a module under its own name. -/
def named (path symbol : String) : Symbol := imported path (.named symbol) none

/-- The module a symbol comes from, if it comes from one. -/
def path? : Symbol → Option String
  | imported path _ _ => some path
  | verbatim _ => none

/-- The name of a symbol where it is used. A default export has no name of its own and gets that of
the schema type it stands for. -/
def localName (s : Symbol) (typeName : String) : String :=
  match s with
  | imported _ _ (some rename) => rename
  | imported _ (.named symbol) none => symbol
  | imported _ .default none => typeName
  | verbatim text => text

/-! ## Reading -/

/-- The part of a reference behind its `#`: a symbol, and the name it is given. -/
def splitRename (cs : List Char) : List Char × Option (List Char) :=
  match splitOnce [' ', 'a', 's', ' '] cs with
  | some (symbol, rename) => (trim symbol, some (trim rename))
  | none => (trim cs, none)

/-- The binding that a symbol asks for. -/
def bindingOf (symbol : String) : Binding := if symbol = "default" then .default else .named symbol

/-- A reference to a symbol of a module, from its two parts. -/
def ofParts (front path behind : List Char) : Except SymbolFlaw Symbol :=
  let path := trim path
  if path.isEmpty then .error .emptyPath
  else
    let (symbol, rename) := splitRename behind
    if symbol.isEmpty then .error .emptySymbol
    else if !isIdentifier symbol then .error .badSymbol
    else if rename.any (!isIdentifier ·) then .error .badRename
    else .ok (imported (String.ofList (front ++ path)) (bindingOf (String.ofList symbol))
      (rename.map String.ofList))

/-- The symbol that a trimmed text refers to. -/
def ofTrimmed : List Char → Except SymbolFlaw Symbol
  | [] => .error .emptyReference
  | '\\' :: '#' :: cs =>
    match splitOnce ['#'] cs with
    | some (path, behind) => ofParts ['#'] path behind
    | none => .error .missingSymbol
  | cs =>
    match splitOnce ['#'] cs with
    | some (path, behind) => ofParts [] path behind
    | none => .ok (verbatim (String.ofList cs))

/-- The symbol that a text refers to. -/
def parse (text : String) : Except SymbolError Symbol :=
  let reference := trim text.toList
  match ofTrimmed reference with
  | .ok symbol => .ok symbol
  | .error flaw => .error ⟨String.ofList reference, flaw⟩

/-! ## Writing -/

/-- A path as a reference writes it. -/
def displayPath (path : String) : String :=
  if path.toList.head? = some '#' then "\\" ++ path else path

/-- A reference as text. -/
def display : Symbol → String
  | imported path binding rename =>
    let symbol := match binding with
      | .named symbol => symbol
      | .default => "default"
    displayPath path ++ "#" ++ symbol ++
      match rename with
      | some name => " as " ++ name
      | none => ""
  | verbatim text => text

end Symbol

end ResolverContracts
