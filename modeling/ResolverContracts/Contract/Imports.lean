import ResolverContracts.Contract.TypeExpr
/-!
# Imports

The generated module imports what it uses, each symbol once and each module in one statement. The
ledger of imports is the list of local names with what each is bound to; a name is bound once, and a
module's default export goes by one name. The statements are a reading of the ledger: modules in the
order of their paths, in each the default export first and then the other symbols in order.
-/

set_option autoImplicit false

namespace ResolverContracts

/-- Why declarations cannot be written as a module. -/
inductive ModuleError
  /-- A name stands for two symbols. -/
  | importConflict (name first second : String)
  /-- The default export of a module has two names. -/
  | defaultConflict (path first second : String)
  /-- A name is declared twice. -/
  | redeclared (name : String)
  /-- A name is imported and declared. -/
  | shadowed (name path : String)
  deriving DecidableEq

/-- The error in words. -/
def ModuleError.message : ModuleError → String
  | importConflict name first second =>
    "`" ++ name ++ "` is imported from both \"" ++ first ++ "\" and \"" ++ second ++ "\""
  | defaultConflict path first second =>
    "\"" ++ path ++ "\" has default imports bound to both `" ++ first ++ "` and `" ++ second ++ "`"
  | redeclared name => "`" ++ name ++ "` is declared more than once"
  | shadowed name path =>
    "imported `" ++ name ++ "` from \"" ++ path ++ "\" clashes with a generated declaration"

/-- What of a module a name is bound to. -/
inductive Clause
  | default
  | named (symbol : String) (rename : Option String)
  deriving DecidableEq

/-- A symbol as an import statement lists it in braces. -/
def Clause.text : Clause → String
  | default => "default"
  | named symbol none => symbol
  | named symbol (some rename) => symbol ++ " as " ++ rename

/-- The clause that imports a symbol. The default export is imported by its local name alone. -/
def Binding.clause (binding : Binding) (rename : Option String) : Clause :=
  match binding with
  | .named symbol => .named symbol rename
  | .default => .default

/-- A local name, and what it is bound to. -/
structure ImportEntry where
  name : String
  path : String
  clause : Clause
  deriving DecidableEq

/-- The imports of a module, in the order in which they were needed first. -/
structure ImportLedger where
  entries : List ImportEntry
  deriving DecidableEq

namespace ImportLedger

/-- No imports. -/
def empty : ImportLedger := ⟨[]⟩

/-- What a name is bound to. -/
def find? (l : ImportLedger) (name : String) : Option ImportEntry :=
  l.entries.find? (·.name == name)

/-- The default export of a module. -/
def findDefault? (l : ImportLedger) (path : String) : Option ImportEntry :=
  l.entries.find? fun e => e.path == path && e.clause == .default

/-- Binds a name that is not bound yet. -/
def bind (l : ImportLedger) (entry : ImportEntry) : Except ModuleError ImportLedger :=
  match if entry.clause = .default then l.findDefault? entry.path else none with
  | some other => .error (.defaultConflict entry.path other.name entry.name)
  | none => .ok ⟨l.entries ++ [entry]⟩

/-- Adds what an external symbol needs. A type expression taken as it is needs nothing. -/
def add (l : ImportLedger) (target : External) : Except ModuleError ImportLedger :=
  match target.symbol with
  | .verbatim _ => .ok l
  | .imported path binding rename =>
    let entry : ImportEntry := ⟨target.name, path, binding.clause rename⟩
    match l.find? target.name with
    | some bound =>
      if bound = entry then .ok l else .error (.importConflict target.name bound.path path)
    | none => l.bind entry

/-- Adds what several external symbols need. -/
def addAll (l : ImportLedger) (targets : List External) : Except ModuleError ImportLedger :=
  targets.foldlM add l

/-! ## Writing -/

/-- Texts in order, each once. -/
def sortedTexts (texts : List String) : List String :=
  (texts.mergeSort fun a b => decide (a ≤ b)).eraseDups

/-- The statement that imports what is needed of a module. -/
def statement (l : ImportLedger) (path : String) : String :=
  let entries := l.entries.filter (·.path == path)
  let defaults := (entries.filter (·.clause == .default)).map (·.name)
  let symbols := sortedTexts ((entries.filter (·.clause != .default)).map (·.clause.text))
  let named := if symbols.isEmpty then [] else ["\x7b " ++ ", ".intercalate symbols ++ " \x7d"]
  "import " ++ ", ".intercalate (defaults ++ named) ++ " from \"" ++ path ++ "\";"

/-- The import statements, one on a line. -/
def render (l : ImportLedger) : String :=
  "\n".intercalate ((sortedTexts (l.entries.map (·.path))).map l.statement)

end ImportLedger

end ResolverContracts
