import ResolverContracts.Contract.Declaration
import ResolverContracts.Contract.Imports
/-!
# The generated module

Declarations as the text of a module: the import statements, then each declaration, with an empty
line in between and one line end behind the last. The text depends on the declarations alone.

Before anything is written, names are checked: none is declared twice, none stands for two imports,
and none is both imported and declared.
-/

set_option autoImplicit false

namespace ResolverContracts

/-! ## Interfaces and records -/

/-- An exported interface with a member on each line. -/
def renderInterface (header : String) (members : List String) : String :=
  if members.isEmpty then "export interface " ++ header ++ " \x7b\x7d"
  else
    "export interface " ++ header ++ " \x7b\n" ++
      "".intercalate (members.map fun member => "  " ++ member ++ "\n") ++ "\x7d"

/-- Members of a union as they are written. -/
def renderUnion (members : List TypeExpr) : String := (TypeExpr.union members).render

/-- The contract of the module. -/
def RootContract.render (c : RootContract) : String :=
  renderInterface "Resolvers"
    (c.required.map (fun name => name ++ ": " ++ name ++ "Resolvers;") ++
      c.optional.map (fun name => name ++ "?: " ++ name ++ "Resolvers;") ++
      c.scalars.map fun name => name ++ ": GraphQLScalarType;")

/-- A contract that is taken over, with its argument. -/
def Extension.render (e : Extension) : String := e.contract ++ "<" ++ e.root.render ++ ">"

/-- A field of a contract. -/
def HandlerField.render (f : HandlerField) : String :=
  let shape := if f.isSubscription then "SubscriptionResolver" else "Resolver"
  f.name ++ ": " ++ shape ++ "<" ++ f.root.render ++ ", " ++ f.args.render ++ ", " ++
    f.result.render ++ ">;"

/-- What stands between `interface` and the brace for a contract. -/
def Handler.header (h : Handler) : String :=
  h.name ++
    (match h.parameter with
      | some parameter => "<" ++ parameter ++ ">"
      | none => "") ++
    (if h.extensions.isEmpty then ""
      else " extends " ++ ", ".intercalate (h.extensions.map (·.render)))

/-- The contract of a type. -/
def Handler.render (h : Handler) : String :=
  renderInterface h.header (h.fields.map (·.render))

/-- A field of a record. -/
def RecordField.render (f : RecordField) : String :=
  f.name ++ (if f.isOptional then "?" else "") ++ ": " ++ f.type.render ++ ";"

/-- A record. -/
def Record.render (r : Record) : String := renderInterface r.name (r.fields.map (·.render))

/-! ## Helpers -/

/-- The types that contracts are written with, for a context type. -/
def renderHelpers (context : String) : String :=
  "\n".intercalate
    ["type MaybePromise<T> = T | Promise<T>;",
      "export type Resolver<R, A, T> = (root: R, args: A, ctx: " ++ context ++
        ", info: GraphQLResolveInfo) => MaybePromise<T>;",
      "",
      "export type SubscriptionResolverFilter<R, A, T> = (",
      "  root: R | undefined,",
      "  args: A,",
      "  ctx: " ++ context ++ ",",
      "  info: GraphQLResolveInfo,",
      ") => boolean | Promise<boolean>;",
      "export type SubscriptionResolver<R, A, T> = \x7b",
      "  subscribe: (root: R | undefined, args: A, ctx: " ++ context ++
        ", info: GraphQLResolveInfo) => AsyncIterator<T>;",
      "\x7d;"]

/-! ## Enums -/

/-- An enum, a member on each line. -/
def renderEnum (name : String) (members : List EnumMember) : String :=
  "export enum " ++ name ++ " \x7b\n" ++
    "".intercalate (members.map fun m => "  " ++ m.identifier ++ " = \"" ++ m.value ++ "\",\n") ++
    "\x7d"

/-- An enum of another module, exported again. A type expression has nothing to export and becomes a
type of the name instead. -/
def renderReexport (name : String) (target : External) : String :=
  match target.symbol with
  | .imported path (.named symbol) rename =>
    "export \x7b " ++ (Clause.named symbol rename).text ++ " \x7d from \"" ++ path ++ "\";"
  | .imported path .default _ =>
    "export \x7b default as " ++ target.name ++ " \x7d from \"" ++ path ++ "\";"
  | .verbatim text => "export type " ++ name ++ " = " ++ text ++ ";"

/-! ## Unions -/

/-- An entry of the table of what is told apart at run time. -/
def renderTableEntry (entry : Alias) : String :=
  entry.name ++ ": \x7b __resolveType(o: " ++ renderUnion entry.members ++ "): string \x7d"

/-- The table of what is told apart at run time: on one line as long as it has one entry. -/
def renderTable (entries : List Alias) : String :=
  "export type UnionResolvers = " ++
    (match entries with
      | [] => "\x7b\x7d"
      | [entry] => "\x7b " ++ renderTableEntry entry ++ " \x7d"
      | _ =>
        "\x7b\n" ++ "".intercalate (entries.map fun e => "  " ++ renderTableEntry e ++ ";\n") ++
          "\x7d") ++ ";"

/-- A name for a union. -/
def Alias.render (entry : Alias) : String :=
  "export type " ++ entry.name ++ " = " ++ renderUnion entry.members ++ ";"

/-! ## The module -/

/-- A declaration, in a module with this context type. -/
def Declaration.render (context : String) : Declaration → String
  | root contract => contract.render
  | handler contract => contract.render
  | helpers => renderHelpers context
  | args record | dto record | input record => record.render
  | enum name members => renderEnum name members
  | reexport name target => renderReexport name target
  | table entries => renderTable entries
  | implementors entry | union entry => entry.render

/-- The first name that is in a list a second time. -/
def firstRepeated? : List String → List String → Option String
  | _, [] => none
  | seen, name :: names =>
    if seen.contains name then some name else firstRepeated? (name :: seen) names

namespace DeclarationSet

/-- A symbol of the library that the module is written against. -/
def librarySymbol (name : String) : External := (Symbol.named "graphql" name).toExternal name

/-- The external symbols that the text of the module uses. -/
def neededExternals (s : DeclarationSet) : List External :=
  [librarySymbol "GraphQLResolveInfo"] ++
    (if s.hasCustomScalars then [librarySymbol "GraphQLScalarType"] else []) ++ s.externals

/-- The imports of the module. -/
def imports (s : DeclarationSet) : Except ModuleError ImportLedger :=
  ImportLedger.empty.addAll s.neededExternals

/-- Of the names that are imported and declared, the first in order. -/
def shadowed? (s : DeclarationSet) (ledger : ImportLedger) : Option ImportEntry :=
  let clashes := ledger.entries.filter fun e => s.declaredNames.contains e.name
  (clashes.mergeSort fun a b => decide (a.name ≤ b.name)).head?

/-- The imports of a module in which every name has one meaning. -/
def checkedImports (s : DeclarationSet) : Except ModuleError ImportLedger :=
  match firstRepeated? [] s.declaredNames with
  | some name => .error (.redeclared name)
  | none => do
    let ledger ← s.imports
    match s.shadowed? ledger with
    | some entry => .error (.shadowed entry.name entry.path)
    | none => .ok ledger

/-- The text of the module. -/
def render (s : DeclarationSet) : Except ModuleError String := do
  let ledger ← s.checkedImports
  let chunks := ledger.render :: s.declarations.map (·.render s.context.name)
  return "\n\n".intercalate chunks ++ "\n"

end DeclarationSet

end ResolverContracts
