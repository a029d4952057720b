import ResolverContracts.Contract.Module
/-!
# The text of a declaration in pieces

Declarations are written as text, and in a text it can no longer be seen which words are references.
Here a declaration is cut into pieces before: a piece is a text, or a reference to an external symbol
that is written by its name. Put together, the pieces are the text of the declaration
(`Declaration.join_pieces`), so the references among them are those that the text has.

Besides the references of the types there are those of the module itself: the helpers name the context
and a type of the library, and the root contract names another one for each custom scalar
(`Declaration.references_pieces`).
-/

set_option autoImplicit false

namespace ResolverContracts

/-! ## Pieces -/

/-- A piece of a text. -/
inductive Piece
  | text (s : String)
  /-- A reference to an external symbol. -/
  | reference (target : External)

namespace Piece

/-- A piece as it is written. -/
def written : Piece → String
  | text s => s
  | reference target => target.name

/-- The pieces one behind the other. -/
def join (pieces : List Piece) : String := String.join (pieces.map written)

/-- Rows of pieces with a text in between. -/
def separated (separator : String) : List (List Piece) → List Piece
  | [] => []
  | [row] => row
  | row :: next :: rows => row ++ text separator :: separated separator (next :: rows)

/-- The references among the pieces, in order. -/
def references (pieces : List Piece) : List External :=
  pieces.filterMap fun
    | reference target => some target
    | text _ => none

variable {pieces pieces' : List Piece} {s : String} {target : External}

@[simp] theorem join_nil : join [] = "" := rfl

/-- A text in front. -/
@[simp] theorem join_text : join (text s :: pieces) = s ++ join pieces := String.join_cons

/-- One piece alone is written as it is, without an empty text behind. -/
theorem join_singleton (piece : Piece) : join [piece] = piece.written := by
  rw [join, List.map_singleton, String.join_cons]
  exact String.append_empty

/-- A reference in front is written by its name. -/
@[simp] theorem join_reference : join (reference target :: pieces) = target.name ++ join pieces :=
  String.join_cons

/-- Rows can be put together before or after they are written. What follows comes down to this and to
`join_separated`. -/
@[simp] theorem join_append : join (pieces ++ pieces') = join pieces ++ join pieces' := by
  rw [join, List.map_append, String.join_append]
  rfl

/-- Rows with a text in between are written like texts with it in between. -/
theorem join_separated (separator : String) (rows : List (List Piece)) :
    join (separated separator rows) = separator.intercalate (rows.map join) := by
  induction rows with
  | nil => rfl
  | cons row rows ih =>
    cases rows with
    | nil => exact String.intercalate_singleton.symm
    | cons next rows =>
      rw [separated, join_append, join_text, ih, List.map_cons, List.map_cons, List.map_cons,
        String.intercalate_cons_cons, String.append_assoc]

@[simp] theorem references_nil : references [] = [] := rfl

/-- A text refers to nothing. -/
@[simp] theorem references_text : references (text s :: pieces) = references pieces := rfl

/-- A reference is the first one of a row that it starts. -/
@[simp] theorem references_reference :
    references (reference target :: pieces) = target :: references pieces := rfl

/-- References are in the order in which they are written. -/
@[simp] theorem references_append :
    references (pieces ++ pieces') = references pieces ++ references pieces' :=
  List.filterMap_append

/-- What stands between rows refers to nothing. -/
@[simp] theorem references_separated (separator : String) (rows : List (List Piece)) :
    references (separated separator rows) = rows.flatMap references := by
  induction rows with
  | nil => rfl
  | cons row rows ih =>
    cases rows with
    | nil => exact (List.flatMap_singleton references row).symm
    | cons next rows =>
      rw [separated, references_append, references_text, ih, ← List.flatMap_cons]

end Piece

open Piece

/-! ## Types -/

namespace TypeExpr

mutual

/-- The pieces of a type. -/
def pieces : TypeExpr → List Piece
  | primitive type => [text type.text]
  | named (.declared name) => [text name]
  | named (.external target) => [reference target]
  | emptyRecord => [text "\x7b\x7d"]
  | parameter name => [text name]
  | list element .generic .readonly => text "ReadonlyArray<" :: element.pieces ++ [text ">"]
  | list element .generic .mutable => text "Array<" :: element.pieces ++ [text ">"]
  | list element .suffix access =>
    let inner := element.pieces
    text (match access with
      | .readonly => "readonly "
      | .mutable => "") ::
    (if element.needsParens then text "(" :: inner ++ [text ")"] else inner) ++ [text "[]"]
  | union [] => [text "never"]
  | union (type :: types) => type.pieces ++ alternativesPieces types
  | nullable inner => inner.pieces ++ [text " | null | undefined"]

/-- The pieces of the members of a union behind the first one. -/
def alternativesPieces : List TypeExpr → List Piece
  | [] => []
  | type :: types => text " | " :: type.pieces ++ alternativesPieces types

end

mutual

/-- The pieces of a type are its text. The cases are those of `TypeExpr.render`. -/
theorem join_pieces : ∀ t : TypeExpr, join t.pieces = t.render
  | primitive _ => join_singleton _
  | named (.declared _) => join_singleton _
  | named (.external _) => join_singleton _
  | emptyRecord => rfl
  | .parameter _ => join_singleton _
  | list element .generic .readonly => by
    simp [pieces, render, join_pieces element, String.append_assoc]
  | list element .generic .mutable => by
    simp [pieces, render, join_pieces element, String.append_assoc]
  | list element .suffix access => by
    cases access
    all_goals
      cases hparens : element.needsParens
      all_goals simp [pieces, render, join_pieces element, hparens, String.append_assoc]
  | union [] => rfl
  | union (type :: types) => by
    simp [pieces, render, join_pieces type, join_alternativesPieces types]
  | nullable inner => by simp [pieces, render, join_pieces inner]

/-- Behind the first member of a union, each has the sign in front. -/
theorem join_alternativesPieces : ∀ types : List TypeExpr,
    join (alternativesPieces types) = renderAlternatives types
  | [] => rfl
  | type :: types => by
    simp [alternativesPieces, renderAlternatives, join_pieces type, join_alternativesPieces types,
      String.append_assoc]

end

mutual

/-- The references in the text of a type are the symbols that it needs. -/
theorem references_pieces : ∀ t : TypeExpr, references t.pieces = t.externals
  | primitive _ => rfl
  | named (.declared _) => rfl
  | named (.external _) => rfl
  | emptyRecord => rfl
  | parameter _ => rfl
  | list element .generic .readonly => by simp [pieces, externals, references_pieces element]
  | list element .generic .mutable => by simp [pieces, externals, references_pieces element]
  | list element .suffix access => by
    cases hparens : element.needsParens with
    | false => simp [pieces, externals, references_pieces element, hparens]
    | true => simp [pieces, externals, references_pieces element, hparens]
  | union [] => rfl
  | union (type :: types) => by
    simp [pieces, externals, externalsOfMembers, references_pieces type,
      references_alternativesPieces types]
  | nullable inner => by simp [pieces, externals, references_pieces inner]

/-- The members of a union behind the first one. -/
theorem references_alternativesPieces : ∀ types : List TypeExpr,
    references (alternativesPieces types) = externalsOfMembers types
  | [] => rfl
  | type :: types => by
    simp [alternativesPieces, externalsOfMembers, references_pieces type,
      references_alternativesPieces types]

end

end TypeExpr

/-! ## Interfaces and records -/

/-- The pieces of an exported interface. -/
def interfacePieces (header : List Piece) (members : List (List Piece)) : List Piece :=
  if members.isEmpty then text "export interface " :: header ++ [text " \x7b\x7d"]
  else
    text "export interface " :: header ++ [text " \x7b\n"] ++
      separated "" (members.map fun member => text "  " :: member ++ [text "\n"]) ++ [text "\x7d"]

/-- An interface is written like this from any header and members, so contracts and records need only
say what these are. -/
theorem join_interfacePieces (header : List Piece) (members : List (List Piece)) :
    join (interfacePieces header members) = renderInterface (join header) (members.map join) := by
  rw [interfacePieces, renderInterface, List.isEmpty_map]
  cases members.isEmpty with
  | true => simp [String.append_assoc]
  | false => simp [join_separated, Function.comp_def, String.append_assoc]

/-- The frame of an interface refers to nothing. The header comes first. -/
theorem references_interfacePieces (header : List Piece) (members : List (List Piece)) :
    references (interfacePieces header members) =
      references header ++ members.flatMap references := by
  rw [interfacePieces]
  cases members with
  | nil => simp
  | cons member members => simp [List.flatMap_map]

/-- The pieces of the contract of the module. -/
def RootContract.pieces (c : RootContract) : List Piece :=
  interfacePieces [text "Resolvers"]
    (c.required.map (fun name => [text (name ++ ": " ++ name ++ "Resolvers;")]) ++
      c.optional.map (fun name => [text (name ++ "?: " ++ name ++ "Resolvers;")]) ++
      c.scalars.map fun name =>
        [text (name ++ ": "), reference (DeclarationSet.librarySymbol "GraphQLScalarType"),
          text ";"])

/-- The contract of the module is its text. -/
theorem RootContract.join_pieces (c : RootContract) : join c.pieces = c.render := by
  have hscalar : (DeclarationSet.librarySymbol "GraphQLScalarType").name = "GraphQLScalarType" := rfl
  rw [pieces, join_interfacePieces, render]
  simp [Function.comp_def, hscalar, String.append_assoc]

/-- Only the lines for scalars refer to something. -/
theorem RootContract.references_pieces (c : RootContract) : references c.pieces =
    c.scalars.map fun _ => DeclarationSet.librarySymbol "GraphQLScalarType" := by
  have hnone (names : List String) : names.flatMap (fun _ => ([] : List External)) = [] :=
    List.flatMap_eq_nil_iff.mpr fun _ _ => rfl
  rw [pieces, references_interfacePieces]
  simp only [List.flatMap_append, List.flatMap_map, references_text, references_reference,
    references_nil, hnone, List.nil_append, List.append_nil]
  exact List.map_eq_flatMap.symm

/-- The pieces of a contract that is taken over. -/
def Extension.pieces (e : Extension) : List Piece :=
  text (e.contract ++ "<") :: e.root.pieces ++ [text ">"]

/-- A contract that is taken over is written with the type it is taken over for. -/
theorem Extension.join_pieces (e : Extension) : join e.pieces = e.render := by
  simp [pieces, render, TypeExpr.join_pieces, String.append_assoc]

/-- The pieces of a field of a contract. -/
def HandlerField.pieces (f : HandlerField) : List Piece :=
  text (f.name ++ ": " ++ (if f.isSubscription then "SubscriptionResolver" else "Resolver") ++ "<") ::
    f.root.pieces ++ text ", " :: f.args.pieces ++ text ", " :: f.result.pieces ++ [text ">;"]

/-- A field of a contract is written with its three types. -/
theorem HandlerField.join_pieces (f : HandlerField) : join f.pieces = f.render := by
  simp [pieces, render, TypeExpr.join_pieces, String.append_assoc]

/-- The pieces of what stands between `interface` and the brace for a contract. -/
def Handler.headerPieces (h : Handler) : List Piece :=
  text h.name ::
    (match h.parameter with
      | some parameter => [text ("<" ++ parameter ++ ">")]
      | none => []) ++
    if h.extensions.isEmpty then []
    else text " extends " :: separated ", " (h.extensions.map (·.pieces))

/-- With a parameter or without, and with contracts taken over or without, the header is its text. -/
theorem Handler.join_headerPieces (h : Handler) : join h.headerPieces = h.header := by
  rw [headerPieces, header]
  cases h.parameter
  all_goals
    cases h.extensions
    all_goals
      simp [join_separated, Extension.join_pieces, Function.comp_def, String.append_assoc]

/-- The pieces of the contract of a type. -/
def Handler.pieces (h : Handler) : List Piece :=
  interfacePieces h.headerPieces (h.fields.map (·.pieces))

/-- The contract of a type is its text. -/
theorem Handler.join_pieces (h : Handler) : join h.pieces = h.render := by
  rw [pieces, join_interfacePieces, join_headerPieces, render, List.map_map]
  simp [Function.comp_def, HandlerField.join_pieces]

/-- The references of a contract are those of its types. -/
theorem Handler.references_pieces (h : Handler) :
    references h.pieces = (Declaration.handler h).externals := by
  have hheader : references h.headerPieces = h.extensions.flatMap (·.root.externals) := by
    rw [headerPieces]
    cases h.parameter
    all_goals
      cases h.extensions
      all_goals simp [Extension.pieces, TypeExpr.references_pieces, List.flatMap_map]
  have hfield (f : HandlerField) :
      references f.pieces = f.root.externals ++ f.args.externals ++ f.result.externals := by
    simp [HandlerField.pieces, TypeExpr.references_pieces]
  simp [pieces, references_interfacePieces, hheader, hfield, Declaration.externals,
    Declaration.types, List.flatMap_map, List.flatMap_assoc]

/-- The pieces of a field of a record. -/
def RecordField.pieces (f : RecordField) : List Piece :=
  text (f.name ++ (if f.isOptional then "?" else "") ++ ": ") :: f.type.pieces ++ [text ";"]

/-- The pieces of a record. -/
def Record.pieces (r : Record) : List Piece :=
  interfacePieces [text r.name] (r.fields.map (·.pieces))

/-- A record is its text. -/
theorem Record.join_pieces (r : Record) : join r.pieces = r.render := by
  rw [pieces, join_interfacePieces, render]
  simp [Function.comp_def, RecordField.pieces, RecordField.render, TypeExpr.join_pieces,
    String.append_assoc]

/-! ## Helpers -/

/-- The pieces of the types that contracts are written with, line by line. -/
def helperPieces (context : External) : List Piece :=
  let info := reference (DeclarationSet.librarySymbol "GraphQLResolveInfo")
  separated "\n"
    [[text "type MaybePromise<T> = T | Promise<T>;"],
      [text "export type Resolver<R, A, T> = (root: R, args: A, ctx: ", reference context,
        text ", info: ", info, text ") => MaybePromise<T>;"],
      [text ""],
      [text "export type SubscriptionResolverFilter<R, A, T> = ("],
      [text "  root: R | undefined,"],
      [text "  args: A,"],
      [text "  ctx: ", reference context, text ","],
      [text "  info: ", info, text ","],
      [text ") => boolean | Promise<boolean>;"],
      [text "export type SubscriptionResolver<R, A, T> = \x7b"],
      [text "  subscribe: (root: R | undefined, args: A, ctx: ", reference context,
        text ", info: ", info, text ") => AsyncIterator<T>;"],
      [text "\x7d;"]]

/-- The helpers are the same for all modules, but for the name of the context. -/
theorem join_helperPieces (context : External) :
    join (helperPieces context) = renderHelpers context.name := by
  have hinfo : (DeclarationSet.librarySymbol "GraphQLResolveInfo").name = "GraphQLResolveInfo" := rfl
  simp [helperPieces, renderHelpers, join_separated, hinfo, String.append_assoc]

/-! ## Unions -/

/-- The pieces of an entry of the table of what is told apart at run time. -/
def tableEntryPieces (entry : Alias) : List Piece :=
  text (entry.name ++ ": \x7b __resolveType(o: ") :: (TypeExpr.union entry.members).pieces ++
    [text "): string \x7d"]

/-- An entry of the table is its text. -/
theorem join_tableEntryPieces (entry : Alias) :
    join (tableEntryPieces entry) = renderTableEntry entry := by
  simp [tableEntryPieces, renderTableEntry, renderUnion, TypeExpr.join_pieces, String.append_assoc]

/-- The pieces of the table of what is told apart at run time. -/
def tablePieces (entries : List Alias) : List Piece :=
  text "export type UnionResolvers = " ::
    (match entries with
      | [] => [text "\x7b\x7d"]
      | [entry] => text "\x7b " :: tableEntryPieces entry ++ [text " \x7d"]
      | _ =>
        text "\x7b\n" ::
          separated "" (entries.map fun e => text "  " :: tableEntryPieces e ++ [text ";\n"]) ++
          [text "\x7d"]) ++ [text ";"]

/-- The table is written in one of three ways, for no entry, for one and for more. -/
theorem join_tablePieces (entries : List Alias) :
    join (tablePieces entries) = renderTable entries := by
  match entries with
  | [] => rfl
  | [entry] =>
    have hpieces : tablePieces [entry] = text "export type UnionResolvers = " ::
        (text "\x7b " :: tableEntryPieces entry ++ [text " \x7d"]) ++ [text ";"] := rfl
    have hrender : renderTable [entry] = "export type UnionResolvers = " ++
        ("\x7b " ++ renderTableEntry entry ++ " \x7d") ++ ";" := rfl
    rw [hpieces, hrender]
    simp [join_tableEntryPieces, String.append_assoc]
  | first :: second :: rest =>
    have hpieces : tablePieces (first :: second :: rest) = text "export type UnionResolvers = " ::
        (text "\x7b\n" :: separated "" ((first :: second :: rest).map fun e =>
          text "  " :: tableEntryPieces e ++ [text ";\n"]) ++ [text "\x7d"]) ++ [text ";"] := rfl
    have hrender : renderTable (first :: second :: rest) = "export type UnionResolvers = " ++
        ("\x7b\n" ++ "".intercalate ((first :: second :: rest).map fun e =>
          "  " ++ renderTableEntry e ++ ";\n") ++ "\x7d") ++ ";" := rfl
    rw [hpieces, hrender]
    simp [join_tableEntryPieces, join_separated, Function.comp_def, String.append_assoc]

/-- However it is written, the table refers to what the members of its entries do. -/
theorem references_tablePieces (entries : List Alias) :
    references (tablePieces entries) =
      entries.flatMap fun e => TypeExpr.externalsOfMembers e.members := by
  have hentry (e : Alias) :
      references (tableEntryPieces e) = TypeExpr.externalsOfMembers e.members := by
    simp [tableEntryPieces, TypeExpr.references_pieces, TypeExpr.externals]
  match entries with
  | [] => rfl
  | [entry] => simp [tablePieces, hentry]
  | first :: second :: rest => simp [tablePieces, hentry, List.flatMap_map]

/-- The pieces of a name for a union. -/
def Alias.pieces (entry : Alias) : List Piece :=
  text ("export type " ++ entry.name ++ " = ") :: (TypeExpr.union entry.members).pieces ++ [text ";"]

/-- A name for a union is written with its members. -/
theorem Alias.join_pieces (entry : Alias) : join entry.pieces = entry.render := by
  simp [pieces, render, renderUnion, TypeExpr.join_pieces, String.append_assoc]

/-! ## Declarations -/

namespace Declaration

/-- The pieces of a declaration. The module of an enum that is exported again is part of a statement of
its own, in which nothing is referred to. -/
def pieces (context : External) : Declaration → List Piece
  | root contract => contract.pieces
  | handler contract => contract.pieces
  | helpers => helperPieces context
  | args record | dto record | input record => record.pieces
  | enum name members => [text (renderEnum name members)]
  | reexport name target => [text (renderReexport name target)]
  | table entries => tablePieces entries
  | implementors entry | union entry => entry.pieces

/-- **Pieces of a declaration.** Put together, they are its text. -/
theorem join_pieces (context : External) (d : Declaration) :
    join (d.pieces context) = d.render context.name := by
  cases d with
  | root contract => exact contract.join_pieces
  | handler contract => exact contract.join_pieces
  | helpers => exact join_helperPieces context
  | args record => exact record.join_pieces
  | dto record => exact record.join_pieces
  | input record => exact record.join_pieces
  | enum name members => exact join_singleton _
  | reexport name target => exact join_singleton _
  | table entries => exact join_tablePieces entries
  | implementors entry => exact entry.join_pieces
  | union entry => exact entry.join_pieces

/-- The references that a declaration has besides those of its types. -/
def ownReferences (context : External) : Declaration → List External
  | root contract =>
    contract.scalars.map fun _ => DeclarationSet.librarySymbol "GraphQLScalarType"
  | helpers =>
    let info := DeclarationSet.librarySymbol "GraphQLResolveInfo"
    [context, info, context, info, context, info]
  | _ => []

/-- **References of a declaration.** The others are those of its types. The cases are the kinds of
declaration. -/
theorem references_pieces (context : External) (d : Declaration) :
    references (d.pieces context) = d.ownReferences context ++ d.externals := by
  have hfields (fields : List RecordField) : (fields.map (·.pieces)).flatMap references =
      (fields.map (·.type)).flatMap (·.externals) := by
    simp [List.flatMap_map, RecordField.pieces, TypeExpr.references_pieces]
  have hrecord (r : Record) :
      references r.pieces = (r.fields.map (·.type)).flatMap (·.externals) := by
    simp [Record.pieces, references_interfacePieces, hfields]
  have halias (entry : Alias) :
      references entry.pieces = entry.members.flatMap (·.externals) := by
    simp [Alias.pieces, TypeExpr.references_pieces, TypeExpr.externals,
      TypeExpr.externalsOfMembers_eq_flatMap]
  cases d with
  | root contract => exact contract.references_pieces.trans (List.append_nil _).symm
  | handler contract => exact contract.references_pieces
  | helpers => rfl
  | args record => exact hrecord record
  | dto record => exact hrecord record
  | input record => exact hrecord record
  | enum name members => rfl
  | reexport name target => rfl
  | table entries =>
    simp [pieces, ownReferences, externals, types, references_tablePieces,
      TypeExpr.externalsOfMembers_eq_flatMap, List.flatMap_assoc]
  | implementors entry => exact halias entry
  | union entry => exact halias entry

end Declaration

end ResolverContracts
