import ResolverContracts.Proofs.Contract.ImportStatements
import ResolverContracts.Proofs.Contract.Leaves
import ResolverContracts.Proofs.Contract.Parts
import ResolverContracts.Proofs.Contract.Pieces
import ResolverContracts.Schema.Load
/-!
# Imports and uses

The imports of a module are collected from the types of its declarations, and the text is written from
the declarations again. That the two go together is seen on the text in pieces: a symbol is imported
exactly if it is among the references of the text and comes from a module at all.

The import statements are a reading of the ledger of imports. A statement binds the right names because
a symbol is listed under the name that it has where it is used, and that is so because all symbols of a
module are put there by resolution (`Project.Origin`).
-/

set_option autoImplicit false

namespace ResolverContracts

/-! ## Where types come from -/

/-- A symbol stands for a type of the schema, whose name it has unless it has one of its own. -/
def External.Stands (target : External) : Prop := ∃ name, target = target.symbol.toExternal name

namespace Project

/-- Where the types of a module come from: from resolution, or they are the module's own. -/
inductive Origin (p : Project) : TypeExpr → Prop
  | composite (name : String) : Origin p (p.mapComposite name)
  | name {name : String} {t : TypeExpr} (h : p.mapNamed name = .ok t) : Origin p t
  | reference {access : Access} {r : TypeRef} {t : TypeExpr} (h : p.mapType access r = .ok t) :
    Origin p t
  | declared (name : String) : Origin p (.declared name)
  | emptyRecord : Origin p .emptyRecord
  | parameter (name : String) : Origin p (.parameter name)

variable {p : Project} {t : TypeExpr} {target : External}

/-- All symbols in a type, at any depth, stand for types of the schema. -/
def AllStand (t : TypeExpr) : Prop :=
  ∀ target, .named (.external target) ∈ t.leaves → target.Stands

/-- A type without parts that is no symbol has none in it. -/
theorem allStand_of_leaf {leaf : TypeExpr} (hleaves : t.leaves = [leaf])
    (hleaf : ∀ target, leaf ≠ .named (.external target)) : AllStand t := by
  intro target h
  rw [hleaves] at h
  exact absurd (List.mem_singleton.mp h).symm (hleaf target)

theorem allStand_declared (name : String) : AllStand (.declared name) :=
  allStand_of_leaf rfl nofun

theorem allStand_external (s : Symbol) (name : String) : AllStand (TypeExpr.external s name) := by
  intro target h
  obtain rfl := NamedRef.external.inj (TypeExpr.named.inj (List.mem_singleton.mp h))
  exact ⟨name, rfl⟩

theorem allStand_unionOf {members : List TypeExpr} (h : ∀ t ∈ members, AllStand t) :
    AllStand (TypeExpr.unionOf members) := by
  intro target htarget
  rw [TypeExpr.leaves_unionOf, List.mem_flatMap] at htarget
  obtain ⟨t, ht, htarget⟩ := htarget
  exact h t ht target htarget

theorem allStand_mapComposite (name : String) : AllStand (p.mapComposite name) := by
  rcases mapComposite_cases p name with ⟨-, htype⟩ | ⟨s, -, htype⟩ | ⟨-, -, htype⟩
  · rw [htype]
    exact allStand_of_leaf rfl nofun
  · rw [htype]
    exact allStand_external s name
  · rw [htype]
    exact allStand_declared name

theorem allStand_mapScalar (name : String) : AllStand (p.mapScalar name) := by
  rcases mapScalar_cases p name with ⟨-, type, htype⟩ | ⟨-, s, -, htype⟩ | ⟨-, -, htype⟩
  · rw [htype]
    exact allStand_of_leaf rfl nofun
  · rw [htype]
    exact allStand_external s name
  · rw [htype]
    exact allStand_declared name

theorem allStand_mapInterface (name : String) : AllStand (p.mapInterface name) := by
  rw [mapInterface]
  split
  · exact allStand_mapComposite name
  · refine allStand_unionOf fun t ht => ?_
    rcases List.mem_append.mp ht with ht | ht
    · obtain ⟨o, -, rfl⟩ := List.mem_map.mp ht
      exact allStand_mapComposite o
    · obtain rfl := List.mem_singleton.mp ht
      exact allStand_declared name

/-- The cases are the kinds of types. -/
theorem allStand_mapNamed {name : String} (h : p.mapNamed name = .ok t) : AllStand t := by
  rw [mapNamed] at h
  split at h
  · obtain rfl := Except.ok.inj h
    exact allStand_mapScalar name
  · obtain rfl := Except.ok.inj h
    rw [mapEnum]
    split
    · exact allStand_external _ name
    · exact allStand_declared name
  · obtain rfl := Except.ok.inj h
    exact allStand_mapComposite name
  · obtain rfl := Except.ok.inj h
    exact allStand_mapComposite name
  · obtain rfl := Except.ok.inj h
    exact allStand_mapInterface name
  · obtain rfl := Except.ok.inj h
    exact allStand_declared name
  · cases h

/-- Whatever a type was written for, its targets were made from symbols of the overrides. -/
theorem Origin.allStand (ht : p.Origin t) : AllStand t := by
  cases ht with
  | composite name => exact allStand_mapComposite name
  | name hname => exact allStand_mapNamed hname
  | reference hreference =>
    obtain ⟨u, hu, hleaves⟩ := leaves_mapType hreference
    intro target h
    rw [hleaves] at h
    exact allStand_mapNamed hu target h
  | declared name => exact allStand_declared name
  | emptyRecord => exact allStand_of_leaf rfl nofun
  | parameter name => exact allStand_of_leaf rfl nofun

/-- What a field is said to take is nothing, or a record of the module. -/
theorem Takes.origin {owner : String} {field : Field} {record : Option Record}
    (h : p.Takes owner field t record) : p.Origin t := by
  cases h with
  | nothing _ => exact .emptyRecord
  | record _ _ _ => exact .declared _

/-- A type in a contract comes from resolution if the root of the contract does. -/
theorem HandlerFor.origin {owner : String} {parameter : Option String}
    {extensions : List Extension} {root : TypeExpr} {isSubscription : Bool} {fields : List Field}
    {made : HandlerWithArgs}
    (h : p.HandlerFor owner parameter extensions root isSubscription fields made)
    (hroot : p.Origin root) (hextensions : ∀ e ∈ extensions, e.root = root)
    (ht : t ∈ (Declaration.handler made.handler).types) : p.Origin t := by
  rcases List.mem_append.mp ht with ht | ht
  · obtain ⟨e, he, rfl⟩ := List.mem_map.mp ht
    rw [h.extensions] at he
    rw [hextensions e he]
    exact hroot
  · obtain ⟨answer, ha, ht⟩ := List.mem_flatMap.mp ht
    obtain ⟨field, -, record, hanswer, -⟩ := h.exists_field ha
    simp only [List.mem_cons, List.not_mem_nil, or_false] at ht
    obtain rfl | rfl | rfl := ht
    · rw [hanswer.root]
      exact hroot
    · exact hanswer.takes.origin
    · exact .reference hanswer.result

theorem origin_of_inputFields {values : List InputValue} {fields : List RecordField}
    (h : List.Forall₂ p.InputField values fields) (ht : t ∈ fields.map (·.type)) : p.Origin t := by
  obtain ⟨field, hfield, rfl⟩ := List.mem_map.mp ht
  obtain ⟨value, -, hvalue⟩ := exists_left_of_forall₂ h hfield
  exact .reference hvalue.type

theorem origin_of_dataFields {fields : List Field} {data : List RecordField}
    (h : List.Forall₂ p.DataField fields data) (ht : t ∈ data.map (·.type)) : p.Origin t := by
  obtain ⟨field, hfield, rfl⟩ := List.mem_map.mp ht
  obtain ⟨value, -, hvalue⟩ := exists_left_of_forall₂ h hfield
  exact .reference hvalue.type

theorem origin_of_mem_interfaceMembers {name : String} (ht : t ∈ p.interfaceMembers name) :
    p.Origin t := by
  rw [interfaceMembers] at ht
  split at ht
  · obtain rfl := List.mem_singleton.mp ht
    exact .composite name
  · obtain ⟨o, -, rfl⟩ := List.mem_map.mp ht
    exact .composite o

theorem origin_of_mem_unionMembers {members : List String} (ht : t ∈ p.unionMembers members) :
    p.Origin t := by
  obtain ⟨member, -, rfl⟩ := List.mem_map.mp ht
  split
  · exact .composite member
  · exact .declared member

end Project

namespace DeclarationSet

open Project

/-- **Origin of types.** The cases are the parts of a module. -/
theorem Parts.MadeFrom.origin {s : Parts} {p : Project} {set : DeclarationSet}
    (hs : s.MadeFrom p set) {d : Declaration} (hd : d ∈ set.declarations) {t : TypeExpr}
    (ht : t ∈ d.types) : p.Origin t := by
  -- Each declaration writes only types that come from resolving a name or a reference.
  cases hs.mem_iff.mp hd with
  | root => nomatch ht
  | helpers => nomatch ht
  | handler hmade =>
    rcases hs.handler_cases hmade with ⟨i, -, hi⟩ | ⟨o, -, hobject⟩
    · exact hi.origin (.parameter "T") nofun ht
    · refine hobject.origin (.composite o.1) (fun e he => ?_) ht
      obtain ⟨i, -, rfl⟩ := List.mem_map.mp he
      rfl
  | args hmade hr =>
    rcases hs.handler_cases hmade with ⟨i, -, hi⟩ | ⟨o, -, hobject⟩
    · obtain ⟨field, -, hfields⟩ := hi.exists_of_mem_records hr
      exact origin_of_inputFields hfields ht
    · obtain ⟨field, -, hfields⟩ := hobject.exists_of_mem_records hr
      exact origin_of_inputFields hfields ht
  | objectData hr =>
    obtain ⟨o, -, -, hfields⟩ := exists_left_of_forall₂ hs.objectData hr
    exact origin_of_dataFields hfields ht
  | interfaceData hr =>
    obtain ⟨i, -, -, hfields⟩ := exists_left_of_forall₂ hs.interfaceData hr
    exact origin_of_dataFields hfields ht
  | input hr =>
    obtain ⟨i, -, -, hfields⟩ := exists_left_of_forall₂ hs.inputs hr
    exact origin_of_inputFields hfields ht
  | enum _ => nomatch ht
  | reexport _ => nomatch ht
  | table =>
    obtain ⟨entry, hentry, ht⟩ := List.mem_flatMap.mp ht
    rcases List.mem_append.mp hentry with hentry | hentry
    · obtain ⟨u, -, rfl⟩ := List.mem_map.mp hentry
      exact origin_of_mem_unionMembers ht
    · obtain ⟨i, -, rfl⟩ := List.mem_map.mp hentry
      exact origin_of_mem_interfaceMembers ht
  | implementors hname => exact origin_of_mem_interfaceMembers ht
  | union hentry =>
    obtain ⟨u, -, hunion⟩ := exists_left_of_forall₂ hs.unions hentry
    obtain ⟨member, -, hmember⟩ := exists_left_of_forall₂ hunion.members ht
    exact .name hmember

/-! ## References of a module -/

variable {set : DeclarationSet} {p : Project} {target : External}

/-- The references in the text of a module. -/
def references (set : DeclarationSet) : List External :=
  set.declarations.flatMap fun d => Piece.references (d.pieces set.context)

/-- The type of what resolvers are told of the request. -/
def resolveInfo : External := librarySymbol "GraphQLResolveInfo"

/-- The type of what the user gives for a scalar. -/
def scalarType : External := librarySymbol "GraphQLScalarType"

/-- Whether the contract of the module lists a scalar. -/
def ListsScalars (set : DeclarationSet) : Prop :=
  ∃ contract, .root contract ∈ set.declarations ∧ contract.scalars ≠ []

/-- A symbol is among the types of a module, at any depth. -/
def Mentions (set : DeclarationSet) (target : External) : Prop :=
  ∃ d ∈ set.declarations, ∃ t ∈ d.types, .named (.external target) ∈ t.leaves

theorem hasCustomScalars_iff : set.hasCustomScalars = true ↔ set.ListsScalars := by
  rw [hasCustomScalars, List.any_eq_true]
  constructor
  · rintro ⟨d, hd, h⟩
    cases d with
    | root contract => exact ⟨contract, hd, by simpa using h⟩
    | _ => nomatch h
  · rintro ⟨contract, hd, h⟩
    exact ⟨_, hd, by simpa using h⟩

theorem mem_externals_declarations_iff :
    target ∈ set.declarations.flatMap (·.externals) ↔ set.Mentions target := by
  simp only [Mentions, Declaration.externals, List.mem_flatMap, TypeExpr.mem_externals_iff]

/-- In a module with helpers, the text refers to what is collected as needed. -/
theorem mem_references_iff (hhelpers : .helpers ∈ set.declarations) :
    target ∈ set.references ↔ target = resolveInfo ∨ (target = scalarType ∧ set.ListsScalars) ∨
      target = set.context ∨ set.Mentions target := by
  rw [← mem_externals_declarations_iff]
  simp only [references, List.mem_flatMap, Declaration.references_pieces, List.mem_append]
  constructor
  · rintro ⟨d, hd, hown | hexternal⟩
    · cases d with
      | root contract =>
        obtain ⟨scalar, hscalar, rfl⟩ := List.mem_map.mp hown
        exact .inr (.inl ⟨rfl, contract, hd, List.ne_nil_of_mem hscalar⟩)
      | helpers =>
        simp only [Declaration.ownReferences, List.mem_cons, List.not_mem_nil, or_false] at hown
        rw [resolveInfo]
        tauto
      | _ => cases hown
    · exact .inr (.inr (.inr ⟨d, hd, hexternal⟩))
  -- The helpers are always declared, and refer to the first and the third of these.
  · rintro (rfl | ⟨rfl, contract, hd, hscalars⟩ | rfl | ⟨d, hd, hexternal⟩)
    · exact ⟨_, hhelpers, .inl (by simp [Declaration.ownReferences, resolveInfo])⟩
    · obtain ⟨scalar, hscalar⟩ := List.exists_mem_of_ne_nil _ hscalars
      exact ⟨_, hd, .inl (List.mem_map.mpr ⟨scalar, hscalar, rfl⟩)⟩
    · exact ⟨_, hhelpers, .inl (by simp [Declaration.ownReferences])⟩
    · exact ⟨d, hd, .inr hexternal⟩

/-- What is asked for, target by target, in the order in which it is collected. -/
theorem mem_neededExternals_iff : target ∈ set.neededExternals ↔ target = resolveInfo ∨
    (target = scalarType ∧ set.ListsScalars) ∨ target = set.context ∨ set.Mentions target := by
  rw [← mem_externals_declarations_iff, ← hasCustomScalars_iff]
  simp only [neededExternals, externals, resolveInfo, scalarType, List.mem_append, List.mem_cons,
    List.not_mem_nil, or_false, or_assoc]
  cases set.hasCustomScalars with
  | true => simp
  | false => simp

/-- The text refers to just what is asked for. Neither an import is missing nor is one left over. -/
theorem mem_references_iff_needed (hhelpers : .helpers ∈ set.declarations) :
    target ∈ set.references ↔ target ∈ set.neededExternals := by
  rw [mem_references_iff hhelpers, mem_neededExternals_iff]

/-- A symbol of a module stands for a type, be it one of the schema or of the library. -/
theorem Parts.MadeFrom.stands {s : Parts} (hs : s.MadeFrom p set) (hcontext : set.context.Stands)
    (h : target ∈ set.neededExternals) : target.Stands := by
  rcases mem_neededExternals_iff.mp h with rfl | ⟨rfl, -⟩ | rfl | ⟨d, hd, t, ht, hleaf⟩
  · exact ⟨"GraphQLResolveInfo", rfl⟩
  · exact ⟨"GraphQLScalarType", rfl⟩
  · exact hcontext
  · exact (hs.origin hd ht).allStand target hleaf

end DeclarationSet

/-- A name that a symbol is imported under is the one that it has where it is used. -/
theorem External.Stands.localName {target : External} (h : target.Stands) {e : ImportEntry}
    (he : target.needed? = some e) {n : String} (hn : e.clause.localName? = some n) : n = e.name := by
  obtain ⟨name, htarget⟩ := h
  rw [htarget] at he
  cases hsymbol : target.symbol with
  | verbatim text =>
    rw [hsymbol] at he
    nomatch he
  | imported path binding rename =>
    rw [hsymbol] at he
    obtain rfl := Option.some.inj he
    cases binding with
    | default => nomatch hn
    | named symbol =>
      obtain rfl := Option.some.inj hn
      cases rename with
      | none => rfl
      | some rename => rfl

/-- **Imports and uses.** The text of a module is the import statements and the declarations, and what is
imported is what the declarations refer to: a symbol that comes from a module. These are a type of the
library for the helpers, another one if scalars are listed, the context, and the symbols among the
types. Names are bound once, each to its symbol, and the statements say just that. -/
theorem Project.imports_of_render {p : Project} {set : DeclarationSet} {output : String}
    (hset : p.declarations = .ok set) (houtput : set.render = .ok output) :
    ∃ ledger, set.checkedImports = .ok ledger ∧
      output = "\n\n".intercalate ("\n".intercalate (ledger.statements.map (·.render)) ::
        set.declarations.map fun d => Piece.join (d.pieces set.context)) ++ "\n" ∧
      (∀ e, e ∈ ledger.entries ↔ ∃ target ∈ set.references, target.needed? = some e) ∧
      (∀ target, target ∈ set.references ↔ target = DeclarationSet.resolveInfo ∨
        (target = DeclarationSet.scalarType ∧ set.ListsScalars) ∨ target = set.context ∨
        set.Mentions target) ∧
      ledger.names.Nodup ∧
      (∀ e ∈ ledger.entries, ∀ n, e.clause.localName? = some n → n = e.name) ∧
      ledger.StatedBy ledger.statements := by
  obtain ⟨ledger, hledger, houtput⟩ := bind_eq_ok_iff.mp houtput
  obtain ⟨s, hs⟩ := Project.declarations_eq_ok hset
  have himports := DeclarationSet.imports_eq_ok hledger
  have hhelpers : .helpers ∈ set.declarations := hs.mem_iff.mpr .helpers
  have hcontext : set.context.Stands := ⟨"Context", by rw [context_eq_of_declarations hset]; rfl⟩
  -- The ledger starts empty, so an entry was added for one of the references.
  have hentries (e : ImportEntry) :
      e ∈ ledger.entries ↔ ∃ target ∈ set.neededExternals, target.needed? = some e := by
    rw [ImportLedger.mem_addAll_iff himports]
    exact or_iff_right List.not_mem_nil
  refine ⟨ledger, hledger, ?_, fun e => ?_, fun target => DeclarationSet.mem_references_iff hhelpers,
    DeclarationSet.nodup_names_imports himports, fun e he n hn => ?_,
    DeclarationSet.statedBy_imports himports⟩
  · rw [← Except.ok.inj houtput, ImportLedger.render_eq]
    simp only [Declaration.join_pieces]
  · simp only [hentries, DeclarationSet.mem_references_iff_needed hhelpers]
  · obtain ⟨target, htarget, hneeded⟩ := (hentries e).mp he
    exact (hs.stands hcontext htarget).localName hneeded hn

/-- A text with a scalar, and an object that is only told apart in a union. -/
def ratingText : String := "scalar Date type User { at: Date } union U = User type Query { u: [U] }"

/-- The context is a default export, dates are numbers and users go by another name. -/
def ratingOverrides : Overrides where
  contextType := .imported "./context" .default none
  scalars := ⟨[("Date", .verbatim "number")]⟩
  mappers := ⟨[("User", .imported "./rows" (.named "Row") (some "UserRow"))]⟩
  enumValues := .empty

/-- Both symbols are imported, and so is the type for the scalar. -/
theorem Project.imports_of_render_ratingText :
    ∃ c set output ledger, Catalogue.load ratingText = .ok c ∧
      (⟨c, ratingOverrides⟩ : Project).declarations = .ok set ∧ set.render = .ok output ∧
      set.checkedImports = .ok ledger ∧ set.ListsScalars ∧
      ⟨"Context", "./context", .default⟩ ∈ ledger.entries ∧
      ⟨"UserRow", "./rows", .named "Row" (some "UserRow")⟩ ∈ ledger.entries ∧
      ⟨"GraphQLScalarType", "graphql", .named "GraphQLScalarType" none⟩ ∈ ledger.entries ∧
      ledger.StatedBy ledger.statements := by
  have heval : ((Catalogue.load ratingText).toOption.bind fun c =>
      (⟨c, ratingOverrides⟩ : Project).declarations.toOption.bind fun set =>
        set.render.toOption.map fun _ =>
          (set.hasCustomScalars, set.references.contains
            ((Symbol.imported "./rows" (.named "Row") (some "UserRow")).toExternal "User"))) =
      some (true, true) := by
    decide +kernel
  obtain ⟨c, hc, heval⟩ := Option.bind_eq_some_iff.mp heval
  obtain ⟨set, hset, heval⟩ := Option.bind_eq_some_iff.mp heval
  obtain ⟨output, houtput, heval⟩ := Option.map_eq_some_iff.mp heval
  simp only [Prod.mk.injEq, List.contains_iff_mem] at heval
  obtain ⟨hscalars, hrow⟩ := heval
  have hset := toOption_eq_some_iff.mp hset
  have houtput := toOption_eq_some_iff.mp houtput
  have hlists := DeclarationSet.hasCustomScalars_iff.mp hscalars
  obtain ⟨ledger, hledger, -, hentries, hreferences, -, -, hstated⟩ :=
    imports_of_render hset houtput
  have hcontext := context_eq_of_declarations hset
  refine ⟨c, set, output, ledger, toOption_eq_some_iff.mp hc, hset, houtput, hledger, hlists,
    (hentries _).mpr ⟨set.context, ?_, ?_⟩, (hentries _).mpr ⟨_, hrow, rfl⟩,
    (hentries _).mpr ⟨DeclarationSet.scalarType, ?_, rfl⟩, hstated⟩
  · exact (hreferences _).mpr (.inr (.inr (.inl rfl)))
  · rw [hcontext]
    rfl
  · exact (hreferences _).mpr (.inr (.inl ⟨rfl, hlists⟩))

/-- The context is the type that is meant for scalars. -/
def scalarContext : Overrides :=
  { Overrides.default with contextType := .named "graphql" "GraphQLScalarType" }

/-- That type may be imported for another reason: it is not true of every module that it is imported
exactly if scalars are listed. -/
theorem Project.imports_of_render_scalarContext :
    ¬ ∀ (text : String) (c : Catalogue) (overrides : Overrides) (set : DeclarationSet)
      (output : String) (ledger : ImportLedger), Catalogue.load text = .ok c →
      (⟨c, overrides⟩ : Project).declarations = .ok set → set.render = .ok output →
      set.checkedImports = .ok ledger →
      (⟨"GraphQLScalarType", "graphql", .named "GraphQLScalarType" none⟩ ∈ ledger.entries ↔
        set.ListsScalars) := by
  intro hall
  have heval : ((Catalogue.load "type Query { a: Int }").toOption.bind fun c =>
      (⟨c, scalarContext⟩ : Project).declarations.toOption.bind fun set =>
        set.render.toOption.bind fun _ => set.checkedImports.toOption.map fun ledger =>
          (ledger.entries.contains
            ⟨"GraphQLScalarType", "graphql", .named "GraphQLScalarType" none⟩,
            set.hasCustomScalars)) = some (true, false) := by
    decide +kernel
  obtain ⟨c, hc, heval⟩ := Option.bind_eq_some_iff.mp heval
  obtain ⟨set, hset, heval⟩ := Option.bind_eq_some_iff.mp heval
  obtain ⟨output, houtput, heval⟩ := Option.bind_eq_some_iff.mp heval
  obtain ⟨ledger, hledger, heval⟩ := Option.map_eq_some_iff.mp heval
  simp only [Prod.mk.injEq, List.contains_iff_mem] at heval
  obtain ⟨hentry, hnone⟩ := heval
  have hiff := hall _ c scalarContext set output ledger (toOption_eq_some_iff.mp hc)
    (toOption_eq_some_iff.mp hset) (toOption_eq_some_iff.mp houtput)
    (toOption_eq_some_iff.mp hledger)
  rw [← DeclarationSet.hasCustomScalars_iff, hnone] at hiff
  nomatch hiff.mp hentry

end ResolverContracts
