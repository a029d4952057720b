import ResolverContracts.Proofs.Contract.ObjectContracts
/-!
# The outline of a module

The declarations of a module come from eleven loops. Each goes over the catalogue with a condition of
its own, and the records of arguments are collected on the side, by the loops over the contracts. That
no type falls between two loops, or into both, is not visible in any of them.

`Project.outline` lists what there is to declare, and is made of the catalogue by filters only. A module
is a realization of its outline: one declaration for each item, in the same order, and each with the
contents that the item calls for (`Catalogue.outline_of_load`).
-/

set_option autoImplicit false

namespace ResolverContracts

/-- What a declaration is there for. -/
inductive Item
  | root
  | interfaceContract (interface : String × List Field)
  | objectContract (object : String × ObjectType)
  | helpers
  /-- The arguments of a field that a contract declares. -/
  | arguments (owner : String) (field : Field)
  | data (name : String) (fields : List Field)
  | input (type : String × List InputValue)
  | enum (type : String × List String)
  | table
  | implementors (interface : String)
  | union (type : String × List String)
  deriving DecidableEq

namespace Project

variable {p : Project}

/-! ## The outline -/

/-- The objects whose handlers come first: those that the user gives a type for, and the roots that
carry no data. -/
def handlerFirst (p : Project) : List (String × ObjectType) :=
  p.catalogue.objects.filter fun o => p.isRequired o.1

/-- All other objects. -/
def withData (p : Project) : List (String × ObjectType) :=
  p.catalogue.objects.filter fun o => !p.isRequired o.1

/-- The types that have contracts, with the fields that their contracts declare. -/
def contracts (p : Project) : List (String × List Field) :=
  p.unmappedInterfaces ++ (p.handlerFirst ++ p.withData).map fun o =>
    (o.1, o.2.fields.filter fun f => ¬ p.Inherits o.2 f.name)

/-- The fields of a contract that have arguments. -/
def withArguments (contract : String × List Field) : List Item :=
  (contract.2.filter fun f => !f.arguments.isEmpty).map (.arguments contract.1)

/-- What there is to declare, in order. -/
def outline (p : Project) : List Item :=
  [.root] ++
    (p.unmappedInterfaces.map .interfaceContract ++
      (p.handlerFirst ++ p.withData).map .objectContract) ++
    [.helpers] ++
    p.contracts.flatMap withArguments ++
    (p.withData.map (fun o => .data o.1 o.2.fields) ++
      p.unmappedInterfaces.map fun i => .data i.1 i.2) ++
    p.catalogue.inputObjects.map .input ++
    p.catalogue.enums.map .enum ++
    [.table] ++
    ((p.catalogue.interfaces.map (·.1)).filter p.catalogue.hasImplementors).map .implementors ++
    p.catalogue.unions.map .union

/-- Every object is in one of the two groups, and in one only. -/
theorem handlerFirst_append_perm (p : Project) :
    (p.handlerFirst ++ p.withData).Perm p.catalogue.objects :=
  List.filter_append_perm _ _

/-! A schema has no names that are kept for introspection, so what is declared are all its objects. -/

theorem declaredObjects_eq (hc : p.catalogue.WellNamed) : p.declaredObjects = p.catalogue.objects :=
  List.filter_eq_self.mpr fun _ ho => (List.mem_filter.mp (mem_declaredObjects hc ho)).2

theorem requiredObjects_eq (hc : p.catalogue.WellNamed) : p.requiredObjects = p.handlerFirst := by
  rw [requiredObjects, declaredObjects_eq hc, handlerFirst]

theorem optionalObjects_eq (hc : p.catalogue.WellNamed) : p.optionalObjects = p.withData := by
  rw [optionalObjects, declaredObjects_eq hc, withData]

/-! ## Records on the side -/

section Records

variable {owner : String} {parameter : Option String} {extensions : List Extension}
  {root : TypeExpr} {isSubscription : Bool} {fields : List Field} {made : HandlerWithArgs}

/-- A field of a type, and the record of its arguments. -/
structure ArgsRecord (p : Project) (owner : String) (field : Field) (record : Record) : Prop where
  name : record.name = argsRecordName owner field.name
  fields : List.Forall₂ p.InputField field.arguments record.fields

/-- There is a record for each field with arguments, in the order of the fields. -/
theorem HandlerFor.forall₂_records
    (h : p.HandlerFor owner parameter extensions root isSubscription fields made) :
    List.Forall₂ (p.ArgsRecord owner) (fields.filter fun f => !f.arguments.isEmpty)
      made.records := by
  obtain ⟨answered, hanswered, -, hrecords⟩ := h.answers
  rw [hrecords]
  clear hrecords h
  -- Along the answers. What an answer takes decides on both sides at once.
  induction hanswered with
  | nil => exact .nil
  | cons hanswer _ ih =>
    rcases hanswer.takes.cases with ⟨hnone, -, hrecord⟩ | ⟨r, hrecord, -, hsome, hname, hfields⟩
    · -- Without arguments the field is filtered out, and there is no record.
      rw [List.filter_cons_of_neg (by simp [hnone]), List.filterMap_cons_none hrecord]
      exact ih
    · rw [List.filter_cons_of_pos (by simpa using hsome), List.filterMap_cons_some hrecord]
      exact .cons ⟨hname, hfields⟩ ih

/-- These are the records that the fields of the contract take. -/
theorem HandlerFor.map_name_records
    (h : p.HandlerFor owner parameter extensions root isSubscription fields made) :
    made.records.map (·.name) = made.handler.fields.flatMap (·.args.locals) := by
  obtain ⟨answered, hanswered, hfields, hrecords⟩ := h.answers
  rw [hfields, hrecords]
  clear hfields hrecords h
  induction hanswered with
  | nil => rfl
  | cons hanswer _ ih =>
    rw [List.map_cons, List.flatMap_cons, ← ih]
    rcases hanswer.takes.cases with ⟨-, hargs, hrecord⟩ | ⟨r, hrecord, hargs, -⟩
    · -- The empty record has no name in it.
      rw [List.filterMap_cons_none hrecord, hargs]
      rfl
    · rw [List.filterMap_cons_some hrecord, hargs]
      rfl

end Records

end Project

namespace DeclarationSet

open Project

variable {set : DeclarationSet} {p : Project} {s : Parts}

/-- A declaration is what an item calls for. -/
inductive Realizes (set : DeclarationSet) (p : Project) : Item → Declaration → Prop
  | root : Realizes set p .root
    (.root ⟨p.handlerFirst.map (·.1), p.withData.map (·.1), p.catalogue.customScalars⟩)
  | interfaceContract {i : String × List Field} {h : Handler} (hname : h.name = resolversName i.1)
    (hparameter : h.parameter = some "T") (hextensions : h.extensions = [])
    (hfields : List.Forall₂
      (fun f a => set.IsSignature p (.parameter "T") f a ∧ a.isSubscription = false) i.2 h.fields) :
    Realizes set p (.interfaceContract i) (.handler h)
  | objectContract {o : String × ObjectType} {h : Handler} (hname : h.name = resolversName o.1)
    (hcontract : set.IsObjectContract p o h) : Realizes set p (.objectContract o) (.handler h)
  | helpers : Realizes set p .helpers .helpers
  | arguments {owner : String} {field : Field} {r : Record} (h : p.ArgsRecord owner field r) :
    Realizes set p (.arguments owner field) (.args r)
  | data {fields : List Field} {r : Record} (h : List.Forall₂ p.DataField fields r.fields) :
    Realizes set p (.data r.name fields) (.dto r)
  | input {values : List InputValue} {r : Record} (h : List.Forall₂ p.InputField values r.fields) :
    Realizes set p (.input (r.name, values)) (.input r)
  | enum {e : String × List String} {members : List EnumMember}
    (hkept : p.overrides.enumValues.get? e.1 = none) :
    Realizes set p (.enum e) (.enum e.1 members)
  | reexport {e : String × List String} {symbol : Symbol}
    (hreplaced : p.overrides.enumValues.get? e.1 = some symbol) :
    Realizes set p (.enum e) (.reexport e.1 (symbol.toExternal e.1))
  | table : Realizes set p .table (.table p.discriminationTable)
  | implementors {interface : String} : Realizes set p (.implementors interface)
    (.implementors ⟨interface ++ "Types", p.interfaceMembers interface⟩)
  | union {u : String × List String} {entry : Alias} (h : p.UnionAlias u entry) :
    Realizes set p (.union u) (.union entry)

/-- The contracts of a module, in order. -/
def contracts (set : DeclarationSet) : List Handler :=
  set.declarations.filterMap fun
    | .handler h => some h
    | _ => none

/-- The records of arguments, in order. -/
def argumentRecords (set : DeclarationSet) : List Record :=
  set.declarations.filterMap fun
    | .args r => some r
    | _ => none

namespace Parts.MadeFrom

/-! ## Sections of a module -/

theorem realizes_contracts (hs : s.MadeFrom p set) (hc : p.catalogue.WellNamed) :
    List.Forall₂ (set.Realizes p)
      (p.unmappedInterfaces.map .interfaceContract ++
        (p.handlerFirst ++ p.withData).map .objectContract)
      (s.handlers.map fun h => .handler h.handler) := by
  -- Handlers are made in the order of the outline, interfaces first.
  have hinterfaces : List.Forall₂ (set.Realizes p) (p.unmappedInterfaces.map .interfaceContract)
      (s.interfaceHandlers.map fun h => .handler h.handler) := by
    rw [List.forall₂_map_left_iff, List.forall₂_map_right_iff]
    refine forall₂_imp_of_mem hs.interfaceHandlers fun i _ made hmade hhandler => ?_
    exact .interfaceContract hhandler.name hhandler.parameter hhandler.extensions
      (hs.forall₂_isSignature (List.mem_append_left _ hmade) hhandler)
  have hobjects : List.Forall₂ (set.Realizes p)
      ((p.handlerFirst ++ p.withData).map .objectContract)
      (s.objectHandlers.map fun h => .handler h.handler) := by
    rw [← requiredObjects_eq hc, ← optionalObjects_eq hc, List.forall₂_map_left_iff,
      List.forall₂_map_right_iff]
    refine forall₂_imp_of_mem hs.objectHandlers fun o _ made hmade hhandler => ?_
    exact .objectContract hhandler.name
      (hs.isObjectContract (List.mem_append_right _ hmade) hhandler)
  have hsplit : s.handlers.map (fun h => Declaration.handler h.handler) =
      s.interfaceHandlers.map (fun h => .handler h.handler) ++
        s.objectHandlers.map fun h => .handler h.handler := List.map_append
  rw [hsplit]
  exact List.rel_append hinterfaces hobjects

/-- The records that come with a contract are those of the fields it declares. -/
theorem forall₂_records (hs : s.MadeFrom p set) (hc : p.catalogue.WellNamed) :
    List.Forall₂ (fun contract made => List.Forall₂ (p.ArgsRecord contract.1)
      (contract.2.filter fun f => !f.arguments.isEmpty) made.records) p.contracts s.handlers := by
  have hobjects := hs.objectHandlers
  rw [requiredObjects_eq hc, optionalObjects_eq hc] at hobjects
  refine List.rel_append ?_ ?_
  · exact hs.interfaceHandlers.imp fun _ _ hhandler => hhandler.forall₂_records
  · -- An object declares only what it does not take over.
    rw [List.forall₂_map_left_iff]
    refine hobjects.imp fun o made hhandler => ?_
    have hrecords := hhandler.forall₂_records
    rwa [ownFields_eq] at hrecords

/-- Records of arguments stand in the order of the handlers, and in each in the order of its fields. -/
theorem realizes_arguments (hs : s.MadeFrom p set) (hc : p.catalogue.WellNamed) :
    List.Forall₂ (set.Realizes p) (p.contracts.flatMap withArguments)
      ((s.handlers.flatMap (·.records)).map .args) := by
  rw [List.map_flatMap]
  refine List.rel_flatMap (hs.forall₂_records hc) fun contract made hrecords => ?_
  rw [withArguments, List.forall₂_map_left_iff, List.forall₂_map_right_iff]
  exact hrecords.imp fun _ _ => .arguments

/-- Records of data are for objects with a handler that may be left out, and for interfaces. -/
theorem realizes_data (hs : s.MadeFrom p set) (hc : p.catalogue.WellNamed) :
    List.Forall₂ (set.Realizes p)
      (p.withData.map (fun o => .data o.1 o.2.fields) ++
        p.unmappedInterfaces.map fun i => .data i.1 i.2)
      ((s.objectData ++ s.interfaceData).map .dto) := by
  have hobjects := hs.objectData
  rw [optionalObjects_eq hc] at hobjects
  rw [List.map_append]
  refine List.rel_append ?_ ?_
  · rw [List.forall₂_map_left_iff, List.forall₂_map_right_iff]
    refine hobjects.imp fun o r ⟨hname, hfields⟩ => ?_
    rw [← hname]
    exact .data hfields
  · rw [List.forall₂_map_left_iff, List.forall₂_map_right_iff]
    refine hs.interfaceData.imp fun i r ⟨hname, hfields⟩ => ?_
    rw [← hname]
    exact .data hfields

theorem realizes_inputs (hs : s.MadeFrom p set) :
    List.Forall₂ (set.Realizes p) (p.catalogue.inputObjects.map .input) (s.inputs.map .input) := by
  rw [List.forall₂_map_left_iff, List.forall₂_map_right_iff]
  refine hs.inputs.imp fun ⟨name, values⟩ r ⟨hname, hfields⟩ => ?_
  obtain rfl : r.name = name := hname
  exact .input hfields

theorem realizes_enums (hs : s.MadeFrom p set) :
    List.Forall₂ (set.Realizes p) (p.catalogue.enums.map .enum) s.enums := by
  rw [List.forall₂_map_left_iff]
  refine hs.enums.imp fun e d henum => ?_
  rcases enumDeclaration_cases henum with ⟨symbol, hreplaced, rfl⟩ | ⟨members, hkept, rfl⟩
  · exact .reexport hreplaced
  · exact .enum hkept

theorem realizes_implementors (p : Project) (set : DeclarationSet) :
    List.Forall₂ (set.Realizes p)
      (((p.catalogue.interfaces.map (·.1)).filter p.catalogue.hasImplementors).map .implementors)
      (p.implementedInterfaces.map fun name => .implementors (p.implementorsAlias name)) := by
  rw [List.forall₂_map_left_iff, List.forall₂_map_right_iff]
  exact List.forall₂_same.mpr fun _ _ => .implementors

theorem realizes_unions (hs : s.MadeFrom p set) :
    List.Forall₂ (set.Realizes p) (p.catalogue.unions.map .union) (s.unions.map .union) := by
  rw [List.forall₂_map_left_iff, List.forall₂_map_right_iff]
  exact hs.unions.imp fun _ _ => .union

/-- Section by section, a module realizes its outline. -/
theorem realizes (hs : s.MadeFrom p set) (hc : p.catalogue.WellNamed) :
    List.Forall₂ (set.Realizes p) p.outline set.declarations := by
  rw [hs.declarations]
  have hroot : List.Forall₂ (set.Realizes p) [.root] [.root p.rootContract] := by
    rw [rootContract, requiredObjects_eq hc, optionalObjects_eq hc]
    exact .cons .root .nil
  have hhelpers : List.Forall₂ (set.Realizes p) [.helpers] [.helpers] := .cons .helpers .nil
  have htable : List.Forall₂ (set.Realizes p) [.table] [.table p.discriminationTable] :=
    .cons .table .nil
  -- The sections are put in a row as the module has them, from the front.
  have hcontracts := List.rel_append hroot (hs.realizes_contracts hc)
  have harguments := List.rel_append (List.rel_append hcontracts hhelpers) (hs.realizes_arguments hc)
  have hdata := List.rel_append harguments (hs.realizes_data hc)
  have henums := List.rel_append (List.rel_append hdata hs.realizes_inputs) hs.realizes_enums
  have haliases := List.rel_append (List.rel_append henums htable) (realizes_implementors p set)
  exact List.rel_append haliases hs.realizes_unions

/-! ## Arguments in the order of the contracts -/

/-- Among the enums are neither contracts nor records. -/
theorem filterMap_enums (hs : s.MadeFrom p set) {α : Type} {f : Declaration → Option α}
    (henum : ∀ name members, f (.enum name members) = none)
    (hreexport : ∀ name target, f (.reexport name target) = none) : s.enums.filterMap f = [] := by
  refine List.filterMap_eq_nil_iff.mpr fun d hd => ?_
  obtain ⟨e, -, he⟩ := exists_left_of_forall₂ hs.enums hd
  rcases enumDeclaration_cases he with ⟨symbol, -, rfl⟩ | ⟨members, -, rfl⟩
  · exact hreexport _ _
  · exact henum _ _

theorem contracts_eq (hs : s.MadeFrom p set) : set.contracts = s.handlers.map (·.handler) := by
  rw [contracts, hs.declarations, Parts.declarations]
  simp [List.filterMap_map, hs.filterMap_enums]

theorem argumentRecords_eq (hs : s.MadeFrom p set) :
    set.argumentRecords = s.handlers.flatMap (·.records) := by
  rw [argumentRecords, hs.declarations, Parts.declarations]
  simp [List.filterMap_map, hs.filterMap_enums]

/-- The records are those that the fields take, as the contracts list them. -/
theorem names_argumentRecords (hs : s.MadeFrom p set) :
    set.argumentRecords.map (·.name) =
      set.contracts.flatMap fun h => h.fields.flatMap (·.args.locals) := by
  rw [hs.argumentRecords_eq, hs.contracts_eq, List.map_flatMap, List.flatMap_map]
  refine List.flatMap_congr fun made hmade => ?_
  rcases hs.handler_cases hmade with ⟨i, -, hhandler⟩ | ⟨o, -, hhandler⟩
  · exact hhandler.map_name_records
  · exact hhandler.map_name_records

end Parts.MadeFrom

end DeclarationSet

/-- **Outline of a module.** From a schema that loads, and with any overrides, a module that has
declarations realizes its outline. Its records of arguments are those that the fields of its contracts
take, in the same order, and the root contract has each object of the schema in one of its two lists. -/
theorem Catalogue.outline_of_load {text : String} {c : Catalogue} (h : load text = .ok c)
    (overrides : Overrides) {set : DeclarationSet}
    (hset : (⟨c, overrides⟩ : Project).declarations = .ok set) :
    let p : Project := ⟨c, overrides⟩
    List.Forall₂ (set.Realizes p) p.outline set.declarations ∧
      set.argumentRecords.map (·.name) =
        set.contracts.flatMap (fun h => h.fields.flatMap (·.args.locals)) ∧
      ∀ contract, .root contract ∈ set.declarations →
        (contract.required ++ contract.optional).Perm (c.objects.map (·.1)) ∧
          (contract.required ++ contract.optional).Nodup := by
  intro p
  have hc := load_wellNamed h
  obtain ⟨s, hs⟩ := Project.declarations_eq_ok hset
  refine ⟨hs.realizes hc, hs.names_argumentRecords, fun contract hcontract => ?_⟩
  cases hs.mem_iff.mp hcontract with
  | root =>
    have hperm : (p.requiredObjects.map (·.1) ++ p.optionalObjects.map (·.1)).Perm
        (c.objects.map (·.1)) := by
      rw [Project.requiredObjects_eq hc, Project.optionalObjects_eq hc, ← List.map_append]
      exact p.handlerFirst_append_perm.map _
    -- The objects have different names, as all types have.
    exact ⟨hperm, hperm.nodup_iff.mpr (hc.distinct.sublist c.names_objects_sublist)⟩

/-- When a post or a node was written. -/
def blogField : Field := ⟨"at", .named "Date", [⟨"page", .named "Tag"⟩]⟩

/-- The outline of a blog: queries come before posts, and a record of arguments is there for the one
contract that declares the field. -/
theorem Catalogue.outline_of_load_blogText :
    ∃ c set, load blogText = .ok c ∧ (⟨c, .default⟩ : Project).declarations = .ok set ∧
      List.Forall₂ (set.Realizes ⟨c, .default⟩)
        [.root, .interfaceContract ("Node", [blogField]),
          .objectContract ("Query", ⟨[⟨"all", .list (.named "Result"), []⟩], []⟩),
          .objectContract ("Post", ⟨[blogField], ["Node"]⟩), .helpers,
          .arguments "Node" blogField, .data "Post" [blogField], .data "Node" [blogField],
          .enum ("Tag", ["ON"]), .table, .implementors "Node", .union ("Result", ["Post"])]
        set.declarations := by
  have heval : ((load blogText).toOption.bind fun c =>
      (⟨c, .default⟩ : Project).declarations.toOption.map fun _ =>
        (⟨c, .default⟩ : Project).outline) =
      some [.root, .interfaceContract ("Node", [blogField]),
        .objectContract ("Query", ⟨[⟨"all", .list (.named "Result"), []⟩], []⟩),
        .objectContract ("Post", ⟨[blogField], ["Node"]⟩), .helpers,
        .arguments "Node" blogField, .data "Post" [blogField], .data "Node" [blogField],
        .enum ("Tag", ["ON"]), .table, .implementors "Node", .union ("Result", ["Post"])] := by
    decide +kernel
  obtain ⟨c, hc, heval⟩ := Option.bind_eq_some_iff.mp heval
  obtain ⟨set, hset, houtline⟩ := Option.map_eq_some_iff.mp heval
  have hload := toOption_eq_some_iff.mp hc
  have hdeclarations := toOption_eq_some_iff.mp hset
  obtain ⟨hrealizes, -⟩ := outline_of_load hload .default hdeclarations
  rw [houtline] at hrealizes
  exact ⟨c, set, hload, hdeclarations, hrealizes⟩

end ResolverContracts
