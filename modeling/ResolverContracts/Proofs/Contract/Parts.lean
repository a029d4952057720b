import ResolverContracts.Contract.Synthesis
import ResolverContracts.Proofs.Contract.Successes
/-!
# The parts of a module

`Project.declarations` makes the parts of a module one after the other, any of which may fail, and then
puts them in a row. Here a run that succeeded is taken apart. `DeclarationSet.Parts` is what was made,
`Parts.MadeFrom` says of what, item by item and in order, and `Project.declarations_eq_ok` finds the
parts behind a set of declarations. What is said of a whole module is then asked of each kind of
declaration (`MadeFrom.mem_iff`) and comes down to the fields it was made of.
-/

set_option autoImplicit false

namespace ResolverContracts

namespace Project

variable {p : Project} {owner : String}

/-! ## Records -/

/-- A value that is given, and the field of a record for it. -/
structure InputField (p : Project) (value : InputValue) (field : RecordField) : Prop where
  name : field.name = value.name
  type : p.mapType .mutable value.type = .ok field.type
  isOptional : field.isOptional = !value.type.isNonNull

/-- A field of a type, and the field of its data. -/
structure DataField (p : Project) (field : Field) (data : RecordField) : Prop where
  name : data.name = field.name
  type : p.mapType .mutable field.type = .ok data.type
  isOptional : data.isOptional = false

theorem inputFields_of_inputRecordFields {place : InputValue → String} {values : List InputValue}
    {fields : List RecordField} (h : p.inputRecordFields owner place values = .ok fields) :
    List.Forall₂ p.InputField values fields := by
  refine (mapM_eq_ok_iff.mp h).imp fun value field hfield => ?_
  obtain ⟨type, htype, hfield⟩ := bind_eq_ok_iff.mp hfield
  obtain rfl := Except.ok.inj hfield
  exact ⟨rfl, mapError_eq_ok_iff.mp htype, rfl⟩

theorem dataFields_of_dataRecord {fields : List Field} {record : Record}
    (h : p.dataRecord owner fields = .ok record) :
    record.name = owner ∧ List.Forall₂ p.DataField fields record.fields := by
  obtain ⟨data, hdata, h⟩ := bind_eq_ok_iff.mp h
  obtain rfl := Except.ok.inj h
  refine ⟨rfl, (mapM_eq_ok_iff.mp hdata).imp fun field data hfield => ?_⟩
  obtain ⟨type, htype, hfield⟩ := bind_eq_ok_iff.mp hfield
  obtain rfl := Except.ok.inj hfield
  exact ⟨rfl, mapError_eq_ok_iff.mp htype, rfl⟩

/-! ## Handlers -/

/-- Handlers are declared for all objects that are declared, in two groups. -/
theorem mem_requiredObjects_append_iff {o : String × ObjectType} :
    o ∈ p.requiredObjects ++ p.optionalObjects ↔ o ∈ p.declaredObjects := by
  rw [requiredObjects, optionalObjects, List.mem_append, List.mem_filter, List.mem_filter]
  cases p.isRequired o.1 with
  | true => simp
  | false => simp

/-- What a field takes: nothing, or a record that lists its arguments. -/
inductive Takes (p : Project) (owner : String) (field : Field) : TypeExpr → Option Record → Prop
  | nothing (h : field.arguments = []) : Takes p owner field .emptyRecord none
  | record {r : Record} (h : field.arguments ≠ []) (hname : r.name = argsRecordName owner field.name)
    (hfields : List.Forall₂ p.InputField field.arguments r.fields) :
    Takes p owner field (.declared r.name) (some r)

/-- A field without arguments takes the empty record and has none of its own; any other has one. -/
theorem Takes.cases {field : Field} {type : TypeExpr} {record : Option Record}
    (h : p.Takes owner field type record) :
    (field.arguments = [] ∧ type = .emptyRecord ∧ record = none) ∨
      ∃ r ∈ record, type = .declared r.name ∧ field.arguments ≠ [] ∧
        r.name = argsRecordName owner field.name ∧
        List.Forall₂ p.InputField field.arguments r.fields := by
  cases h with
  | nothing h => exact .inl ⟨h, rfl, rfl⟩
  | record h hname hfields => exact .inr ⟨_, rfl, rfl, h, hname, hfields⟩

theorem Takes.inputFields {field : Field} {type : TypeExpr} {r : Record}
    (h : p.Takes owner field type (some r)) :
    List.Forall₂ p.InputField field.arguments r.fields := by
  cases h with
  | record _ _ hfields => exact hfields

/-- A field of a type, and what a contract says of it. -/
structure Answers (p : Project) (owner : String) (root : TypeExpr) (isSubscription : Bool)
    (field : Field) (answer : HandlerField × Option Record) : Prop where
  name : answer.1.name = field.name
  isSubscription : answer.1.isSubscription = isSubscription
  root : answer.1.root = root
  result : p.mapType .readonly field.type = .ok answer.1.result
  takes : p.Takes owner field answer.1.args answer.2

theorem answers_of_handlerField {root : TypeExpr} {isSubscription : Bool} {field : Field}
    {answer : HandlerField × Option Record}
    (h : p.handlerField owner root isSubscription field = .ok answer) :
    p.Answers owner root isSubscription field answer := by
  obtain ⟨record, hrecord, h⟩ := bind_eq_ok_iff.mp h
  obtain ⟨result, hresult, h⟩ := bind_eq_ok_iff.mp h
  obtain rfl := Except.ok.inj h
  refine ⟨rfl, rfl, rfl, mapError_eq_ok_iff.mp hresult, ?_⟩
  -- What is taken is decided by whether there are arguments at all.
  rw [argsRecord?] at hrecord
  by_cases hnone : field.arguments.isEmpty = true
  · rw [if_pos hnone] at hrecord
    obtain rfl : none = record := Except.ok.inj hrecord
    exact .nothing (List.isEmpty_iff.mp hnone)
  · rw [if_neg hnone] at hrecord
    obtain ⟨fields, hfields, hrecord⟩ := bind_eq_ok_iff.mp hrecord
    obtain rfl := Except.ok.inj hrecord
    refine .record (fun hnil => hnone (List.isEmpty_iff.mpr hnil)) rfl ?_
    exact inputFields_of_inputRecordFields hfields

/-- A contract with its records, and the fields it is the contract of. -/
structure HandlerFor (p : Project) (owner : String) (parameter : Option String)
    (extensions : List Extension) (root : TypeExpr) (isSubscription : Bool) (fields : List Field)
    (made : HandlerWithArgs) : Prop where
  name : made.handler.name = resolversName owner
  parameter : made.handler.parameter = parameter
  extensions : made.handler.extensions = extensions
  answers : ∃ answered, List.Forall₂ (p.Answers owner root isSubscription) fields answered ∧
    made.handler.fields = answered.map (·.1) ∧ made.records = answered.filterMap (·.2)

theorem handlerFor_of_handlerOf {parameter : Option String} {extensions : List Extension}
    {root : TypeExpr} {isSubscription : Bool} {fields : List Field} {made : HandlerWithArgs}
    (h : p.handlerOf owner parameter extensions root isSubscription fields = .ok made) :
    p.HandlerFor owner parameter extensions root isSubscription fields made := by
  obtain ⟨answered, hanswered, h⟩ := bind_eq_ok_iff.mp h
  obtain rfl := Except.ok.inj h
  refine ⟨rfl, rfl, rfl, answered, ?_, rfl, rfl⟩
  exact (mapM_eq_ok_iff.mp hanswered).imp fun _ _ => answers_of_handlerField

namespace HandlerFor

variable {parameter : Option String} {extensions : List Extension} {root : TypeExpr}
  {isSubscription : Bool} {fields : List Field} {made : HandlerWithArgs}

/-- A contract speaks of nothing but the fields it is made of. -/
theorem exists_field (h : p.HandlerFor owner parameter extensions root isSubscription fields made)
    {answer : HandlerField} (ha : answer ∈ made.handler.fields) :
    ∃ field ∈ fields, ∃ record, p.Answers owner root isSubscription field (answer, record) ∧
      ∀ r ∈ record, r ∈ made.records := by
  obtain ⟨answered, hanswered, hfields, hrecords⟩ := h.answers
  rw [hfields] at ha
  obtain ⟨⟨_, record⟩, hmem, rfl⟩ := List.mem_map.mp ha
  obtain ⟨field, hfield, hanswer⟩ := exists_left_of_forall₂ hanswered hmem
  refine ⟨field, hfield, record, hanswer, fun r hr => ?_⟩
  rw [hrecords]
  exact List.mem_filterMap.mpr ⟨_, hmem, hr⟩

/-- A contract speaks of every field it is made of. -/
theorem exists_answer (h : p.HandlerFor owner parameter extensions root isSubscription fields made)
    {field : Field} (hf : field ∈ fields) :
    ∃ answer ∈ made.handler.fields, ∃ record,
      p.Answers owner root isSubscription field (answer, record) ∧
        ∀ r ∈ record, r ∈ made.records := by
  obtain ⟨answered, hanswered, hfields, hrecords⟩ := h.answers
  obtain ⟨⟨answer, record⟩, hmem, hanswer⟩ := exists_right_of_forall₂ hanswered hf
  rw [hfields]
  refine ⟨answer, List.mem_map_of_mem hmem, record, hanswer, fun r hr => ?_⟩
  rw [hrecords]
  exact List.mem_filterMap.mpr ⟨_, hmem, hr⟩

/-- A record that comes with a contract lists the arguments of one of the fields. -/
theorem exists_of_mem_records
    (h : p.HandlerFor owner parameter extensions root isSubscription fields made)
    {r : Record} (hr : r ∈ made.records) :
    ∃ field ∈ fields, List.Forall₂ p.InputField field.arguments r.fields := by
  obtain ⟨answered, hanswered, -, hrecords⟩ := h.answers
  rw [hrecords] at hr
  obtain ⟨⟨answer, _⟩, hmem, rfl⟩ := List.mem_filterMap.mp hr
  obtain ⟨field, hfield, hanswer⟩ := exists_left_of_forall₂ hanswered hmem
  exact ⟨field, hfield, hanswer.takes.inputFields⟩

end HandlerFor

/-- A contract, and the interface it is the generic contract of. -/
def InterfaceHandler (p : Project) (i : String × List Field) (made : HandlerWithArgs) : Prop :=
  p.HandlerFor i.1 (some "T") [] (.parameter "T") false i.2 made

/-- A contract, and the object it is the contract of. -/
def ObjectHandler (p : Project) (o : String × ObjectType) (made : HandlerWithArgs) : Prop :=
  p.HandlerFor o.1 none
    ((p.extendedInterfaces o.2).map fun i => ⟨resolversName i.1, p.mapComposite o.1⟩)
    (p.mapComposite o.1) (p.catalogue.roots.isSubscription o.1) (p.ownFields o.2) made

/-! ## Enums and unions -/

/-- An enum is exported again under its own name if it was replaced, and declared otherwise. -/
theorem enumDeclaration_cases {name : String} {values : List String} {d : Declaration}
    (h : p.enumDeclaration name values = .ok d) :
    (∃ s, p.overrides.enumValues.get? name = some s ∧ d = .reexport name (s.toExternal name)) ∨
      ∃ members, p.overrides.enumValues.get? name = none ∧ d = .enum name members := by
  rw [enumDeclaration] at h
  cases hget : p.overrides.enumValues.get? name with
  | some s =>
    rw [hget] at h
    exact .inl ⟨s, rfl, (Except.ok.inj h).symm⟩
  | none =>
    rw [hget] at h
    obtain ⟨members, -, rfl⟩ := map_eq_ok_iff.mp h
    exact .inr ⟨members, rfl, rfl⟩

/-- A union, and the name for what its members stand for. -/
structure UnionAlias (p : Project) (u : String × List String) (entry : Alias) : Prop where
  name : entry.name = u.1
  members : List.Forall₂ (fun member type => p.mapNamed member = .ok type) u.2 entry.members

theorem unionAlias_of_eq_ok {u : String × List String} {entry : Alias}
    (h : p.unionAlias u.1 u.2 = .ok entry) : p.UnionAlias u entry := by
  obtain ⟨members, hmembers, h⟩ := bind_eq_ok_iff.mp h
  obtain rfl := Except.ok.inj h
  exact ⟨rfl, (mapM_eq_ok_iff.mp hmembers).imp fun _ _ => mapError_eq_ok_iff.mp⟩

end Project

/-! ## All parts -/

open Project

/-- What the module is put together from, apart from what cannot fail. -/
structure DeclarationSet.Parts where
  interfaceHandlers : List HandlerWithArgs
  objectHandlers : List HandlerWithArgs
  objectData : List Record
  interfaceData : List Record
  inputs : List Record
  enums : List Declaration
  unions : List Alias

namespace DeclarationSet.Parts

/-- The contracts of all types. -/
def handlers (s : Parts) : List HandlerWithArgs := s.interfaceHandlers ++ s.objectHandlers

/-- The parts in a row, with those that cannot fail. -/
def declarations (s : Parts) (p : Project) : List Declaration :=
  [.root p.rootContract] ++
    s.handlers.map (fun h => .handler h.handler) ++
    [.helpers] ++
    (s.handlers.flatMap (·.records)).map .args ++
    (s.objectData ++ s.interfaceData).map .dto ++
    s.inputs.map .input ++
    s.enums ++
    [.table p.discriminationTable] ++
    p.implementedInterfaces.map (fun name => .implementors (p.implementorsAlias name)) ++
    s.unions.map .union

/-- The parts are those of a set of declarations, and each of them is made of its types, one item for
each and in their order. -/
structure MadeFrom (s : Parts) (p : Project) (set : DeclarationSet) : Prop where
  declarations : set.declarations = s.declarations p
  interfaceHandlers : List.Forall₂ p.InterfaceHandler p.unmappedInterfaces s.interfaceHandlers
  objectHandlers :
    List.Forall₂ p.ObjectHandler (p.requiredObjects ++ p.optionalObjects) s.objectHandlers
  objectData : List.Forall₂
    (fun o r => r.name = o.1 ∧ List.Forall₂ p.DataField o.2.fields r.fields)
    p.optionalObjects s.objectData
  interfaceData : List.Forall₂ (fun i r => r.name = i.1 ∧ List.Forall₂ p.DataField i.2 r.fields)
    p.unmappedInterfaces s.interfaceData
  inputs : List.Forall₂ (fun i r => r.name = i.1 ∧ List.Forall₂ p.InputField i.2 r.fields)
    p.catalogue.inputObjects s.inputs
  enums : List.Forall₂ (fun e d => p.enumDeclaration e.1 e.2 = .ok d) p.catalogue.enums s.enums
  unions : List.Forall₂ p.UnionAlias p.catalogue.unions s.unions

/-- What is among the parts of a module. -/
inductive Declares (s : Parts) (p : Project) : Declaration → Prop
  | root : Declares s p (.root p.rootContract)
  | handler {made : HandlerWithArgs} (h : made ∈ s.handlers) : Declares s p (.handler made.handler)
  | helpers : Declares s p .helpers
  | args {made : HandlerWithArgs} {r : Record} (h : made ∈ s.handlers) (hr : r ∈ made.records) :
    Declares s p (.args r)
  | objectData {r : Record} (h : r ∈ s.objectData) : Declares s p (.dto r)
  | interfaceData {r : Record} (h : r ∈ s.interfaceData) : Declares s p (.dto r)
  | input {r : Record} (h : r ∈ s.inputs) : Declares s p (.input r)
  | enum {name : String} {members : List EnumMember} (h : .enum name members ∈ s.enums) :
    Declares s p (.enum name members)
  | reexport {name : String} {target : External} (h : .reexport name target ∈ s.enums) :
    Declares s p (.reexport name target)
  | table : Declares s p (.table p.discriminationTable)
  | implementors {name : String} (h : name ∈ p.implementedInterfaces) :
    Declares s p (.implementors (p.implementorsAlias name))
  | union {entry : Alias} (h : entry ∈ s.unions) : Declares s p (.union entry)

namespace MadeFrom

variable {s : Parts} {p : Project} {set : DeclarationSet}

/-- What is declared, part by part. Every question about the declarations of a set comes down to one
about one of its parts. -/
theorem mem_iff (hs : s.MadeFrom p set) {d : Declaration} :
    d ∈ set.declarations ↔ s.Declares p d := by
  rw [hs.declarations]
  simp only [Parts.declarations, List.mem_append, List.mem_singleton, List.mem_map,
    List.mem_flatMap]
  constructor
  -- One alternative for each part of the set, in the order of the declarations.
  · rintro (((((((((rfl | ⟨_, h, rfl⟩) | rfl) | ⟨_, ⟨_, h, hr⟩, rfl⟩) | ⟨_, h | h, rfl⟩) |
      ⟨_, h, rfl⟩) | h) | rfl) | ⟨_, h, rfl⟩) | ⟨_, h, rfl⟩)
    · exact .root
    · exact .handler h
    · exact .helpers
    · exact .args h hr
    · exact .objectData h
    · exact .interfaceData h
    · exact .input h
    · -- This part holds declarations of two kinds.
      obtain ⟨e, -, henum⟩ := exists_left_of_forall₂ hs.enums h
      rcases enumDeclaration_cases henum with ⟨_, -, rfl⟩ | ⟨_, -, rfl⟩
      · exact .reexport h
      · exact .enum h
    · exact .table
    · exact .implementors h
    · exact .union h
  · intro h
    cases h with
    | root => simp
    | handler h => simpa using .inl ⟨_, h, rfl⟩
    | helpers => simp
    | args h hr => simpa using .inl ⟨_, h, hr⟩
    | objectData h => simp [h]
    | interfaceData h => simp [h]
    | input h => simp [h]
    | enum h => simp [h]
    | reexport h => simp [h]
    | table => simp
    | implementors h => exact .inl (.inr ⟨_, h, rfl⟩)
    | union h => simp [h]

/-- A contract is that of an interface or of an object. -/
theorem handler_cases (hs : s.MadeFrom p set) {made : HandlerWithArgs} (h : made ∈ s.handlers) :
    (∃ i ∈ p.unmappedInterfaces, p.InterfaceHandler i made) ∨
      ∃ o ∈ p.declaredObjects, p.ObjectHandler o made := by
  rcases List.mem_append.mp h with h | h
  · exact .inl (exists_left_of_forall₂ hs.interfaceHandlers h)
  · obtain ⟨o, ho, hobject⟩ := exists_left_of_forall₂ hs.objectHandlers h
    exact .inr ⟨o, mem_requiredObjects_append_iff.mp ho, hobject⟩

theorem exists_interfaceHandler (hs : s.MadeFrom p set) {i : String × List Field}
    (hi : i ∈ p.unmappedInterfaces) : ∃ made ∈ s.handlers, p.InterfaceHandler i made := by
  obtain ⟨made, hmade, hhandler⟩ := exists_right_of_forall₂ hs.interfaceHandlers hi
  exact ⟨made, List.mem_append_left _ hmade, hhandler⟩

theorem exists_objectHandler (hs : s.MadeFrom p set) {o : String × ObjectType}
    (ho : o ∈ p.declaredObjects) : ∃ made ∈ s.handlers, p.ObjectHandler o made := by
  obtain ⟨made, hmade, hhandler⟩ :=
    exists_right_of_forall₂ hs.objectHandlers (mem_requiredObjects_append_iff.mpr ho)
  exact ⟨made, List.mem_append_right _ hmade, hhandler⟩

end MadeFrom

end DeclarationSet.Parts

/-- **Parts of a module.** Where there are declarations, they are the parts in a row. -/
theorem Project.declarations_eq_ok {p : Project} {set : DeclarationSet}
    (h : p.declarations = .ok set) :
    ∃ s : DeclarationSet.Parts, s.MadeFrom p set := by
  -- The computation has a step for each part.
  obtain ⟨interfaceHandlers, hinterfaces, h⟩ := bind_eq_ok_iff.mp h
  obtain ⟨objectHandlers, hobjects, h⟩ := bind_eq_ok_iff.mp h
  obtain ⟨objectData, hobjectData, h⟩ := bind_eq_ok_iff.mp h
  obtain ⟨interfaceData, hinterfaceData, h⟩ := bind_eq_ok_iff.mp h
  obtain ⟨inputs, hinputs, h⟩ := bind_eq_ok_iff.mp h
  obtain ⟨enums, henums, h⟩ := bind_eq_ok_iff.mp h
  obtain ⟨unions, hunions, h⟩ := bind_eq_ok_iff.mp h
  obtain rfl := Except.ok.inj h
  refine ⟨⟨interfaceHandlers, objectHandlers, objectData, interfaceData, inputs, enums, unions⟩,
    ⟨rfl, ?_, ?_, ?_, ?_, ?_, ?_, ?_⟩⟩
  · exact (mapM_eq_ok_iff.mp hinterfaces).imp fun _ _ => handlerFor_of_handlerOf
  · exact (mapM_eq_ok_iff.mp hobjects).imp fun _ _ => handlerFor_of_handlerOf
  · exact (mapM_eq_ok_iff.mp hobjectData).imp fun _ _ => dataFields_of_dataRecord
  · exact (mapM_eq_ok_iff.mp hinterfaceData).imp fun _ _ => dataFields_of_dataRecord
  · refine (mapM_eq_ok_iff.mp hinputs).imp fun i r hr => ?_
    obtain ⟨fields, hfields, hr⟩ := bind_eq_ok_iff.mp hr
    obtain rfl := Except.ok.inj hr
    exact ⟨rfl, inputFields_of_inputRecordFields hfields⟩
  · exact mapM_eq_ok_iff.mp henums
  · exact (mapM_eq_ok_iff.mp hunions).imp fun _ _ => unionAlias_of_eq_ok

/-- The context is what the user says, and `Context` is the name of a default export. -/
theorem Project.context_eq_of_declarations {p : Project} {set : DeclarationSet}
    (h : p.declarations = .ok set) :
    set.context = p.overrides.contextType.toExternal "Context" := by
  -- All that comes before the context is decided may fail, and has no say in it.
  obtain ⟨_, -, h⟩ := bind_eq_ok_iff.mp h
  obtain ⟨_, -, h⟩ := bind_eq_ok_iff.mp h
  obtain ⟨_, -, h⟩ := bind_eq_ok_iff.mp h
  obtain ⟨_, -, h⟩ := bind_eq_ok_iff.mp h
  obtain ⟨_, -, h⟩ := bind_eq_ok_iff.mp h
  obtain ⟨_, -, h⟩ := bind_eq_ok_iff.mp h
  obtain ⟨_, -, h⟩ := bind_eq_ok_iff.mp h
  rw [← Except.ok.inj h]

end ResolverContracts
