import ResolverContracts.Contract.Generate
import ResolverContracts.Proofs.Contract.Parts
import ResolverContracts.Proofs.Schema.Loaded
/-!
# Overrides that agree

What is generated depends on the overrides in few places. A scalar is looked up when it is not built
in, an object, an interface or a union when it stands for data, an enum when it is declared or referred
to; and every lookup is made for a name of the catalogue, by its kind. So overrides that agree on those
names give the same module, whatever else they say and in whatever order (`Overrides.AgreeOn`). In
particular the order of the entries does not matter (`Project.generate_of_reorders`), and neither do the
entries that are warned of (`Project.generate_heededOverrides`).

The proof goes through the functions from the bottom, each of them with both overrides. Where a name
is looked up before its kind is known, as with the interfaces that an object names, what is
found is thrown away for other kinds.
-/

set_option autoImplicit false

namespace ResolverContracts

/-- Two overrides that say the same of all that a catalogue has. -/
structure Overrides.AgreeOn (c : Catalogue) (o o' : Overrides) : Prop where
  contextType : o.contextType = o'.contextType
  scalars : ∀ name ∈ c.customScalars, o.scalars.get? name = o'.scalars.get? name
  objects : ∀ t ∈ c.objects, o.mappers.get? t.1 = o'.mappers.get? t.1
  interfaces : ∀ t ∈ c.interfaces, o.mappers.get? t.1 = o'.mappers.get? t.1
  unions : ∀ t ∈ c.unions, o.mappers.get? t.1 = o'.mappers.get? t.1
  enums : ∀ t ∈ c.enums, o.enumValues.get? t.1 = o'.enumValues.get? t.1

/-- Loops that do the same for each item do the same. -/
theorem mapM_congr {ε α β : Type} {f g : α → Except ε β} {xs : List α}
    (h : ∀ x ∈ xs, f x = g x) : xs.mapM f = xs.mapM g := by
  induction xs with
  | nil => rfl
  | cons x xs ih =>
    have htail := ih fun y hy => h y (List.mem_cons_of_mem x hy)
    rw [List.mapM_cons, List.mapM_cons, h x List.mem_cons_self, htail]

namespace Project

variable {c : Catalogue} {o o' : Overrides} {name : String}

/-! ## Names -/

theorem isMapped_congr (h : o.mappers.get? name = o'.mappers.get? name) :
    isMapped ⟨c, o⟩ name = isMapped ⟨c, o'⟩ name := by
  rw [isMapped, isMapped, SymbolMap.contains_eq_isSome, SymbolMap.contains_eq_isSome, h]

theorem mapComposite_congr (h : o.mappers.get? name = o'.mappers.get? name) :
    mapComposite ⟨c, o⟩ name = mapComposite ⟨c, o'⟩ name := by
  rw [mapComposite, mapComposite, h]

variable (h : o.AgreeOn c o')
include h

/-- Built-in scalars are not looked up. -/
theorem mapScalar_congr (hkind : c.kindOf? name = some .scalar) :
    mapScalar ⟨c, o⟩ name = mapScalar ⟨c, o'⟩ name := by
  cases hbuiltin : isBuiltinScalar name with
  | false =>
    rw [mapScalar, mapScalar, h.scalars name (Catalogue.mem_customScalars_of_kindOf? hkind hbuiltin)]
  | true =>
    have hname : name ∈ builtinScalars := List.contains_iff_mem.mp hbuiltin
    simp only [builtinScalars, List.mem_cons, List.not_mem_nil, or_false] at hname
    rcases hname with rfl | rfl | rfl | rfl | rfl
    all_goals rfl

theorem mapEnum_congr (hkind : c.kindOf? name = some .enum) :
    mapEnum ⟨c, o⟩ name = mapEnum ⟨c, o'⟩ name := by
  obtain ⟨values, henum⟩ := Catalogue.exists_of_kindOf?_enum hkind
  rw [mapEnum, mapEnum, h.enums _ henum]

/-- Implementors are objects. -/
theorem mappers_congr_of_implementor {interface : String} (ho : name ∈ c.implementors interface) :
    o.mappers.get? name = o'.mappers.get? name := by
  obtain ⟨object, hobject, rfl⟩ := List.mem_map.mp ho
  exact h.objects _ (List.mem_filter.mp hobject).1

/-- The same implementors are mapped, and to the same types. -/
theorem mapInterface_congr (hkind : c.kindOf? name = some .interface) :
    mapInterface ⟨c, o⟩ name = mapInterface ⟨c, o'⟩ name := by
  obtain ⟨fields, hinterface⟩ := Catalogue.exists_of_kindOf?_interface hkind
  have hown := h.interfaces _ hinterface
  have hfilter : (c.implementors name).filter (isMapped ⟨c, o⟩) =
      (c.implementors name).filter (isMapped ⟨c, o'⟩) :=
    List.filter_congr fun i hi => isMapped_congr (mappers_congr_of_implementor h hi)
  have hmap : ((c.implementors name).filter (isMapped ⟨c, o'⟩)).map (mapComposite ⟨c, o⟩) =
      ((c.implementors name).filter (isMapped ⟨c, o'⟩)).map (mapComposite ⟨c, o'⟩) :=
    List.map_congr_left fun i hi =>
      mapComposite_congr (mappers_congr_of_implementor h (List.mem_filter.mp hi).1)
  simp only [mapInterface, isMapped_congr hown, mapComposite_congr hown, hfilter, hmap]

/-- Every name is looked up in the section for its kind. -/
theorem mapNamed_congr (name : String) : mapNamed ⟨c, o⟩ name = mapNamed ⟨c, o'⟩ name := by
  cases hkind : c.kindOf? name with
  | none => simp only [mapNamed, hkind]
  | some kind =>
    cases kind with
    | scalar => simp only [mapNamed, hkind, mapScalar_congr h hkind]
    | enum => simp only [mapNamed, hkind, mapEnum_congr h hkind]
    | interface => simp only [mapNamed, hkind, mapInterface_congr h hkind]
    | inputObject => simp only [mapNamed, hkind]
    | object =>
      obtain ⟨object, hobject⟩ := Catalogue.exists_of_kindOf?_object hkind
      simp only [mapNamed, hkind, mapComposite_congr (h.objects _ hobject)]
    | union =>
      obtain ⟨members, hunion⟩ := Catalogue.exists_of_kindOf?_union hkind
      simp only [mapNamed, hkind, mapComposite_congr (h.unions _ hunion)]

/-! ## References -/

/-- Lists and marks do not look at the overrides. -/
theorem mapLevel_congr (access : Access) (r : TypeRef) :
    mapLevel ⟨c, o⟩ access r = mapLevel ⟨c, o'⟩ access r := by
  induction r with
  | named name => rw [mapLevel, mapLevel, mapNamed_congr h]
  | list item ih =>
    rw [mapLevel, mapLevel, ih]
    rfl
  | nonNull item ih => rw [mapLevel, mapLevel, ih]

/-- The levels of a reference add nothing that the overrides have a say in. -/
theorem mapType_congr : mapType ⟨c, o⟩ = mapType ⟨c, o'⟩ := by
  funext access r
  rw [mapType, mapType, mapLevel_congr h]

/-- Members of an interface are the interface itself or its implementors, and agreement covers both. -/
theorem interfaceMembers_congr (hinterface : name ∈ c.interfaces.map (·.1)) :
    interfaceMembers ⟨c, o⟩ name = interfaceMembers ⟨c, o'⟩ name := by
  obtain ⟨i, hi, rfl⟩ := List.mem_map.mp hinterface
  have hown := h.interfaces i hi
  have hmap : (c.implementors i.1).map (mapComposite ⟨c, o⟩) =
      (c.implementors i.1).map (mapComposite ⟨c, o'⟩) :=
    List.map_congr_left fun n hn => mapComposite_congr (mappers_congr_of_implementor h hn)
  simp only [interfaceMembers, isMapped_congr hown, mapComposite_congr hown, hmap]

/-- Only the members of a union that are objects are looked up. -/
theorem unionMembers_congr (members : List String) :
    unionMembers ⟨c, o⟩ members = unionMembers ⟨c, o'⟩ members := by
  refine List.map_congr_left fun member _ => ?_
  by_cases hkind : c.kindOf? member = some .object
  · obtain ⟨object, hobject⟩ := Catalogue.exists_of_kindOf?_object hkind
    rw [mapComposite_congr (h.objects _ hobject)]
  · rw [if_neg hkind, if_neg hkind]

/-! ## Contracts and data -/

theorem typeAt_congr : typeAt ⟨c, o⟩ = typeAt ⟨c, o'⟩ := by
  funext owner place access type
  rw [typeAt, typeAt, mapType_congr h]

theorem inputRecordFields_congr : inputRecordFields ⟨c, o⟩ = inputRecordFields ⟨c, o'⟩ := by
  funext owner place values
  rw [inputRecordFields, inputRecordFields, typeAt_congr h]

theorem dataRecord_congr : dataRecord ⟨c, o⟩ = dataRecord ⟨c, o'⟩ := by
  funext owner fields
  rw [dataRecord, dataRecord, typeAt_congr h]

/-- From here up, each part is made of types, and of parts that agree already. -/
theorem handlerField_congr : handlerField ⟨c, o⟩ = handlerField ⟨c, o'⟩ := by
  funext owner root isSubscription field
  rw [handlerField, handlerField, argsRecord?, argsRecord?, inputRecordFields_congr h,
    typeAt_congr h]

theorem handlerOf_congr : handlerOf ⟨c, o⟩ = handlerOf ⟨c, o'⟩ := by
  funext owner parameter extensions root isSubscription fields
  rw [handlerOf, handlerOf, handlerField_congr h]

/-- An object can name what is no interface. It may be mapped, and is passed over anyway. -/
theorem extendedInterfaces_congr (object : ObjectType) :
    extendedInterfaces ⟨c, o⟩ object = extendedInterfaces ⟨c, o'⟩ object := by
  refine List.filterMap_congr fun name _ => ?_
  cases hget : c.get? name with
  | none =>
    rw [Option.bind_none]
    split <;> split <;> rfl
  | some type =>
    obtain ⟨name', shape⟩ := type
    obtain ⟨htype, rfl⟩ := Catalogue.mem_of_get?_eq_some hget
    cases shape with
    | interface fields =>
      rw [isMapped_congr (h.interfaces _ (Catalogue.mem_interfaces_iff.mpr htype))]
    | _ => split <;> split <;> rfl

theorem objectHandler_congr {object : String × ObjectType} (hobject : object ∈ c.objects) :
    objectHandler ⟨c, o⟩ object.1 object.2 = objectHandler ⟨c, o'⟩ object.1 object.2 := by
  simp only [objectHandler, ownFields, handlerOf_congr h, extendedInterfaces_congr h,
    mapComposite_congr (h.objects object hobject)]

/-! ## Sections -/

theorem isRequired_congr {object : String × ObjectType}
    (hobject : object ∈ declaredObjects ⟨c, o'⟩) :
    isRequired ⟨c, o⟩ object.1 = isRequired ⟨c, o'⟩ object.1 := by
  rw [isRequired, isRequired, isMapped_congr (h.objects object (List.mem_filter.mp hobject).1)]

theorem requiredObjects_congr : requiredObjects ⟨c, o⟩ = requiredObjects ⟨c, o'⟩ :=
  List.filter_congr fun _ hobject => isRequired_congr h hobject

theorem optionalObjects_congr : optionalObjects ⟨c, o⟩ = optionalObjects ⟨c, o'⟩ :=
  List.filter_congr fun _ hobject => by rw [isRequired_congr h hobject]

theorem unmappedInterfaces_congr : unmappedInterfaces ⟨c, o⟩ = unmappedInterfaces ⟨c, o'⟩ :=
  List.filter_congr fun i hi => by rw [isMapped_congr (h.interfaces i hi)]

theorem rootContract_congr : rootContract ⟨c, o⟩ = rootContract ⟨c, o'⟩ := by
  rw [rootContract, rootContract, requiredObjects_congr h, optionalObjects_congr h]

theorem enumDeclaration_congr {enum : String × List String} (henum : enum ∈ c.enums) :
    enumDeclaration ⟨c, o⟩ enum.1 enum.2 = enumDeclaration ⟨c, o'⟩ enum.1 enum.2 := by
  rw [enumDeclaration, enumDeclaration, h.enums enum henum]

/-- The table has unions and interfaces of the catalogue. -/
theorem discriminationTable_congr :
    discriminationTable ⟨c, o⟩ = discriminationTable ⟨c, o'⟩ := by
  have hinterfaces : (implementedInterfaces ⟨c, o⟩).map (fun name =>
        (⟨name, interfaceMembers ⟨c, o⟩ name⟩ : Alias)) =
      (implementedInterfaces ⟨c, o'⟩).map fun name => ⟨name, interfaceMembers ⟨c, o'⟩ name⟩ :=
    List.map_congr_left fun name hname => by
      rw [interfaceMembers_congr h (List.mem_filter.mp hname).1]
  simp only [discriminationTable, unionMembers_congr h, hinterfaces]

theorem implementorsAlias_congr (hinterface : name ∈ implementedInterfaces ⟨c, o'⟩) :
    implementorsAlias ⟨c, o⟩ name = implementorsAlias ⟨c, o'⟩ name := by
  rw [implementorsAlias, implementorsAlias,
    interfaceMembers_congr h (List.mem_filter.mp hinterface).1]

theorem unionAlias_congr : unionAlias ⟨c, o⟩ = unionAlias ⟨c, o'⟩ := by
  funext name members
  simp only [unionAlias, mapNamed_congr h]

/-- **Sections.** Every section is made of the same items in the same way. -/
theorem declarations_congr : declarations ⟨c, o⟩ = declarations ⟨c, o'⟩ := by
  have hobjects : (requiredObjects ⟨c, o'⟩ ++ optionalObjects ⟨c, o'⟩).mapM
        (fun t => objectHandler ⟨c, o⟩ t.1 t.2) =
      (requiredObjects ⟨c, o'⟩ ++ optionalObjects ⟨c, o'⟩).mapM
        fun t => objectHandler ⟨c, o'⟩ t.1 t.2 := by
    refine mapM_congr fun t ht => objectHandler_congr h ?_
    exact (List.mem_filter.mp (mem_requiredObjects_append_iff.mp ht)).1
  have henums : c.enums.mapM (fun e => enumDeclaration ⟨c, o⟩ e.1 e.2) =
      c.enums.mapM fun e => enumDeclaration ⟨c, o'⟩ e.1 e.2 :=
    mapM_congr fun e he => enumDeclaration_congr h he
  have himplementors : (implementedInterfaces ⟨c, o'⟩).map
        (fun name => Declaration.implementors (implementorsAlias ⟨c, o⟩ name)) =
      (implementedInterfaces ⟨c, o'⟩).map
        fun name => .implementors (implementorsAlias ⟨c, o'⟩ name) :=
    List.map_congr_left fun name hname => by rw [implementorsAlias_congr h hname]
  have hinterfaces : implementedInterfaces ⟨c, o⟩ = implementedInterfaces ⟨c, o'⟩ := rfl
  simp only [declarations, interfaceHandler, handlerOf_congr h, unmappedInterfaces_congr h,
    requiredObjects_congr h, optionalObjects_congr h, hobjects, dataRecord_congr h,
    inputRecordFields_congr h, henums, unionAlias_congr h, rootContract_congr h,
    discriminationTable_congr h, hinterfaces, himplementors, h.contextType]

end Project

/-! ## Order and entries without effect -/

namespace SymbolMap

variable {m m' : SymbolMap}

/-- The same entries in any order, each name once. -/
structure Reorders (m m' : SymbolMap) : Prop where
  perm : m.entries.Perm m'.entries
  distinct : m.names.Nodup

/-- As a name is there once, the order of the entries does not matter. -/
theorem Reorders.get?_eq (h : m.Reorders m') (name : String) : m.get? name = m'.get? name := by
  have hnames : m.names.Perm m'.names := h.perm.map Prod.fst
  have hdistinct' : m'.names.Nodup := hnames.nodup h.distinct
  rw [get?, get?, Entries.get?, Entries.get?]
  congr 1
  refine Option.ext fun e => ?_
  rw [find?_key_eq_some_iff h.distinct, find?_key_eq_some_iff hdistinct', h.perm.mem_iff]

/-- The entries of some names. -/
def restrict (m : SymbolMap) (keep : String → Bool) : SymbolMap :=
  ⟨m.entries.filter fun e => keep e.1⟩

/-- A name that is kept has the symbol it had. -/
theorem get?_restrict {keep : String → Bool} {name : String} (h : keep name = true) :
    (m.restrict keep).get? name = m.get? name := by
  rw [get?, get?, Entries.get?, Entries.get?, restrict, List.find?_filter]
  congr 2
  funext e
  by_cases he : e.1 = name
  · simp [he, h]
  · simp [he]

end SymbolMap

/-- Overrides with the entries of every section in another order say the same. -/
theorem Overrides.agreeOn_of_reorders {c : Catalogue} {o o' : Overrides}
    (hcontext : o.contextType = o'.contextType) (hscalars : o.scalars.Reorders o'.scalars)
    (hmappers : o.mappers.Reorders o'.mappers) (henums : o.enumValues.Reorders o'.enumValues) :
    o.AgreeOn c o' where
  contextType := hcontext
  scalars := fun name _ => hscalars.get?_eq name
  objects := fun t _ => hmappers.get?_eq t.1
  interfaces := fun t _ => hmappers.get?_eq t.1
  unions := fun t _ => hmappers.get?_eq t.1
  enums := fun t _ => henums.get?_eq t.1

namespace Project

variable {p : Project}

/-- Whether an override in a section has an effect for a name. -/
def heeds (p : Project) (part : Section) (name : String) : Bool :=
  (p.catalogue.kindOf? name).any part.concerns

/-- The overrides without the entries that are warned of. -/
def heededOverrides (p : Project) : Overrides where
  contextType := p.overrides.contextType
  scalars := p.overrides.scalars.restrict (p.heeds .scalars)
  mappers := p.overrides.mappers.restrict (p.heeds .mappers)
  enumValues := p.overrides.enumValues.restrict (p.heeds .enumValues)

/-- None of the entries that are left is warned of. -/
theorem uselessOverrides_restrict (part : Section) (entries : SymbolMap) :
    p.uselessOverrides part (entries.restrict (p.heeds part)) = [] := by
  rw [uselessOverrides, List.map_eq_nil_iff, List.filter_eq_nil_iff]
  intro name hname
  obtain ⟨e, he, rfl⟩ := List.mem_map.mp hname
  have hheeded := (List.mem_filter.mp he).2
  rw [heeds] at hheeded
  simp [hheeded]

/-- The kinds that are not warned of are those that are looked up. -/
theorem agreeOn_heededOverrides (hc : p.catalogue.WellNamed) :
    p.overrides.AgreeOn p.catalogue p.heededOverrides := by
  have hheeds {part : Section} {name : String} {shape : TypeShape}
      (ht : ⟨name, shape⟩ ∈ p.catalogue.types) (hpart : part.concerns shape.kind = true) :
      p.heeds part name = true := by
    rw [heeds, hc.kindOf?_of_mem ht]
    exact hpart
  refine ⟨rfl, fun name hname => ?_, fun t ht => ?_, fun t ht => ?_, fun t ht => ?_,
    fun t ht => ?_⟩
  · exact (SymbolMap.get?_restrict (hheeds (Catalogue.mem_customScalars_iff.mp hname).1 rfl)).symm
  · exact (SymbolMap.get?_restrict (hheeds (Catalogue.mem_objects_iff.mp ht) rfl)).symm
  · exact (SymbolMap.get?_restrict (hheeds (Catalogue.mem_interfaces_iff.mp ht) rfl)).symm
  · exact (SymbolMap.get?_restrict (hheeds (Catalogue.mem_unions_iff.mp ht) rfl)).symm
  · exact (SymbolMap.get?_restrict (hheeds (Catalogue.mem_enums_iff.mp ht) rfl)).symm

end Project

/-! ## Generation -/

/-- **Overrides without effect.** Overrides that say the same of what a catalogue has, with the same
context, give the same text or the same error. -/
theorem Project.generate_of_agreeOn {c : Catalogue} {o o' : Overrides} (h : o.AgreeOn c o') :
    (⟨c, o⟩ : Project).generate = (⟨c, o'⟩ : Project).generate := by
  rw [generate, generate, declarations_congr h]

/-- A catalogue with a type for each section. -/
def diaryCatalogue : Catalogue where
  types := builtinScalars.map (⟨·, .scalar⟩) ++
    [⟨"Date", .scalar⟩, ⟨"Mood", .enum ["GOOD"]⟩, ⟨"Day", .object ⟨[⟨"at", .named "Date", []⟩], []⟩⟩,
      ⟨"Query", .object ⟨[⟨"day", .named "Day", []⟩, ⟨"mood", .named "Mood", []⟩], []⟩⟩]
  roots := ⟨some "Query", none, none⟩

/-- All that can be said of its types. -/
def diaryOverrides : Overrides :=
  { Overrides.default with
    scalars := ⟨[("Date", .named "./time" "Date")]⟩
    mappers := ⟨[("Day", .named "./rows" "DayRow"), ("Query", .named "./rows" "QueryRow")]⟩
    enumValues := ⟨[("Mood", .named "./enums" "Mood")]⟩ }

/-- The same in another order, with names that are not there or in the section of another kind. -/
def noisyOverrides : Overrides :=
  { Overrides.default with
    scalars := ⟨[("Int", .named "./time" "Int"), ("Date", .named "./time" "Date")]⟩
    mappers := ⟨[("Query", .named "./rows" "QueryRow"), ("Mood", .named "./enums" "State"),
      ("Day", .named "./rows" "DayRow")]⟩
    enumValues := ⟨[("Week", .named "./enums" "Week"), ("Mood", .named "./enums" "Mood")]⟩ }

theorem Project.generate_of_agreeOn_noisyOverrides :
    diaryOverrides.AgreeOn diaryCatalogue noisyOverrides ∧
      (⟨diaryCatalogue, diaryOverrides⟩ : Project).generate =
        (⟨diaryCatalogue, noisyOverrides⟩ : Project).generate := by
  have hagree : diaryOverrides.AgreeOn diaryCatalogue noisyOverrides :=
    ⟨by decide, by decide, by decide, by decide, by decide, by decide⟩
  exact ⟨hagree, generate_of_agreeOn hagree⟩

/-- **Order of entries.** In which order overrides are given changes nothing. -/
theorem Project.generate_of_reorders {c : Catalogue} {o o' : Overrides}
    (hcontext : o.contextType = o'.contextType) (hscalars : o.scalars.Reorders o'.scalars)
    (hmappers : o.mappers.Reorders o'.mappers) (henums : o.enumValues.Reorders o'.enumValues) :
    (⟨c, o⟩ : Project).generate = (⟨c, o'⟩ : Project).generate := by
  have hagree : o.AgreeOn c o' :=
    Overrides.agreeOn_of_reorders hcontext hscalars hmappers henums
  rw [generate, generate, declarations_congr hagree]

/-- **Entries that are warned of.** A warning is right that an entry has no effect: without all those
entries the module is the same, or the error, and no entry is warned of. -/
theorem Project.generate_heededOverrides {p : Project} (hc : p.catalogue.WellNamed) :
    (⟨p.catalogue, p.heededOverrides⟩ : Project).generate = p.generate ∧
      ∀ part name, .uselessOverride part name ∉
        (⟨p.catalogue, p.heededOverrides⟩ : Project).preparationEvents := by
  constructor
  · rw [generate, generate, ← declarations_congr (agreeOn_heededOverrides hc)]
  · intro part name
    let q : Project := ⟨p.catalogue, p.heededOverrides⟩
    -- Which entries are warned of depends on the catalogue, and that is the same.
    have hscalars : q.uselessOverrides .scalars q.overrides.scalars = [] :=
      uselessOverrides_restrict .scalars p.overrides.scalars
    have hmappers : q.uselessOverrides .mappers q.overrides.mappers = [] :=
      uselessOverrides_restrict .mappers p.overrides.mappers
    have henums : q.uselessOverrides .enumValues q.overrides.enumValues = [] :=
      uselessOverrides_restrict .enumValues p.overrides.enumValues
    change .uselessOverride part name ∉ q.preparationEvents
    simp [preparationEvents, hscalars, hmappers, henums]

end ResolverContracts
