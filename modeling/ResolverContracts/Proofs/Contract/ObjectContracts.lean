import ResolverContracts.Proofs.Contract.Inheritance
/-!
# What the contract of an object holds

The contract of an object takes over contracts of interfaces and declares fields of its own. Which are
which is decided twice in the code, by one loop over the interfaces that the object names and by one
over its fields, and the two have to agree about every interface: one that has no contract must not
take a field away from the object, and one that has must take all of its fields.

Here both are read off the schema. An interface is taken over when it is in the catalogue as an
interface and the user gives no type for it (`Project.takenOver`); a field is left out when one of
these interfaces has a field of its name (`Project.Inherits`). Nothing is asked of the catalogue, not
even that a name stands for one type. That is only needed to call the contract *the* one of its name.
-/

set_option autoImplicit false

namespace ResolverContracts

namespace Project

variable {p : Project} {o : ObjectType} {name : String}

/-! ## What is taken over -/

/-- Whether there is a contract for the interface of a name. -/
def hasContract (p : Project) (name : String) : Bool :=
  p.catalogue.kindOf? name == some .interface && !p.isMapped name

/-- The interfaces that an object names and that have contracts, in the order of the object. -/
def takenOver (p : Project) (o : ObjectType) : List String := o.implements.filter p.hasContract

/-- An interface whose contract the object takes over has a field of this name. -/
def Inherits (p : Project) (o : ObjectType) (field : String) : Prop :=
  ∃ i ∈ p.takenOver o, ∃ fields, p.catalogue.get? i = some ⟨i, .interface fields⟩ ∧
    ∃ g ∈ fields, g.name = field

theorem hasContract_iff :
    p.hasContract name = true ↔
      p.catalogue.kindOf? name = some .interface ∧ p.isMapped name = false := by
  rw [hasContract, Bool.and_eq_true, beq_iff_eq, Bool.not_eq_true']

/-- What the loop over the interfaces finds for a name: the type behind it, if there is a contract. -/
theorem mem_extendedInterfaces_iff_takenOver {i : String × List Field} :
    i ∈ p.extendedInterfaces o ↔
      i.1 ∈ p.takenOver o ∧ p.catalogue.get? i.1 = some ⟨i.1, .interface i.2⟩ := by
  rw [mem_extendedInterfaces_iff, takenOver, List.mem_filter, hasContract_iff]
  constructor
  · rintro ⟨himplements, hunmapped, hget⟩
    have hkind : p.catalogue.kindOf? i.1 = some .interface := by
      rw [Catalogue.kindOf?, hget]
      rfl
    exact ⟨⟨himplements, hkind, hunmapped⟩, hget⟩
  · rintro ⟨⟨himplements, -, hunmapped⟩, hget⟩
    exact ⟨himplements, hunmapped, hget⟩

/-- The loop keeps the order of the object and passes over nothing that has a contract. -/
theorem map_fst_extendedInterfaces (p : Project) (o : ObjectType) :
    (p.extendedInterfaces o).map (·.1) = p.takenOver o := by
  rw [extendedInterfaces, takenOver, List.map_filterMap, ← List.filterMap_eq_filter]
  -- For each name by itself: it is kept when it is that of an interface without a type of the user.
  refine List.filterMap_congr fun name _ => ?_
  by_cases hmapped : p.isMapped name = true
  · simp [hmapped, hasContract, Option.guard]
  · cases hget : p.catalogue.get? name with
    | none => simp [hmapped, hget, hasContract, Catalogue.kindOf?, Option.guard]
    | some t =>
      obtain ⟨n, shape⟩ := t
      cases shape with
      | _ => simp [hmapped, hget, hasContract, Catalogue.kindOf?, TypeShape.kind, Option.guard]

theorem inherits_iff {field : String} :
    p.Inherits o field ↔ field ∈ (p.extendedInterfaces o).flatMap fun i => i.2.map (·.name) := by
  rw [List.mem_flatMap]
  constructor
  · rintro ⟨i, hi, fields, hget, g, hg, rfl⟩
    exact ⟨(i, fields), mem_extendedInterfaces_iff_takenOver.mpr ⟨hi, hget⟩,
      List.mem_map_of_mem hg⟩
  · rintro ⟨⟨i, fields⟩, hi, hfield⟩
    obtain ⟨htaken, hget⟩ := mem_extendedInterfaces_iff_takenOver.mp hi
    obtain ⟨g, hg, rfl⟩ := List.mem_map.mp hfield
    exact ⟨i, htaken, fields, hget, g, hg, rfl⟩

instance (p : Project) (o : ObjectType) (field : String) : Decidable (p.Inherits o field) :=
  decidable_of_iff _ inherits_iff.symm

/-- The loop over the fields leaves out what is taken over. -/
theorem ownFields_eq (p : Project) (o : ObjectType) :
    p.ownFields o = o.fields.filter fun f => ¬ p.Inherits o f.name := by
  rw [ownFields]
  refine List.filter_congr fun f _ => ?_
  rw [Bool.eq_iff_iff]
  simp [inherits_iff]

end Project

namespace DeclarationSet

open Project

variable {set : DeclarationSet} {p : Project} {s : Parts}

/-! ## Contracts by name -/

/-- The names of the contracts, in order: those of interfaces first. -/
theorem Parts.MadeFrom.map_handlerNames (hs : s.MadeFrom p set) :
    s.handlers.map (·.handler.name) =
      (p.unmappedInterfaces.map (·.1) ++
        (p.requiredObjects ++ p.optionalObjects).map (·.1)).map resolversName := by
  have hinterfaces : s.interfaceHandlers.map (·.handler.name) =
      p.unmappedInterfaces.map fun i => resolversName i.1 :=
    map_eq_map_of_forall₂ hs.interfaceHandlers fun _ _ h => h.name
  have hobjects : s.objectHandlers.map (·.handler.name) =
      (p.requiredObjects ++ p.optionalObjects).map fun o => resolversName o.1 :=
    map_eq_map_of_forall₂ hs.objectHandlers fun _ _ h => h.name
  rw [Parts.handlers, List.map_append, hinterfaces, hobjects]
  simp only [List.map_append, List.map_map, Function.comp_def]

/-- Where a name stands for one type, it stands for one contract. -/
theorem Parts.MadeFrom.nodup_handlerNames (hs : s.MadeFrom p set)
    (hdistinct : p.catalogue.names.Nodup) : (s.handlers.map (·.handler.name)).Nodup := by
  rw [hs.map_handlerNames]
  refine List.Nodup.map (fun _ _ => eq_of_resolversName_eq) ?_
  have hinterfaces : (p.unmappedInterfaces.map (·.1)).Sublist (p.catalogue.interfaces.map (·.1)) :=
    List.filter_sublist.map _
  -- The two groups of objects are those that are declared, in another order.
  have hobjects : ((p.requiredObjects ++ p.optionalObjects).map (·.1)).Perm
      (p.declaredObjects.map (·.1)) := (List.filter_append_perm _ _).map _
  have hdeclared : (p.declaredObjects.map (·.1)).Sublist (p.catalogue.objects.map (·.1)) :=
    List.filter_sublist.map _
  refine List.nodup_append'.mpr ⟨?_, ?_, ?_⟩
  · exact hdistinct.sublist (hinterfaces.trans p.catalogue.names_interfaces_sublist)
  · rw [hobjects.nodup_iff]
    exact hdistinct.sublist (hdeclared.trans p.catalogue.names_objects_sublist)
  · intro name hi ho
    exact Catalogue.disjoint_names_interfaces_objects hdistinct (hinterfaces.subset hi)
      (hdeclared.subset (hobjects.subset ho))

/-- A contract is found by its name. -/
theorem Parts.MadeFrom.handler_unique (hs : s.MadeFrom p set) (hdistinct : p.catalogue.names.Nodup)
    {g h : Handler} (hg : .handler g ∈ set.declarations) (hh : .handler h ∈ set.declarations)
    (hname : g.name = h.name) : g = h := by
  cases hs.mem_iff.mp hg with
  | handler hmade =>
    cases hs.mem_iff.mp hh with
    | handler hmade' =>
      exact congrArg HandlerWithArgs.handler
        (eq_of_key_eq (hs.nodup_handlerNames hdistinct) hmade hmade' hname)

/-! ## What is taken over and what is declared -/

/-- What the contract of an object holds. -/
structure IsObjectContract (set : DeclarationSet) (p : Project) (o : String × ObjectType)
    (h : Handler) : Prop where
  parameter : h.parameter = none
  /-- It takes over the contracts there are for the interfaces the object names, for its type. -/
  extensions : h.extensions =
    (p.takenOver o.2).map fun i => ⟨resolversName i, p.mapComposite o.1⟩
  /-- Its own fields are those that none of these interfaces has, in the order of the object. -/
  fields : List.Forall₂
    (fun f a => set.IsSignature p (p.mapComposite o.1) f a ∧
      a.isSubscription = p.catalogue.roots.isSubscription o.1)
    (o.2.fields.filter fun f => ¬ p.Inherits o.2 f.name) h.fields
  /-- What it takes over is declared, and none of it a second time. -/
  disjoint : ∀ e ∈ h.extensions, ∃ g, .handler g ∈ set.declarations ∧ g.name = e.contract ∧
    g.parameter.isSome = true ∧ ∀ a ∈ h.fields, ∀ b ∈ g.fields, a.name ≠ b.name
  /-- No field is lost. -/
  complete : ∀ f ∈ o.2.fields, ∃ a, set.Gives h a ∧ a.name = f.name
  /-- An interface that the user gives a type for takes no field away. -/
  kept : ∀ i ∈ o.2.implements, p.isMapped i = true → ∀ fields,
    p.catalogue.get? i = some ⟨i, .interface fields⟩ →
    ∀ f ∈ o.2.fields, (∃ g ∈ fields, g.name = f.name) →
      (∃ a ∈ h.fields, a.name = f.name) ∨ p.Inherits o.2 f.name

/-- Both loops together. -/
theorem Parts.MadeFrom.isObjectContract (hs : s.MadeFrom p set) {made : HandlerWithArgs}
    (hmade : made ∈ s.handlers) {o : String × ObjectType} (hobject : p.ObjectHandler o made) :
    set.IsObjectContract p o made.handler := by
  have hfields := hs.forall₂_isSignature hmade hobject
  rw [ownFields_eq] at hfields
  -- Of a field that is not taken over there is a signature.
  have hown {f : Field} (hf : f ∈ o.2.fields) (hnot : ¬ p.Inherits o.2 f.name) :
      ∃ a ∈ made.handler.fields, a.name = f.name := by
    obtain ⟨a, ha, hsignature, -⟩ := exists_right_of_forall₂ hfields
      (List.mem_filter.mpr ⟨hf, decide_eq_true hnot⟩)
    exact ⟨a, ha, hsignature.name⟩
  have hextensions : made.handler.extensions =
      (p.takenOver o.2).map fun i => ⟨resolversName i, p.mapComposite o.1⟩ := by
    rw [hobject.extensions, ← map_fst_extendedInterfaces, List.map_map]
    rfl
  refine ⟨hobject.parameter, hextensions, hfields, fun e he => ?_,
    fun f hf => hs.exists_gives_of_field hmade hobject hf, fun i _ _ fields _ f hf _ => ?_⟩
  · rw [hobject.extensions] at he
    obtain ⟨i, hi, rfl⟩ := List.mem_map.mp he
    obtain ⟨g, hg, hinterface⟩ := hs.exists_interfaceHandler (of_mem_extendedInterfaces hi).2
    refine ⟨g.handler, hs.mem_iff.mpr (.handler hg), hinterface.name, ?_, fun a ha b hb hname => ?_⟩
    · rw [hinterface.parameter]
      rfl
    · -- A field of both would be one that is left out and one that is kept.
      obtain ⟨f, hf, hsignature, -⟩ := exists_left_of_forall₂ hfields ha
      obtain ⟨f', hf', _, hanswer, -⟩ := hinterface.exists_field hb
      have hnot : ¬ p.Inherits o.2 f.name := of_decide_eq_true (List.mem_filter.mp hf).2
      refine hnot (inherits_iff.mpr (List.mem_flatMap.mpr ⟨i, hi, List.mem_map.mpr ⟨f', hf', ?_⟩⟩))
      exact hanswer.name.symm.trans (hname.symm.trans hsignature.name)
  · by_cases hinherits : p.Inherits o.2 f.name
    · exact .inr hinherits
    · exact .inl (hown hf hinherits)

end DeclarationSet

/-- **Contracts of objects.** In a module that has declarations, every object but those with names kept
for introspection has a contract, and the contract takes over and declares what it should. Where a
name stands for one type, there is only one contract of the name. -/
theorem Project.objectContract_of_declarations {p : Project} {set : DeclarationSet}
    (hset : p.declarations = .ok set) {o : String × ObjectType} (ho : o ∈ p.catalogue.objects)
    (hname : isReservedName o.1 = false) :
    ∃ h, .handler h ∈ set.declarations ∧ h.name = resolversName o.1 ∧ set.IsObjectContract p o h ∧
      (p.catalogue.names.Nodup → ∀ g g', .handler g ∈ set.declarations →
        .handler g' ∈ set.declarations → g.name = g'.name → g = g') := by
  obtain ⟨s, hs⟩ := Project.declarations_eq_ok hset
  have hdeclared : o ∈ p.declaredObjects := List.mem_filter.mpr ⟨ho, by simpa using hname⟩
  obtain ⟨made, hmade, hobject⟩ := hs.exists_objectHandler hdeclared
  exact ⟨made.handler, hs.mem_iff.mpr (.handler hmade), hobject.name,
    hs.isObjectContract hmade hobject, fun hdistinct _ _ => hs.handler_unique hdistinct⟩

/-- The fields of a user. -/
def personFields : List Field :=
  [⟨"name", .named "String", []⟩, ⟨"id", .named "ID", []⟩, ⟨"age", .named "Int", []⟩]

/-- Users have two interfaces that share a field, and the user gives a type for one of them. -/
def peopleProject : Project where
  catalogue :=
    { types := builtinScalars.map (⟨·, .scalar⟩) ++
        [⟨"Node", .interface [⟨"id", .named "ID", []⟩]⟩,
          ⟨"Named", .interface [⟨"id", .named "ID", []⟩, ⟨"name", .named "String", []⟩]⟩,
          ⟨"User", .object ⟨personFields, ["Named", "Node"]⟩⟩]
      roots := .none }
  overrides := { Overrides.default with mappers := ⟨[("Named", .named "./rows" "NamedRow")]⟩ }

/-- The shared field goes to the one interface that has a contract, the other field stays. -/
theorem Project.objectContract_of_declarations_peopleProject :
    ∃ set h, peopleProject.declarations = .ok set ∧ .handler h ∈ set.declarations ∧
      h.name = "UserResolvers" ∧ h.extensions.map (·.contract) = ["NodeResolvers"] ∧
      h.fields.map (·.name) = ["name", "age"] ∧
      ∀ g, .handler g ∈ set.declarations → g.name = "UserResolvers" → g = h := by
  have heval : peopleProject.declarations.toOption.isSome = true := by decide +kernel
  obtain ⟨set, hset⟩ := Option.isSome_iff_exists.mp heval
  have hdeclarations := toOption_eq_some_iff.mp hset
  have huser : ("User", ⟨personFields, ["Named", "Node"]⟩) ∈ peopleProject.catalogue.objects := by
    decide
  have hdistinct : peopleProject.catalogue.names.Nodup := by decide
  obtain ⟨h, hh, hname, hcontract, hunique⟩ :=
    objectContract_of_declarations hdeclarations huser (by decide)
  have hnames := map_eq_map_of_forall₂ (f := Field.name) (g := HandlerField.name) hcontract.fields
    fun _ _ hsignature => hsignature.1.name
  refine ⟨set, h, hdeclarations, hh, hname, ?_, ?_, fun g hg hgname => ?_⟩
  · rw [hcontract.extensions]
    decide
  · rw [hnames]
    decide
  · exact hunique hdistinct g h hg hh (hgname.trans hname.symm)

end ResolverContracts
