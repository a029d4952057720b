import ResolverContracts.Proofs.Contract.Levels
import ResolverContracts.Proofs.Contract.Outline
import ResolverContracts.Proofs.Contract.Replacement
/-!
# Values of interfaces

What a value of an interface can be is said in three places: in the name for the implementors, in the
table that tells them apart, and in the type of each field that is declared as the interface. The
first two list all implementors and are left out if there are none. The third lists the implementors
that the user gives a type for, since the data of the others are data of the interface.

The objects that implement an interface are those of the catalogue that name it, in the order of the
catalogue, and all three places follow that order (`Catalogue.interfaceValues_of_load`).
-/

set_option autoImplicit false

namespace ResolverContracts

namespace Project

variable {p : Project} {name : String}

/-! ## The type of an object -/

/-- The type of the values of an object: nothing for a root of queries or mutations, the type that the
user gives, or else the object's own data. -/
inductive ValueType (p : Project) (name : String) : TypeExpr → Prop
  | root (hroot : p.catalogue.roots.isQueryOrMutation name = true) : ValueType p name .emptyRecord
  | given {s : Symbol} (hroot : p.catalogue.roots.isQueryOrMutation name = false)
    (hsymbol : p.overrides.mappers.get? name = some s) : ValueType p name (.external s name)
  | own (hroot : p.catalogue.roots.isQueryOrMutation name = false)
    (hsymbol : p.overrides.mappers.get? name = none) : ValueType p name (.declared name)

theorem isMapped_eq_isSome (p : Project) (name : String) :
    p.isMapped name = (p.overrides.mappers.get? name).isSome := SymbolMap.contains_eq_isSome ..

/-- An object has one such type. -/
theorem valueType_iff {t : TypeExpr} : p.ValueType name t ↔ t = p.mapComposite name := by
  constructor
  · intro h
    cases h with
    | root hroot => rw [mapComposite, if_pos hroot]
    | given hroot hsymbol => rw [mapComposite, if_neg (by simp [hroot]), hsymbol]
    | own hroot hsymbol => rw [mapComposite, if_neg (by simp [hroot]), hsymbol]
  · rintro rfl
    cases hroot : p.catalogue.roots.isQueryOrMutation name with
    | true =>
      rw [mapComposite, if_pos hroot]
      exact .root hroot
    | false =>
      rw [mapComposite, if_neg (by simp [hroot])]
      cases hsymbol : p.overrides.mappers.get? name with
      | some s => exact .given hroot hsymbol
      | none => exact .own hroot hsymbol

theorem forall₂_valueType_iff {objects : List (String × ObjectType)} {types : List TypeExpr} :
    List.Forall₂ (fun o t => p.ValueType o.1 t) objects types ↔
      objects.map (fun o => p.mapComposite o.1) = types := by
  have heq := List.forall₂_map_left_iff (R := (· = ·)) (f := fun o => p.mapComposite o.1)
    (l := objects) (u := types)
  rw [List.forall₂_eq_eq_eq] at heq
  rw [heq]
  simp only [valueType_iff, eq_comm]

/-! ## The objects of an interface -/

/-- The objects that implement an interface. -/
def implementing (p : Project) (interface : String) : List (String × ObjectType) :=
  p.catalogue.objects.filter fun o => o.2.implements.contains interface

/-- The catalogue looks for one object that implements the interface; here are all of them. -/
theorem hasImplementors_iff : p.catalogue.hasImplementors name = true ↔ p.implementing name ≠ [] := by
  rw [Catalogue.hasImplementors, Catalogue.implementors, List.isEmpty_map, Bool.not_eq_true',
    List.isEmpty_eq_false_iff]
  rfl

/-- What an interface stands for: the type that the user gives, or that of each object. -/
structure ValuesOf (p : Project) (interface : String) (members : List TypeExpr) : Prop where
  given : ∀ s, p.overrides.mappers.get? interface = some s → members = [.external s interface]
  implementors : p.overrides.mappers.get? interface = none →
    List.Forall₂ (fun o t => p.ValueType o.1 t) (p.implementing interface) members

theorem valuesOf_interfaceMembers (hroot : p.catalogue.roots.isQueryOrMutation name = false) :
    p.ValuesOf name (p.interfaceMembers name) := by
  refine ⟨fun s hs => ?_, fun hnone => ?_⟩
  · have hmapped : p.isMapped name = true := by
      rw [isMapped_eq_isSome, hs]
      rfl
    rw [interfaceMembers, if_pos hmapped, mapComposite, if_neg (by simp [hroot]), hs]
  · have hmapped : p.isMapped name = false := by
      rw [isMapped_eq_isSome, hnone]
      rfl
    rw [interfaceMembers, if_neg (by simp [hmapped]), Catalogue.implementors, List.map_map,
      forall₂_valueType_iff]
    rfl

/-- What a field of an interface without a type from the user can be. -/
theorem mapNamed_of_interface (hkind : p.catalogue.kindOf? name = some .interface)
    (hmapped : p.isMapped name = false) :
    ∃ given, List.Forall₂ (fun o t => p.ValueType o.1 t)
        ((p.implementing name).filter fun o => p.isMapped o.1) given ∧
      p.mapNamed name = .ok (.unionOf (given ++ [.declared name])) := by
  refine ⟨_, forall₂_valueType_iff.mpr rfl, ?_⟩
  rw [mapNamed, hkind]
  show Except.ok (p.mapInterface name) = _
  rw [mapInterface, if_neg (by simp [hmapped]), Catalogue.implementors, List.filter_map]
  simp only [List.map_map]
  rfl

end Project

namespace DeclarationSet

open Project

/-! ## Entries of a module -/

/-- The names for implementors. -/
def implementorAliases (set : DeclarationSet) : List Alias :=
  set.declarations.filterMap fun
    | .implementors entry => some entry
    | _ => none

/-- The entries of the tables of what has to be told apart. -/
def tableEntries (set : DeclarationSet) : List Alias :=
  (set.declarations.filterMap fun
    | .table entries => some entries
    | _ => none).flatten

/-- The type that the module writes for a field, in the contract of its type and in the data. -/
inductive WritesField (set : DeclarationSet) (owner : String) (f : Field) : Access → TypeExpr → Prop
  | result {h : Handler} {a : HandlerField} (hh : .handler h ∈ set.declarations)
    (hname : h.name = resolversName owner) (ha : a ∈ h.fields) (hfield : a.name = f.name) :
    WritesField set owner f .readonly a.result
  | data {r : Record} {d : RecordField} (hr : .dto r ∈ set.declarations) (hname : r.name = owner)
    (hd : d ∈ r.fields) (hfield : d.name = f.name) : WritesField set owner f .mutable d.type

namespace Parts.MadeFrom

variable {s : Parts} {p : Project} {set : DeclarationSet}

theorem implementorAliases_eq (hs : s.MadeFrom p set) :
    set.implementorAliases = p.implementedInterfaces.map p.implementorsAlias := by
  rw [implementorAliases, hs.declarations, Parts.declarations]
  simp [List.filterMap_map, hs.filterMap_enums]

theorem tableEntries_eq (hs : s.MadeFrom p set) : set.tableEntries = p.discriminationTable := by
  rw [tableEntries, hs.declarations, Parts.declarations]
  simp [List.filterMap_map, hs.filterMap_enums]

/-- Of all implemented interfaces, one of a name is there just once. -/
theorem filter_implementedInterfaces (hc : p.catalogue.WellNamed) {i : String × List Field}
    (hi : i ∈ p.catalogue.interfaces) : p.implementedInterfaces.filter (· == i.1) =
      if p.catalogue.hasImplementors i.1 then [i.1] else [] := by
  have hnodup : (p.catalogue.interfaces.map (·.1)).Nodup :=
    hc.distinct.sublist p.catalogue.names_interfaces_sublist
  have hcount : (p.catalogue.interfaces.map (·.1)).filter (· == i.1) = [i.1] := by
    rw [List.filter_beq, List.count_eq_one_of_mem hnodup (List.mem_map_of_mem hi)]
    rfl
  rw [implementedInterfaces, List.filter_comm, hcount, List.filter_cons]
  rfl

/-- Names of interfaces are distinct, so one alias at most is left. -/
theorem filter_implementorAliases (hs : s.MadeFrom p set) (hc : p.catalogue.WellNamed)
    {i : String × List Field} (hi : i ∈ p.catalogue.interfaces) :
    set.implementorAliases.filter (·.name == i.1 ++ "Types") =
      if p.catalogue.hasImplementors i.1 then [⟨i.1 ++ "Types", p.interfaceMembers i.1⟩] else [] := by
  have hname (name : String) : (name ++ "Types" == i.1 ++ "Types") = (name == i.1) := by
    rw [Bool.eq_iff_iff, beq_iff_eq, beq_iff_eq, String.append_left_inj]
  rw [hs.implementorAliases_eq, List.filter_map]
  show (p.implementedInterfaces.filter fun name => name ++ "Types" == i.1 ++ "Types").map _ = _
  simp only [hname]
  rw [filter_implementedInterfaces hc hi]
  cases p.catalogue.hasImplementors i.1 with
  | true => rfl
  | false => rfl

/-- The unions of the table have other names than the interfaces. -/
theorem filter_tableEntries (hs : s.MadeFrom p set) (hc : p.catalogue.WellNamed)
    {i : String × List Field} (hi : i ∈ p.catalogue.interfaces) :
    set.tableEntries.filter (·.name == i.1) =
      if p.catalogue.hasImplementors i.1 then [⟨i.1, p.interfaceMembers i.1⟩] else [] := by
  have hunions : ((p.catalogue.unions.filter fun u => !u.2.isEmpty).map fun u =>
      (⟨u.1, p.unionMembers u.2⟩ : Alias)).filter (·.name == i.1) = [] := by
    refine List.filter_eq_nil_iff.mpr fun entry hentry hname => ?_
    obtain ⟨u, hu, rfl⟩ := List.mem_map.mp hentry
    have hunion := Catalogue.mem_unions_iff.mp (List.mem_filter.mp hu).1
    rw [show u.1 = i.1 from beq_iff_eq.mp hname] at hunion
    nomatch hc.shape_unique hunion (Catalogue.mem_interfaces_iff.mp hi)
  rw [hs.tableEntries_eq, discriminationTable, List.filter_append, hunions, List.nil_append,
    List.filter_map]
  show (p.implementedInterfaces.filter (· == i.1)).map _ = _
  rw [filter_implementedInterfaces hc hi]
  cases p.catalogue.hasImplementors i.1 with
  | true => rfl
  | false => rfl

theorem mapType_of_writesField (hs : s.MadeFrom p set) (hc : p.catalogue.WellNamed)
    {owner : String} {fields : List Field} (hfields : p.catalogue.HasFields owner fields) {f : Field}
    (hf : f ∈ fields) {access : Access} {t : TypeExpr} (h : set.WritesField owner f access t) :
    p.mapType access f.type = .ok t := by
  cases h with
  | result hh hname ha hfield => exact hs.mapType_of_handler hc hfields hf hh hname ha hfield
  | data hr hname hd hfield =>
    subst hname
    exact hs.mapType_of_data hc hfields hf hr hd hfield

end Parts.MadeFrom

end DeclarationSet

/-- **Values of interfaces.** An interface that no object names has no name for its implementors and no
entry in the table. Any other has one of each, with the same members: the type that the user gives for
the interface, or the types of the objects that name it, one for each and in the order of the
catalogue. A field of an interface without a type from the user has the types that the user gives for
its implementors, in that order, and then the interface's own data. -/
theorem Catalogue.interfaceValues_of_load {text : String} {c : Catalogue} (h : load text = .ok c)
    (overrides : Overrides) {set : DeclarationSet}
    (hset : (⟨c, overrides⟩ : Project).declarations = .ok set) {i : String × List Field}
    (hi : i ∈ c.interfaces) :
    let p : Project := ⟨c, overrides⟩
    let aliases := set.implementorAliases.filter (·.name == i.1 ++ "Types")
    let entries := set.tableEntries.filter (·.name == i.1)
    ((p.implementing i.1).map (·.1)).Nodup ∧
      (p.implementing i.1 = [] → aliases = [] ∧ entries = []) ∧
      (p.implementing i.1 ≠ [] → ∃ members, p.ValuesOf i.1 members ∧
        aliases = [⟨i.1 ++ "Types", members⟩] ∧ entries = [⟨i.1, members⟩]) ∧
      (p.isMapped i.1 = false → ∃ given,
        List.Forall₂ (fun o t => p.ValueType o.1 t)
          ((p.implementing i.1).filter fun o => p.isMapped o.1) given ∧
        ∀ {owner fields f access t}, c.HasFields owner fields → f ∈ fields → f.type.leaf = i.1 →
          set.WritesField owner f access t →
          p.Expresses access f.type t ∧ t.bottom = .unionOf (given ++ [.declared i.1])) := by
  intro p aliases entries
  have hc := load_wellNamed h
  obtain ⟨s, hs⟩ := Project.declarations_eq_ok hset
  have hkind : c.kindOf? i.1 = some .interface := hc.kindOf?_of_mem (mem_interfaces_iff.mp hi)
  have haliases : aliases = _ := hs.filter_implementorAliases hc hi
  have hentries : entries = _ := hs.filter_tableEntries hc hi
  refine ⟨?_, fun hnone => ?_, fun hsome => ?_, fun hmapped => ?_⟩
  · exact hc.distinct.sublist ((List.filter_sublist.map _).trans c.names_objects_sublist)
  · have himplementors : ¬ c.hasImplementors i.1 = true := fun h =>
      Project.hasImplementors_iff.mp h hnone
    rw [haliases, hentries, if_neg himplementors, if_neg himplementors]
    exact ⟨rfl, rfl⟩
  · have himplementors : c.hasImplementors i.1 = true := Project.hasImplementors_iff.mpr hsome
    -- Roots are objects, so an interface is none of them.
    have hroot : c.roots.isQueryOrMutation i.1 = false := by
      refine Bool.eq_false_iff.mpr fun hroot => ?_
      nomatch hkind.symm.trans (kindOf?_of_isQueryOrMutation h hroot)
    rw [haliases, hentries, if_pos himplementors, if_pos himplementors]
    exact ⟨_, Project.valuesOf_interfaceMembers hroot, rfl, rfl⟩
  · obtain ⟨given, hgiven, hnamed⟩ := Project.mapNamed_of_interface (p := p) hkind hmapped
    refine ⟨given, hgiven, fun hfields hf hleaf hwrites => ?_⟩
    have hexpresses := Project.expresses_of_mapType (hs.mapType_of_writesField hc hfields hf hwrites)
    refine ⟨hexpresses, Except.ok.inj (hexpresses.bottom.symm.trans ?_)⟩
    rw [hleaf, hnamed]

/-- Where users are rows, nodes are rows, and a field of nodes has rows or data of nodes. -/
theorem Catalogue.interfaceValues_of_load_nodeText :
    ∃ set row, (⟨nodeCatalogue, rowOverrides⟩ : Project).declarations = .ok set ∧
      row = TypeExpr.external (.named "./rows" "UserRow") "User" ∧
      set.implementorAliases.filter (·.name == "NodeTypes") = [⟨"NodeTypes", [row]⟩] ∧
      set.tableEntries.filter (·.name == "Node") = [⟨"Node", [row]⟩] ∧
      ∀ access t, set.WritesField "Node" nodeNext access t →
        t.bottom = .union [row, .declared "Node"] := by
  have heval : (⟨nodeCatalogue, rowOverrides⟩ : Project).declarations.toOption.isSome = true := by
    decide +kernel
  obtain ⟨set, hset⟩ := Option.isSome_iff_exists.mp heval
  have hdeclarations := toOption_eq_some_iff.mp hset
  have hnode : ("Node", [nodeNext]) ∈ nodeCatalogue.interfaces := by decide
  have himplementing : Project.implementing ⟨nodeCatalogue, rowOverrides⟩ "Node" = [userObject] := by
    decide
  obtain ⟨-, -, hvalues, hfields⟩ :=
    interfaceValues_of_load load_nodeText rowOverrides hdeclarations hnode
  obtain ⟨members, hmembers, haliases, hentries⟩ := hvalues (by rw [himplementing]; decide)
  obtain ⟨given, hgiven, hwritten⟩ := hfields (by decide)
  rw [Project.forall₂_valueType_iff, himplementing] at hgiven
  obtain rfl := Project.forall₂_valueType_iff.mp (hmembers.implementors (by decide))
  rw [himplementing] at haliases hentries
  refine ⟨set, _, hdeclarations, rfl, haliases, hentries, fun access t ht => ?_⟩
  have hbottom := (hwritten (.interface hnode) (List.mem_singleton_self _) rfl ht).2
  rw [hbottom, ← hgiven]
  rfl

end ResolverContracts
