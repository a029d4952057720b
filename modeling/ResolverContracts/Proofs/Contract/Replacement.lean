import ResolverContracts.Proofs.Contract.Inheritance
/-!
# Types that the user gives

When the user gives a type for an object or an interface, it takes the place of the name wherever the
module would write it. Nothing in the code says so in one place. Six functions and loops ask whether
the user gives a type, each for itself, and one that forgot to ask would leave a name in the module
that nothing declares.

`DeclarationSet.Writes` lists what the module writes for a name of the schema, by the place where it
stands. All of it has the leaves of what `Project.mapNamed` answers, up to members of the table that
are neither objects nor interfaces (`leaves_of_writes`). So there is one answer for a name, and for one
that the user gives a type for it is the user's.
-/

set_option autoImplicit false

namespace ResolverContracts

namespace Project

variable {p : Project} {name : String} {symbol : Symbol}

/-! ## Names that are replaced -/

/-- An object or an interface that has values in the module and a type from the user. -/
structure Replaces (p : Project) (name : String) (symbol : Symbol) : Prop where
  symbol : p.overrides.mappers.get? name = some symbol
  carriesData : p.catalogue.roots.isQueryOrMutation name = false
  kind : p.catalogue.kindOf? name = some .object ∨ p.catalogue.kindOf? name = some .interface

namespace Replaces

theorem isMapped (h : p.Replaces name symbol) : p.isMapped name = true := by
  rw [Project.isMapped, SymbolMap.contains_eq_isSome, h.symbol]
  rfl

theorem mapComposite (h : p.Replaces name symbol) :
    p.mapComposite name = .external symbol name := by
  rw [Project.mapComposite, if_neg (by simp [h.carriesData]), h.symbol]

/-- Both kinds of type are answered by the user's type. -/
theorem mapNamed (h : p.Replaces name symbol) :
    p.mapNamed name = .ok (.external symbol name) := by
  rw [Project.mapNamed]
  rcases h.kind with hobject | hinterface
  · rw [hobject]
    exact congrArg Except.ok h.mapComposite
  · rw [hinterface]
    show Except.ok (p.mapInterface name) = _
    rw [mapInterface, if_pos h.isMapped, h.mapComposite]

/-- Nothing is declared under the name, for want of a loop that would do it. -/
theorem not_provides (h : p.Replaces name symbol) (hc : p.catalogue.WellNamed) :
    ¬ p.Provides name := by
  -- A name has one kind, and all but the first two loops are for other kinds.
  have hkind {k : Kind} {shape : TypeShape} (hmem : ⟨name, shape⟩ ∈ p.catalogue.types)
      (hk : shape.kind = k) : k = .object ∨ k = .interface := by
    have hkind := h.kind
    rw [hc.kindOf?_of_mem hmem, hk] at hkind
    exact hkind.imp Option.some.inj Option.some.inj
  intro hprovides
  cases hprovides with
  | data ho => simpa [isRequired, h.isMapped] using (List.mem_filter.mp ho).2
  | interface hi => simpa [h.isMapped] using (List.mem_filter.mp hi).2
  | input hi =>
    rcases hkind (Catalogue.mem_inputObjects_iff.mp hi) rfl with hk | hk
    · cases hk
    · cases hk
  | enum he _ =>
    rcases hkind (Catalogue.mem_enums_iff.mp he) rfl with hk | hk
    · cases hk
    · cases hk
  | union hu =>
    rcases hkind (Catalogue.mem_unions_iff.mp hu) rfl with hk | hk
    · cases hk
    · cases hk

/-- So a type that stands on its own does not have the name. -/
theorem not_mem_locals (h : p.Replaces name symbol) (hc : p.catalogue.WellNamed) {t : TypeExpr}
    (ht : p.Covers t) : name ∉ t.locals := by
  intro hname
  rcases ht.locals name hname with hprovides | ⟨hscalar, -⟩
  · exact h.not_provides hc hprovides
  · have hkind := hc.kindOf?_of_mem_customScalars hscalar
    rcases h.kind with hk | hk
    · nomatch hkind.symm.trans hk
    · nomatch hkind.symm.trans hk

end Replaces

/-! ## What stands for the values of a union or an interface -/

/-- The names that stand for the values of a union or an interface: the members, or the implementors
unless the user gives a type for the interface itself. -/
inductive Lists (p : Project) : String → List String → Prop
  | members {u : String × List String} (h : u ∈ p.catalogue.unions) : Lists p u.1 u.2
  | itself {i : String × List Field} (h : i ∈ p.catalogue.interfaces)
    (hmapped : p.isMapped i.1 = true) : Lists p i.1 [i.1]
  | implementors {i : String × List Field} (h : i ∈ p.catalogue.interfaces)
    (hmapped : p.isMapped i.1 = false) : Lists p i.1 (p.catalogue.implementors i.1)

/-- What is written for a name is what any reference to it has at the bottom, or the name itself if it
is that of a union, an enum or a scalar. -/
def Answered (p : Project) (name : String) (t : TypeExpr) : Prop :=
  (∃ u, p.mapNamed name = .ok u ∧ t.leaves = u.leaves) ∨
    t = .declared name ∧ ∃ k, p.catalogue.kindOf? name = some k ∧ k ≠ .object ∧ k ≠ .interface

theorem answered_of_mapNamed {t : TypeExpr} (h : p.mapNamed name = .ok t) : p.Answered name t :=
  .inl ⟨t, h, rfl⟩

theorem answered_of_mapType {access : Access} {r : TypeRef} {t : TypeExpr}
    (h : p.mapType access r = .ok t) : p.Answered r.leaf t :=
  .inl (leaves_mapType h)

theorem answered_object (hc : p.catalogue.WellNamed) {o : ObjectType}
    (ho : (name, o) ∈ p.catalogue.objects) : p.Answered name (p.mapComposite name) := by
  refine answered_of_mapNamed ?_
  rw [mapNamed, hc.kindOf?_of_mem (Catalogue.mem_objects_iff.mp ho)]
  rfl

/-- Entries for interfaces list what stands for their values. -/
theorem answered_interfaceMembers (hc : p.catalogue.WellNamed) {i : String × List Field}
    (hi : i ∈ p.catalogue.interfaces) {names : List String} (h : p.Lists i.1 names) :
    List.Forall₂ p.Answered names (p.interfaceMembers i.1) := by
  obtain ⟨name, fields⟩ := i
  have hshape := Catalogue.mem_interfaces_iff.mp hi
  generalize hname : (name, fields).1 = n at h
  -- The name is an interface, so it is not listed as a union.
  cases h with
  | members hu =>
    obtain rfl : name = _ := hname
    nomatch hc.shape_unique hshape (Catalogue.mem_unions_iff.mp hu)
  | itself _ hmapped =>
    obtain rfl : name = _ := hname
    rw [interfaceMembers, if_pos hmapped]
    refine .cons (answered_of_mapNamed ?_) .nil
    rw [mapNamed, hc.kindOf?_of_mem hshape]
    show Except.ok (p.mapInterface _) = _
    rw [mapInterface, if_pos hmapped]
  | implementors _ hmapped =>
    obtain rfl : name = _ := hname
    rw [interfaceMembers, if_neg (by simp [hmapped]), List.forall₂_map_right_iff]
    refine List.forall₂_same.mpr fun implementor himplementor => ?_
    obtain ⟨o, ho, rfl⟩ := List.mem_map.mp himplementor
    exact answered_object hc (List.mem_filter.mp ho).1

/-- The table lists the members of a union. -/
theorem answered_unionMembers (hc : p.catalogue.WellNamed) {u : String × List String}
    (hu : u ∈ p.catalogue.unions) : List.Forall₂ p.Answered u.2 (p.unionMembers u.2) := by
  rw [unionMembers, List.forall₂_map_right_iff]
  refine List.forall₂_same.mpr fun member hmember => ?_
  by_cases hobject : p.catalogue.kindOf? member = some .object
  · rw [if_pos hobject]
    obtain ⟨o, ho⟩ := Catalogue.exists_of_kindOf?_object hobject
    exact answered_object hc ho
  · -- Members that are no objects stand for themselves, and none of them is an interface.
    rw [if_neg hobject]
    obtain ⟨k, hkind, hinterface, -⟩ := hc.members u hu member hmember
    refine .inr ⟨rfl, k, hkind, ?_, hinterface⟩
    rintro rfl
    exact hobject hkind

/-- A union has one list of members. -/
theorem Lists.eq_members (hc : p.catalogue.WellNamed) {u : String × List String}
    (hu : u ∈ p.catalogue.unions) {names : List String} (h : p.Lists u.1 names) : names = u.2 := by
  obtain ⟨name, members⟩ := u
  have hshape := Catalogue.mem_unions_iff.mp hu
  generalize hname : (name, members).1 = n at h
  cases h with
  | members hu' =>
    obtain rfl : name = _ := hname
    exact TypeShape.union.inj (hc.shape_unique (Catalogue.mem_unions_iff.mp hu') hshape)
  | itself hi _ =>
    obtain rfl : name = _ := hname
    nomatch hc.shape_unique hshape (Catalogue.mem_interfaces_iff.mp hi)
  | implementors hi _ =>
    obtain rfl : name = _ := hname
    nomatch hc.shape_unique hshape (Catalogue.mem_interfaces_iff.mp hi)

end Project

namespace DeclarationSet

open Project

variable {set : DeclarationSet} {p : Project} {s : Parts}

/-- An entry of the module for the union or the interface of a name. -/
inductive HasEntry (set : DeclarationSet) : String → Alias → Prop
  | union {entry : Alias} (h : .union entry ∈ set.declarations) : HasEntry set entry.name entry
  | implementors {name : String} {entry : Alias} (h : .implementors entry ∈ set.declarations)
    (hname : entry.name = name ++ "Types") : HasEntry set name entry
  | table {entries : List Alias} {entry : Alias} (h : .table entries ∈ set.declarations)
    (he : entry ∈ entries) : HasEntry set entry.name entry

/-- A type expression that the module writes for a name of the schema. -/
inductive Writes (set : DeclarationSet) (p : Project) : String → TypeExpr → Prop
  /-- What the handlers of an object are given. -/
  | root {o : String × ObjectType} {h : Handler} {a : HandlerField} (ho : o ∈ p.catalogue.objects)
    (hh : .handler h ∈ set.declarations) (hname : h.name = resolversName o.1) (ha : a ∈ h.fields) :
    Writes set p o.1 a.root
  /-- What a contract is taken over for. -/
  | extension {o : String × ObjectType} {h : Handler} {e : Extension}
    (ho : o ∈ p.catalogue.objects) (hh : .handler h ∈ set.declarations)
    (hname : h.name = resolversName o.1) (he : e ∈ h.extensions) : Writes set p o.1 e.root
  /-- What a handler gives for a field. -/
  | result {owner : String} {fields : List Field} {f : Field} {h : Handler} {a : HandlerField}
    (hfields : p.catalogue.HasFields owner fields) (hf : f ∈ fields)
    (hh : .handler h ∈ set.declarations) (hname : h.name = resolversName owner) (ha : a ∈ h.fields)
    (hfield : a.name = f.name) : Writes set p f.type.leaf a.result
  /-- The data of a field. -/
  | data {fields : List Field} {f : Field} {r : Record} {d : RecordField}
    (hfields : p.catalogue.HasFields r.name fields) (hf : f ∈ fields)
    (hr : .dto r ∈ set.declarations) (hd : d ∈ r.fields) (hfield : d.name = f.name) :
    Writes set p f.type.leaf d.type
  /-- A member of a union, or an implementor, in its place in an entry. -/
  | member {name : String} {names : List String} {entry : Alias} {m : String} {t : TypeExpr}
    (hlists : p.Lists name names) (hentry : set.HasEntry name entry)
    (hm : (m, t) ∈ names.zip entry.members) : Writes set p m t

namespace Parts.MadeFrom

/-! ## What is written is what is answered -/

/-- A contract is found by the name of its type, and a field of it by the name of the field. -/
theorem mapType_of_handler (hs : s.MadeFrom p set) (hc : p.catalogue.WellNamed) {owner : String}
    {fields : List Field} (hfields : p.catalogue.HasFields owner fields) {f : Field} (hf : f ∈ fields)
    {h : Handler} (hh : .handler h ∈ set.declarations) (hname : h.name = resolversName owner)
    {a : HandlerField} (ha : a ∈ h.fields) (hfield : a.name = f.name) :
    p.mapType .readonly f.type = .ok a.result := by
  cases hs.mem_iff.mp hh with
  | handler hmade =>
    obtain ⟨owner', fields', hfields', hname', f', hf', _, hsignature⟩ :=
      hs.exists_isSignature hmade ha
    obtain rfl : owner' = owner := eq_of_resolversName_eq (hname'.symm.trans hname)
    obtain rfl := hfields.unique hc.distinct hfields'
    obtain rfl : f = f' := hfields.field_unique hc hf hf' (hfield.symm.trans hsignature.name)
    exact hsignature.result

/-- So are the data of a type, and each of their fields. -/
theorem mapType_of_data (hs : s.MadeFrom p set) (hc : p.catalogue.WellNamed) {r : Record}
    {fields : List Field} (hfields : p.catalogue.HasFields r.name fields) {f : Field}
    (hf : f ∈ fields) (hr : .dto r ∈ set.declarations) {d : RecordField} (hd : d ∈ r.fields)
    (hfield : d.name = f.name) : p.mapType .mutable f.type = .ok d.type := by
  -- Whichever loop declared the record, it did so for a type with fields.
  obtain ⟨fields', hfields', hdata⟩ : ∃ fields', p.catalogue.HasFields r.name fields' ∧
      List.Forall₂ p.DataField fields' r.fields := by
    cases hs.mem_iff.mp hr with
    | objectData hr =>
      obtain ⟨o, ho, hname, hdata⟩ := exists_left_of_forall₂ hs.objectData hr
      have hobject := (List.mem_filter.mp (List.mem_filter.mp ho).1).1
      rw [hname]
      exact ⟨o.2.fields, .object hobject, hdata⟩
    | interfaceData hr =>
      obtain ⟨i, hi, hname, hdata⟩ := exists_left_of_forall₂ hs.interfaceData hr
      rw [hname]
      exact ⟨i.2, .interface (List.mem_filter.mp hi).1, hdata⟩
  obtain rfl := hfields.unique hc.distinct hfields'
  obtain ⟨f', hf', hvalue⟩ := exists_left_of_forall₂ hdata hd
  obtain rfl : f = f' := hfields.field_unique hc hf hf' (hfield.symm.trans hvalue.name)
  exact hvalue.type

/-- The members of an entry are answers to the names it lists, one for each and in their order. -/
theorem answered_of_entry (hs : s.MadeFrom p set) (hc : p.catalogue.WellNamed) {name : String}
    {names : List String} (hlists : p.Lists name names) {entry : Alias}
    (hentry : set.HasEntry name entry) : List.Forall₂ p.Answered names entry.members := by
  cases hentry with
  | union h =>
    cases hs.mem_iff.mp h with
    | union h =>
      obtain ⟨u, hu, hunion⟩ := exists_left_of_forall₂ hs.unions h
      rw [hunion.name] at hlists
      rw [hlists.eq_members hc hu]
      exact hunion.members.imp fun _ _ => answered_of_mapNamed
  | implementors h hname =>
    cases hs.mem_iff.mp h with
    | implementors himplemented =>
      obtain rfl := (String.append_left_inj "Types").mp hname
      obtain ⟨i, hi, rfl⟩ := List.mem_map.mp (List.mem_filter.mp himplemented).1
      exact answered_interfaceMembers hc hi hlists
  | table h he =>
    cases hs.mem_iff.mp h with
    | table =>
      rcases List.mem_append.mp he with he | he
      · obtain ⟨u, hu, rfl⟩ := List.mem_map.mp he
        have hu := (List.mem_filter.mp hu).1
        rw [hlists.eq_members hc hu]
        exact answered_unionMembers hc hu
      · obtain ⟨name, hname, rfl⟩ := List.mem_map.mp he
        obtain ⟨i, hi, rfl⟩ := List.mem_map.mp (List.mem_filter.mp hname).1
        exact answered_interfaceMembers hc hi hlists

/-- **One answer for a name.** Whatever is written for a name, and wherever, is the answer to it. -/
theorem answered_of_writes (hs : s.MadeFrom p set) (hc : p.catalogue.WellNamed) {name : String}
    {t : TypeExpr} (h : set.Writes p name t) : p.Answered name t := by
  cases h with
  | root ho hh hname ha =>
    cases hs.mem_iff.mp hh with
    | handler hmade =>
      obtain ⟨_, -, _, hanswer, -⟩ := (hs.objectHandler_of_name hc hmade ho hname).exists_field ha
      have hroot := hanswer.root
      rw [hroot]
      exact answered_object hc ho
  | extension ho hh hname he =>
    cases hs.mem_iff.mp hh with
    | handler hmade =>
      rw [(hs.objectHandler_of_name hc hmade ho hname).extensions] at he
      obtain ⟨i, -, rfl⟩ := List.mem_map.mp he
      exact answered_object hc ho
  | result hfields hf hh hname ha hfield =>
    exact answered_of_mapType (hs.mapType_of_handler hc hfields hf hh hname ha hfield)
  | data hfields hf hr hd hfield =>
    exact answered_of_mapType (hs.mapType_of_data hc hfields hf hr hd hfield)
  | member hlists hentry hm =>
    exact (List.forall₂_iff_zip.mp (hs.answered_of_entry hc hlists hentry)).2 hm

/-- For a name that the user gives a type for, that is the user's type. -/
theorem leaves_of_writes (hs : s.MadeFrom p set) (hc : p.catalogue.WellNamed) {name : String}
    {symbol : Symbol} (hreplaces : p.Replaces name symbol) {t : TypeExpr}
    (h : set.Writes p name t) : t.leaves = [.named (.external (symbol.toExternal name))] := by
  rcases hs.answered_of_writes hc h with ⟨u, hu, hleaves⟩ | ⟨-, k, hk, hobject, hinterface⟩
  · obtain rfl := Except.ok.inj (hreplaces.mapNamed.symm.trans hu)
    exact hleaves
  · rcases hreplaces.kind with hkind | hkind
    · exact absurd (Option.some.inj (hk.symm.trans hkind)) hobject
    · exact absurd (Option.some.inj (hk.symm.trans hkind)) hinterface

/-- A field of an interface without a type from the user has the user's types for its implementors
among its own. -/
theorem mem_leaves_of_writes (hs : s.MadeFrom p set) (hc : p.catalogue.WellNamed) {name : String}
    {symbol : Symbol} (hreplaces : p.Replaces name symbol) {i : String × List Field}
    (hi : i ∈ p.unmappedInterfaces) (himplementor : name ∈ p.catalogue.implementors i.1)
    {t : TypeExpr} (h : set.Writes p i.1 t) :
    .named (.external (symbol.toExternal name)) ∈ t.leaves := by
  obtain ⟨hinterface, hunmapped⟩ := List.mem_filter.mp hi
  have hkind : p.catalogue.kindOf? i.1 = some .interface :=
    hc.kindOf?_of_mem (Catalogue.mem_interfaces_iff.mp hinterface)
  rcases hs.answered_of_writes hc h with ⟨u, hu, hleaves⟩ | ⟨-, k, hk, -, hne⟩
  · rw [mapNamed, hkind] at hu
    obtain rfl : p.mapInterface i.1 = u := Except.ok.inj hu
    rw [hleaves, mapInterface, if_neg (by simpa using hunmapped), TypeExpr.leaves_unionOf]
    refine List.mem_flatMap.mpr ⟨p.mapComposite name, List.mem_append_left _ ?_, ?_⟩
    · refine List.mem_map_of_mem (List.mem_filter.mpr ⟨himplementor, hreplaces.isMapped⟩)
    · rw [hreplaces.mapComposite]
      exact List.mem_singleton_self _
  · exact absurd (Option.some.inj (hk.symm.trans hkind)) hne

/-! ## What is not declared -/

theorem name_ne_of_data (hs : s.MadeFrom p set) {name : String} (hmapped : p.isMapped name = true)
    {r : Record} (hr : .dto r ∈ set.declarations) : r.name ≠ name := by
  rintro rfl
  cases hs.mem_iff.mp hr with
  | objectData hr =>
    obtain ⟨o, ho, hname, -⟩ := exists_left_of_forall₂ hs.objectData hr
    have hoptional := (List.mem_filter.mp ho).2
    rw [hname] at hmapped
    simp [isRequired, hmapped] at hoptional
  | interfaceData hr =>
    obtain ⟨i, hi, hname, -⟩ := exists_left_of_forall₂ hs.interfaceData hr
    have hunmapped := (List.mem_filter.mp hi).2
    rw [hname] at hmapped
    simp [hmapped] at hunmapped

theorem parameter_eq_none (hs : s.MadeFrom p set) {name : String} (hmapped : p.isMapped name = true)
    {h : Handler} (hh : .handler h ∈ set.declarations) (hname : h.name = resolversName name) :
    h.parameter = none := by
  cases hs.mem_iff.mp hh with
  | handler hmade =>
    rcases hs.handler_cases hmade with ⟨i, hi, hinterface⟩ | ⟨o, -, hobject⟩
    · have hunmapped := (List.mem_filter.mp hi).2
      obtain rfl := eq_of_resolversName_eq (hinterface.name.symm.trans hname)
      simp [hmapped] at hunmapped
    · exact hobject.parameter

/-- **Nowhere.** The name is left to the module in no type that stands for one of the schema. -/
theorem not_mem_locals (hs : s.MadeFrom p set) (hc : p.catalogue.WellNamed) {name : String}
    {symbol : Symbol} (hreplaces : p.Replaces name symbol) {d : Declaration}
    (hd : d ∈ set.declarations) {t : TypeExpr} (ht : t ∈ d.valueTypes) : name ∉ t.locals := by
  by_cases htable : ∃ entries, d = .table entries
  · obtain ⟨entries, rfl⟩ := htable
    cases hs.mem_iff.mp hd
    obtain ⟨entry, hentry, ht⟩ := List.mem_flatMap.mp ht
    rcases List.mem_append.mp hentry with hentry | hentry
    · obtain ⟨u, hu, rfl⟩ := List.mem_map.mp hentry
      have hu := (List.mem_filter.mp hu).1
      obtain ⟨member, hmember, rfl⟩ := List.mem_map.mp ht
      split
      · rename_i hobject
        obtain ⟨o, ho⟩ := Catalogue.exists_of_kindOf?_object hobject
        exact hreplaces.not_mem_locals hc (covers_mapComposite_object hc ho)
      · -- A member that stands for itself is no object, and no member is an interface.
        rename_i hobject
        intro hname
        obtain rfl := List.mem_singleton.mp hname
        obtain ⟨k, hk, hinterface, -⟩ := hc.members u hu _ hmember
        rcases hreplaces.kind with hkind | hkind
        · exact hobject hkind
        · exact hinterface (Option.some.inj (hk.symm.trans hkind))
    · obtain ⟨_, -, rfl⟩ := List.mem_map.mp hentry
      exact hreplaces.not_mem_locals hc (covers_interfaceMembers hc ht).1
  · have hnot : ∀ entries, d ≠ .table entries := fun entries h => htable ⟨entries, h⟩
    rcases hs.valueTypes hc (hs.mem_iff.mp hd) hnot ht with hcovers | ⟨_, _, -, -, rfl⟩
    · exact hreplaces.not_mem_locals hc hcovers
    · exact List.not_mem_nil

end Parts.MadeFrom

end DeclarationSet

/-- In a schema that loads, the user's type for an object with data, or for an interface, is the one
that counts: an interface is no root. -/
theorem Project.replaces_of_load {text : String} {c : Catalogue} (h : Catalogue.load text = .ok c)
    {overrides : Overrides} {name : String} {symbol : Symbol}
    (htype : (∃ o, (name, o) ∈ c.objects ∧ c.roots.isQueryOrMutation name = false) ∨
      ∃ fields, (name, fields) ∈ c.interfaces)
    (hsymbol : overrides.mappers.get? name = some symbol) :
    (⟨c, overrides⟩ : Project).Replaces name symbol := by
  have hc := Catalogue.load_wellNamed h
  rcases htype with ⟨o, ho, hroot⟩ | ⟨fields, hi⟩
  · exact ⟨hsymbol, hroot, .inl (hc.kindOf?_of_mem (Catalogue.mem_objects_iff.mp ho))⟩
  · have hkind : c.kindOf? name = some .interface :=
      hc.kindOf?_of_mem (Catalogue.mem_interfaces_iff.mp hi)
    have hroot : c.roots.isQueryOrMutation name = false := by
      by_contra hroot
      have hobject := Catalogue.kindOf?_of_isQueryOrMutation h (by simpa using hroot)
      nomatch hkind.symm.trans hobject
    exact ⟨hsymbol, hroot, .inr hkind⟩

/-- **Types that the user gives.** From a schema that loads, and with any overrides, the type that the
user gives for an object with data, or for an interface, takes the place of its name: the module
declares neither data nor a generic contract for it, has the name in no type but those of arguments,
and writes the user's type wherever it writes one for the name, as well as among the types for an
interface that the object implements. -/
theorem Catalogue.replacement_of_load {text : String} {c : Catalogue} (h : load text = .ok c)
    (overrides : Overrides) {set : DeclarationSet}
    (hset : (⟨c, overrides⟩ : Project).declarations = .ok set) {name : String} {symbol : Symbol}
    (htype : (∃ o, (name, o) ∈ c.objects ∧ c.roots.isQueryOrMutation name = false) ∨
      ∃ fields, (name, fields) ∈ c.interfaces)
    (hsymbol : overrides.mappers.get? name = some symbol) :
    let p : Project := ⟨c, overrides⟩
    let given : TypeExpr := .named (.external (symbol.toExternal name))
    (∀ r, .dto r ∈ set.declarations → r.name ≠ name) ∧
      (∀ g, .handler g ∈ set.declarations → g.name = resolversName name → g.parameter = none) ∧
      (∀ d ∈ set.declarations, ∀ t ∈ d.valueTypes, name ∉ t.locals) ∧
      (∀ t, set.Writes p name t → t.leaves = [given]) ∧
      ∀ i ∈ p.unmappedInterfaces, name ∈ c.implementors i.1 →
        ∀ t, set.Writes p i.1 t → given ∈ t.leaves := by
  intro p given
  have hc := load_wellNamed h
  obtain ⟨s, hs⟩ := Project.declarations_eq_ok hset
  have hreplaces := Project.replaces_of_load h htype hsymbol
  exact ⟨fun r => hs.name_ne_of_data hreplaces.isMapped,
    fun g => hs.parameter_eq_none hreplaces.isMapped,
    fun d hd t => hs.not_mem_locals hc hreplaces hd,
    fun t => hs.leaves_of_writes hc hreplaces,
    fun i hi himplementor t => hs.mem_leaves_of_writes hc hreplaces hi himplementor⟩

/-- Users are rows. -/
def rowOverrides : Overrides :=
  { Overrides.default with mappers := ⟨[("User", .named "./rows" "UserRow")]⟩ }

/-- Queries for users are answered with rows, and so are those for nodes. -/
theorem Catalogue.replacement_of_load_nodeText :
    ∃ set row, (⟨nodeCatalogue, rowOverrides⟩ : Project).declarations = .ok set ∧
      row = TypeExpr.external (.named "./rows" "UserRow") "User" ∧
      (∃ t, set.Writes ⟨nodeCatalogue, rowOverrides⟩ "User" t) ∧
      (∀ t, set.Writes ⟨nodeCatalogue, rowOverrides⟩ "User" t → t.leaves = [row]) ∧
      ∀ t, set.Writes ⟨nodeCatalogue, rowOverrides⟩ "Node" t → row ∈ t.leaves := by
  have heval : (⟨nodeCatalogue, rowOverrides⟩ : Project).declarations.toOption.isSome = true := by
    decide +kernel
  obtain ⟨set, hset⟩ := Option.isSome_iff_exists.mp heval
  have hdeclarations := toOption_eq_some_iff.mp hset
  have hsymbol : rowOverrides.mappers.get? "User" = some (.named "./rows" "UserRow") := by decide
  obtain ⟨-, -, -, hwrites, hmember⟩ := replacement_of_load load_nodeText rowOverrides hdeclarations
    (.inl ⟨userObject.2, userObject_mem, by decide⟩) hsymbol
  refine ⟨set, _, hdeclarations, rfl, ?_, hwrites, hmember ("Node", [nodeNext]) ?_ ?_⟩
  · -- The query for a user is one place.
    obtain ⟨s, hs⟩ := Project.declarations_eq_ok hdeclarations
    have hquery : ("Query", ⟨[⟨"a", .named "User", []⟩], []⟩) ∈ nodeCatalogue.objects := by decide
    obtain ⟨made, hmade, hobject⟩ := hs.exists_objectHandler
      (Project.mem_declaredObjects (load_wellNamed load_nodeText) hquery)
    have hfield : ⟨"a", .named "User", []⟩ ∈ Project.ownFields ⟨nodeCatalogue, rowOverrides⟩
        ⟨[⟨"a", .named "User", []⟩], []⟩ := by decide
    obtain ⟨a, ha, _, hanswer, -⟩ := hobject.exists_answer hfield
    exact ⟨a.result, .result (.object hquery) (List.mem_singleton_self _)
      (hs.mem_iff.mpr (.handler hmade)) hobject.name ha hanswer.name⟩
  · decide
  · decide

end ResolverContracts
