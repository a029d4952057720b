import ResolverContracts.Proofs.Contract.Leaves
import ResolverContracts.Proofs.Contract.Signatures
import ResolverContracts.Proofs.Schema.Loaded
/-!
# Names that a module gives a meaning

The names in the types of a module are put there by resolution, which looks at the kind of a name and
at what the user says. The declarations are made by loops over the catalogue. Nothing in the code
connects the two, so they have to agree for every kind of type: whatever resolution leaves to the
module under its own name must be among what the loops declare.

`Project.Provides` lists what the loops declare. A type is covered when it names nothing else, apart
from scalars that the user says nothing of, and has no parameter. Covered types are closed under
resolution (`covers_mapType`), and a module is closed because all its types come from there.
-/

set_option autoImplicit false

namespace ResolverContracts

namespace Declaration

/-- The types of a declaration that stand for types of the schema: all but what contracts take as
arguments, which is declared by the module for its own use. -/
def valueTypes : Declaration → List TypeExpr
  | handler contract =>
    contract.extensions.map (·.root) ++ contract.fields.flatMap fun f => [f.root, f.result]
  | d => d.types

/-- The others are the arguments. -/
theorem mem_types_iff {d : Declaration} {t : TypeExpr} :
    t ∈ d.types ↔ t ∈ d.valueTypes ∨ ∃ h, d = .handler h ∧ ∃ a ∈ h.fields, t = a.args := by
  cases d with
  | handler contract =>
    simp only [types, valueTypes, List.mem_append, List.mem_flatMap, List.mem_cons,
      List.not_mem_nil, or_false, handler.injEq, exists_eq_left']
    grind
  | _ => simp [valueTypes]

end Declaration

namespace Project

/-- A scalar that the user gives no type for. Its own name stands for it, and is not declared. -/
def IsPlaceholder (p : Project) (name : String) : Prop :=
  name ∈ p.catalogue.customScalars ∧ p.overrides.scalars.get? name = none

/-- The types of the schema that the module declares under their names. -/
inductive Provides (p : Project) : String → Prop
  | data {o : String × ObjectType} (h : o ∈ p.optionalObjects) : Provides p o.1
  | interface {i : String × List Field} (h : i ∈ p.unmappedInterfaces) : Provides p i.1
  | input {i : String × List InputValue} (h : i ∈ p.catalogue.inputObjects) : Provides p i.1
  | enum {e : String × List String} (h : e ∈ p.catalogue.enums)
    (hkept : p.overrides.enumValues.get? e.1 = none) : Provides p e.1
  | union {u : String × List String} (h : u ∈ p.catalogue.unions) : Provides p u.1

/-- A type that stands on its own in the module. -/
structure Covers (p : Project) (t : TypeExpr) : Prop where
  locals : ∀ n ∈ t.locals, p.Provides n ∨ p.IsPlaceholder n
  parameters : ∀ n, n ∉ t.parameters

variable {p : Project} {name : String} {t : TypeExpr}

theorem covers_declared (h : p.Provides name ∨ p.IsPlaceholder name) :
    p.Covers (.declared name) := by
  refine ⟨fun n hn => ?_, fun n => List.not_mem_nil⟩
  obtain rfl := List.mem_singleton.mp hn
  exact h

theorem covers_external (s : Symbol) (name : String) : p.Covers (.external s name) :=
  ⟨nofun, nofun⟩

theorem covers_primitive (type : Primitive) : p.Covers (.primitive type) := ⟨nofun, nofun⟩

theorem covers_emptyRecord : p.Covers .emptyRecord := ⟨nofun, nofun⟩

theorem covers_unionOf {types : List TypeExpr} (h : ∀ t ∈ types, p.Covers t) :
    p.Covers (.unionOf types) := by
  constructor
  · intro n hn
    obtain ⟨t, ht, hn⟩ := TypeExpr.mem_locals_unionOf.mp hn
    exact (h t ht).locals n hn
  · intro n hn
    obtain ⟨t, ht, hn⟩ := TypeExpr.mem_parameters_unionOf.mp hn
    exact (h t ht).parameters n hn

/-! ## Resolution -/

/-- Of composite types, those that are neither mapped nor roots are written by name, and these have to
be provided. -/
theorem covers_mapComposite
    (h : p.isMapped name = false → p.catalogue.roots.isQueryOrMutation name = false →
      p.Provides name) : p.Covers (p.mapComposite name) := by
  rcases mapComposite_cases p name with ⟨-, hempty⟩ | ⟨s, -, hexternal⟩ | ⟨hmapped, hroot, hname⟩
  · rw [hempty]
    exact covers_emptyRecord
  · rw [hexternal]
    exact covers_external s name
  · -- Only here the name is left to the module.
    rw [hname]
    exact covers_declared (.inl (h hmapped hroot))

/-- All objects are declared: that none has a name kept for introspection is a rule of the schema. -/
theorem mem_declaredObjects (hc : p.catalogue.WellNamed) {o : String × ObjectType}
    (ho : o ∈ p.catalogue.objects) : o ∈ p.declaredObjects := by
  have hname := hc.unreserved _ (Catalogue.mem_objects_iff.mp ho)
  exact List.mem_filter.mpr ⟨ho, by simpa using hname⟩

/-- An object that carries data and has no type from the user has a declaration for its data. -/
theorem covers_mapComposite_object (hc : p.catalogue.WellNamed) {o : ObjectType}
    (ho : (name, o) ∈ p.catalogue.objects) : p.Covers (p.mapComposite name) := by
  refine covers_mapComposite fun hmapped hroot => ?_
  have hoptional : (name, o) ∈ p.optionalObjects :=
    List.mem_filter.mpr ⟨mem_declaredObjects hc ho, by simp [isRequired, hmapped, hroot]⟩
  exact .data hoptional

theorem covers_mapComposite_implementor (hc : p.catalogue.WellNamed) {interface : String}
    (h : name ∈ p.catalogue.implementors interface) : p.Covers (p.mapComposite name) := by
  obtain ⟨o, ho, rfl⟩ := List.mem_map.mp h
  exact covers_mapComposite_object hc (List.mem_filter.mp ho).1

theorem covers_mapComposite_mapped (h : p.isMapped name = true) : p.Covers (p.mapComposite name) :=
  covers_mapComposite fun hnot => nomatch hnot.symm.trans h

/-- An unmapped interface is written with its own name behind those of its implementors. -/
theorem covers_mapInterface {fields : List Field}
    (hi : (name, fields) ∈ p.catalogue.interfaces) : p.Covers (p.mapInterface name) := by
  rw [mapInterface]
  by_cases hmapped : p.isMapped name = true
  · rw [if_pos hmapped]
    exact covers_mapComposite_mapped hmapped
  · rw [if_neg hmapped]
    refine covers_unionOf fun t ht => ?_
    -- The implementors come first, and only those that the user gives a type for.
    rcases List.mem_append.mp ht with ht | ht
    · obtain ⟨implementor, himpl, rfl⟩ := List.mem_map.mp ht
      exact covers_mapComposite_mapped (List.mem_filter.mp himpl).2
    · obtain rfl := List.mem_singleton.mp ht
      have hunmapped : (name, fields) ∈ p.unmappedInterfaces :=
        List.mem_filter.mpr ⟨hi, by simpa using hmapped⟩
      exact covers_declared (.inl (.interface hunmapped))

/-- A custom scalar that is not replaced is a placeholder. -/
theorem covers_mapScalar (hname : p.catalogue.kindOf? name = some .scalar) :
    p.Covers (p.mapScalar name) := by
  rcases p.mapScalar_cases name with ⟨-, type, h⟩ | ⟨-, s, -, h⟩ | ⟨hbuiltin, hget, h⟩
  · rw [h]
    exact covers_primitive type
  · rw [h]
    exact covers_external s name
  · rw [h]
    exact covers_declared (.inr ⟨Catalogue.mem_customScalars_of_kindOf? hname hbuiltin, hget⟩)

theorem covers_mapEnum {values : List String} (he : (name, values) ∈ p.catalogue.enums) :
    p.Covers (p.mapEnum name) := by
  rw [mapEnum]
  cases hget : p.overrides.enumValues.get? name with
  | some s => exact covers_external s name
  | none => exact covers_declared (.inl (.enum he hget))

/-- The type of a name is covered. The cases are the kinds of type. -/
theorem covers_mapNamed (hc : p.catalogue.WellNamed) (h : p.mapNamed name = .ok t) :
    p.Covers t := by
  rw [mapNamed] at h
  cases hkind : p.catalogue.kindOf? name with
  | none =>
    rw [hkind] at h
    nomatch h
  | some kind =>
    rw [hkind] at h
    -- A name is resolved to a type of its own kind, which the catalogue has an entry for.
    cases kind with
    | scalar =>
      obtain rfl := Except.ok.inj h
      exact covers_mapScalar hkind
    | object =>
      obtain rfl := Except.ok.inj h
      obtain ⟨o, ho⟩ := Catalogue.exists_of_kindOf?_object hkind
      exact covers_mapComposite_object hc ho
    | interface =>
      obtain rfl := Except.ok.inj h
      obtain ⟨fields, hi⟩ := Catalogue.exists_of_kindOf?_interface hkind
      exact covers_mapInterface hi
    | union =>
      obtain rfl := Except.ok.inj h
      obtain ⟨members, hu⟩ := Catalogue.exists_of_kindOf?_union hkind
      exact covers_mapComposite fun _ _ => .union hu
    | enum =>
      obtain rfl := Except.ok.inj h
      obtain ⟨values, he⟩ := Catalogue.exists_of_kindOf?_enum hkind
      exact covers_mapEnum he
    | inputObject =>
      obtain rfl := Except.ok.inj h
      obtain ⟨fields, hi⟩ := Catalogue.exists_of_kindOf?_inputObject hkind
      exact covers_declared (.inl (.input hi))

/-- **Covered references.** The type of a reference is covered, as the leaves of a type decide. -/
theorem covers_mapType (hc : p.catalogue.WellNamed) {access : Access} {r : TypeRef}
    (h : p.mapType access r = .ok t) : p.Covers t := by
  obtain ⟨u, hu, hleaves⟩ := leaves_mapType h
  have hcovers := covers_mapNamed hc hu
  constructor
  · intro n hn
    rw [TypeExpr.locals, hleaves] at hn
    exact hcovers.locals n hn
  · intro n hn
    rw [TypeExpr.parameters, hleaves] at hn
    exact hcovers.parameters n hn

/-- Whatever a value of an interface can be, it stands for an object or for the interface. -/
theorem covers_interfaceMembers (hc : p.catalogue.WellNamed) (ht : t ∈ p.interfaceMembers name) :
    p.Covers t ∧ ∃ n, t = p.mapComposite n := by
  rw [interfaceMembers] at ht
  by_cases hmapped : p.isMapped name = true
  · rw [if_pos hmapped] at ht
    obtain rfl := List.mem_singleton.mp ht
    exact ⟨covers_mapComposite_mapped hmapped, name, rfl⟩
  · rw [if_neg hmapped] at ht
    obtain ⟨implementor, himpl, rfl⟩ := List.mem_map.mp ht
    exact ⟨covers_mapComposite_implementor hc himpl, implementor, rfl⟩

theorem not_mem_parameters_unionMembers {members : List String} (ht : t ∈ p.unionMembers members)
    (n : String) : n ∉ t.parameters := by
  obtain ⟨member, -, rfl⟩ := List.mem_map.mp ht
  split
  · -- Whatever stands for an object, it is no parameter.
    rcases mapComposite_cases p member with ⟨-, h⟩ | ⟨s, -, h⟩ | ⟨-, -, h⟩
    · rw [h]
      exact List.not_mem_nil
    · rw [h]
      exact List.not_mem_nil
    · rw [h]
      exact List.not_mem_nil
  · exact List.not_mem_nil

/-- The loop over the names that an object implements keeps those of interfaces that the user gives no
type for. -/
theorem mem_extendedInterfaces_iff {o : ObjectType} {i : String × List Field} :
    i ∈ p.extendedInterfaces o ↔ i.1 ∈ o.implements ∧ p.isMapped i.1 = false ∧
      p.catalogue.get? i.1 = some ⟨i.1, .interface i.2⟩ := by
  constructor
  · intro h
    obtain ⟨name, himplements, h⟩ := List.mem_filterMap.mp h
    by_cases hmapped : p.isMapped name = true
    · rw [if_pos hmapped] at h
      nomatch h
    · rw [if_neg hmapped, Option.bind_eq_some_iff] at h
      obtain ⟨⟨n, shape⟩, hget, h⟩ := h
      obtain ⟨-, rfl⟩ := Catalogue.mem_of_get?_eq_some hget
      cases shape with
      | interface fields =>
        obtain rfl := Option.some.inj h
        exact ⟨himplements, by simpa using hmapped, hget⟩
      | _ => nomatch h
  · rintro ⟨himplements, hunmapped, hget⟩
    refine List.mem_filterMap.mpr ⟨i.1, himplements, ?_⟩
    rw [hunmapped, hget]
    rfl

/-- A contract is only taken over from an interface that is implemented and has one. -/
theorem of_mem_extendedInterfaces {o : ObjectType} {i : String × List Field}
    (h : i ∈ p.extendedInterfaces o) : i.1 ∈ o.implements ∧ i ∈ p.unmappedInterfaces := by
  obtain ⟨himplements, hunmapped, hget⟩ := mem_extendedInterfaces_iff.mp h
  have hinterface := Catalogue.mem_interfaces_iff.mpr (Catalogue.mem_of_get?_eq_some hget).1
  exact ⟨himplements, List.mem_filter.mpr ⟨hinterface, by simpa using hunmapped⟩⟩

/-! ## Records and contracts -/

theorem covers_of_inputFields (hc : p.catalogue.WellNamed) {values : List InputValue}
    {fields : List RecordField} (h : List.Forall₂ p.InputField values fields) :
    ∀ t ∈ fields.map (·.type), p.Covers t := by
  intro t ht
  obtain ⟨field, hfield, rfl⟩ := List.mem_map.mp ht
  obtain ⟨value, -, hvalue⟩ := exists_left_of_forall₂ h hfield
  exact covers_mapType hc hvalue.type

theorem covers_of_dataFields (hc : p.catalogue.WellNamed) {fields : List Field}
    {data : List RecordField} (h : List.Forall₂ p.DataField fields data) :
    ∀ t ∈ data.map (·.type), p.Covers t := by
  intro t ht
  obtain ⟨field, hfield, rfl⟩ := List.mem_map.mp ht
  obtain ⟨value, -, hvalue⟩ := exists_left_of_forall₂ h hfield
  exact covers_mapType hc hvalue.type

/-- A type in a contract, arguments apart, is that of a result and stands on its own, or it is what the
contract was given for its values. -/
theorem HandlerFor.valueTypes (hc : p.catalogue.WellNamed) {owner : String}
    {parameter : Option String} {extensions : List Extension} {root : TypeExpr}
    {isSubscription : Bool} {fields : List Field} {made : HandlerWithArgs}
    (h : p.HandlerFor owner parameter extensions root isSubscription fields made)
    (hextensions : ∀ e ∈ extensions, e.root = root)
    (ht : t ∈ (Declaration.handler made.handler).valueTypes) : p.Covers t ∨ t = root := by
  rcases List.mem_append.mp ht with ht | ht
  · obtain ⟨e, he, rfl⟩ := List.mem_map.mp ht
    rw [h.extensions] at he
    exact .inr (hextensions e he)
  · obtain ⟨answer, ha, ht⟩ := List.mem_flatMap.mp ht
    obtain ⟨field, -, record, hanswer, -⟩ := h.exists_field ha
    simp only [List.mem_cons, List.not_mem_nil, or_false] at ht
    obtain rfl | rfl := ht
    · exact .inr hanswer.root
    · exact .inl (covers_mapType hc hanswer.result)

/-- What a contract takes as arguments is nothing, or the record of some arguments. -/
theorem HandlerFor.args {owner : String} {parameter : Option String} {extensions : List Extension}
    {root : TypeExpr} {isSubscription : Bool} {fields : List Field} {made : HandlerWithArgs}
    (h : p.HandlerFor owner parameter extensions root isSubscription fields made) {a : HandlerField}
    (ha : a ∈ made.handler.fields) :
    a.args = .emptyRecord ∨ ∃ r ∈ made.records, a.args = .declared r.name := by
  obtain ⟨field, -, record, hanswer, hrecords⟩ := h.exists_field ha
  obtain ⟨-, hargs, -⟩ | ⟨r, hr, hargs, -⟩ := hanswer.takes.cases
  · exact .inl hargs
  · exact .inr ⟨r, hrecords r hr, hargs⟩

end Project

namespace DeclarationSet

open Project

namespace Parts

variable {s : Parts} {p : Project} {set : DeclarationSet} {d : Declaration}

theorem MadeFrom.mem_declaredNames (hs : s.MadeFrom p set) (hd : s.Declares p d) {n : String}
    (hn : n ∈ d.declaredNames) : n ∈ set.declaredNames :=
  List.mem_flatMap.mpr ⟨d, hs.mem_iff.mpr hd, hn⟩

/-- What is provided is declared. -/
theorem MadeFrom.declares (hs : s.MadeFrom p set) {name : String} (h : p.Provides name) :
    name ∈ set.declaredNames := by
  cases h with
  | data h =>
    obtain ⟨r, hr, hname, -⟩ := exists_right_of_forall₂ hs.objectData h
    exact hs.mem_declaredNames (.objectData hr) (List.mem_singleton.mpr hname.symm)
  | interface h =>
    obtain ⟨r, hr, hname, -⟩ := exists_right_of_forall₂ hs.interfaceData h
    exact hs.mem_declaredNames (.interfaceData hr) (List.mem_singleton.mpr hname.symm)
  | input h =>
    obtain ⟨r, hr, hname, -⟩ := exists_right_of_forall₂ hs.inputs h
    exact hs.mem_declaredNames (.input hr) (List.mem_singleton.mpr hname.symm)
  | enum h hkept =>
    obtain ⟨d, hd, henum⟩ := exists_right_of_forall₂ hs.enums h
    rcases enumDeclaration_cases henum with ⟨symbol, hreplaced, -⟩ | ⟨members, -, rfl⟩
    · nomatch hkept.symm.trans hreplaced
    · exact hs.mem_declaredNames (.enum hd) (List.mem_singleton_self _)
  | union h =>
    obtain ⟨entry, hentry, hunion⟩ := exists_right_of_forall₂ hs.unions h
    exact hs.mem_declaredNames (.union hentry) (List.mem_singleton.mpr hunion.name.symm)

/-- **Types of a declaration.** Outside of the table and apart from arguments, a type stands on its own,
or it is the parameter of the contract it is in. The cases are the parts of a module. -/
theorem MadeFrom.valueTypes (hs : s.MadeFrom p set) (hc : p.catalogue.WellNamed)
    (hd : s.Declares p d) (htable : ∀ entries, d ≠ .table entries) {t : TypeExpr}
    (ht : t ∈ d.valueTypes) :
    p.Covers t ∨ ∃ h n, d = .handler h ∧ h.parameter = some n ∧ t = .parameter n := by
  cases hd with
  | root => nomatch ht
  | helpers => nomatch ht
  | table => exact absurd rfl (htable _)
  | handler hmade =>
    -- The root of a generic contract is its parameter, and that of an object is covered.
    rcases hs.handler_cases hmade with ⟨i, -, hi⟩ | ⟨o, ho, hobject⟩
    · rcases hi.valueTypes hc nofun ht with hcovers | rfl
      · exact .inl hcovers
      · exact .inr ⟨_, _, rfl, hi.parameter, rfl⟩
    · have hroot : p.Covers (p.mapComposite o.1) :=
        covers_mapComposite_object hc (List.mem_filter.mp ho).1
      have hextensions : ∀ e ∈ (p.extendedInterfaces o.2).map fun i =>
          (⟨resolversName i.1, p.mapComposite o.1⟩ : Extension), e.root = p.mapComposite o.1 := by
        intro e he
        obtain ⟨i, -, rfl⟩ := List.mem_map.mp he
        rfl
      rcases hobject.valueTypes hc hextensions ht with hcovers | rfl
      · exact .inl hcovers
      · exact .inl hroot
  | args hmade hr =>
    rcases hs.handler_cases hmade with ⟨i, -, hi⟩ | ⟨o, -, hobject⟩
    · obtain ⟨_, -, hfields⟩ := hi.exists_of_mem_records hr
      exact .inl (covers_of_inputFields hc hfields t ht)
    · obtain ⟨_, -, hfields⟩ := hobject.exists_of_mem_records hr
      exact .inl (covers_of_inputFields hc hfields t ht)
  | objectData hr =>
    obtain ⟨o, -, -, hfields⟩ := exists_left_of_forall₂ hs.objectData hr
    exact .inl (covers_of_dataFields hc hfields t ht)
  | interfaceData hr =>
    obtain ⟨i, -, -, hfields⟩ := exists_left_of_forall₂ hs.interfaceData hr
    exact .inl (covers_of_dataFields hc hfields t ht)
  | input hr =>
    obtain ⟨i, -, -, hfields⟩ := exists_left_of_forall₂ hs.inputs hr
    exact .inl (covers_of_inputFields hc hfields t ht)
  | enum _ => nomatch ht
  | reexport _ => nomatch ht
  | implementors hname => exact .inl (covers_interfaceMembers hc ht).1
  | union hentry =>
    obtain ⟨u, -, hunion⟩ := exists_left_of_forall₂ hs.unions hentry
    obtain ⟨member, -, hmember⟩ := exists_left_of_forall₂ hunion.members ht
    exact .inl (covers_mapNamed hc hmember)

/-- With arguments there are also the records of arguments, which the module declares. -/
theorem MadeFrom.types (hs : s.MadeFrom p set) (hc : p.catalogue.WellNamed) (hd : s.Declares p d)
    (htable : ∀ entries, d ≠ .table entries) {t : TypeExpr} (ht : t ∈ d.types) :
    p.Covers t ∨ (∃ h n, d = .handler h ∧ h.parameter = some n ∧ t = .parameter n) ∨
      ∃ r, s.Declares p (.args r) ∧ t = .declared r.name := by
  rcases Declaration.mem_types_iff.mp ht with ht | ⟨h, rfl, a, ha, rfl⟩
  · exact (hs.valueTypes hc hd htable ht).imp_right .inl
  · cases hd with
    | handler hmade =>
      have hargs : a.args = .emptyRecord ∨ ∃ r, s.Declares p (.args r) ∧
          a.args = .declared r.name := by
        rcases hs.handler_cases hmade with ⟨i, -, hi⟩ | ⟨o, -, hobject⟩
        · exact (hi.args ha).imp_right fun ⟨r, hr, h⟩ => ⟨r, .args hmade hr, h⟩
        · exact (hobject.args ha).imp_right fun ⟨r, hr, h⟩ => ⟨r, .args hmade hr, h⟩
      rcases hargs with hargs | hargs
      · rw [hargs]
        exact .inl covers_emptyRecord
      · exact .inr (.inr hargs)

/-- A parameter is used in the handler that has it, and nowhere else. -/
theorem MadeFrom.parameters (hs : s.MadeFrom p set) (hc : p.catalogue.WellNamed)
    (hd : s.Declares p d) {t : TypeExpr} (ht : t ∈ d.types) {n : String} (hn : n ∈ t.parameters) :
    ∃ h, d = .handler h ∧ h.parameter = some n := by
  by_cases htable : ∃ entries, d = .table entries
  · -- In the table there are no parameters at all.
    obtain ⟨entries, rfl⟩ := htable
    cases hd
    obtain ⟨entry, hentry, ht⟩ := List.mem_flatMap.mp ht
    rcases List.mem_append.mp hentry with hentry | hentry
    · obtain ⟨u, -, rfl⟩ := List.mem_map.mp hentry
      exact absurd hn (not_mem_parameters_unionMembers ht n)
    · obtain ⟨i, -, rfl⟩ := List.mem_map.mp hentry
      exact absurd hn ((covers_interfaceMembers hc ht).1.parameters n)
  · have hnot : ∀ entries, d ≠ .table entries := fun entries h => htable ⟨entries, h⟩
    rcases hs.types hc hd hnot ht with hcovers | ⟨h, n', rfl, hparameter, rfl⟩ | ⟨r, -, rfl⟩
    · exact absurd hn (hcovers.parameters n)
    · obtain rfl := List.mem_singleton.mp hn
      exact ⟨h, rfl, hparameter⟩
    · nomatch hn

end Parts

/-- A module in which every reference can be followed. -/
structure Closed (set : DeclarationSet) (p : Project) : Prop where
  /-- Outside of the table, a name of the module is declared, or is that of an unknown scalar. -/
  locals : ∀ d ∈ set.declarations, (∀ entries, d ≠ .table entries) →
    ∀ t ∈ d.types, ∀ n ∈ t.locals, n ∈ set.declaredNames ∨ p.IsPlaceholder n
  /-- A parameter is that of the contract it is in. -/
  parameters : ∀ d ∈ set.declarations, ∀ t ∈ d.types, ∀ n ∈ t.parameters,
    ∃ h, d = .handler h ∧ h.parameter = some n
  /-- A contract that is taken over is a generic one. -/
  extensions : ∀ h, .handler h ∈ set.declarations → ∀ e ∈ h.extensions,
    ∃ g, .handler g ∈ set.declarations ∧ g.name = e.contract ∧ g.parameter.isSome = true
  /-- Every type of the root contract has a contract. -/
  roots : ∀ c, .root c ∈ set.declarations → ∀ n ∈ c.required ++ c.optional,
    ∃ h, .handler h ∈ set.declarations ∧ h.name = resolversName n
  /-- What a contract says is about a field of the schema, and it takes the arguments of the field. -/
  arguments : ∀ h, .handler h ∈ set.declarations → ∀ a ∈ h.fields,
    ∃ owner fields, p.catalogue.HasFields owner fields ∧ h.name = resolversName owner ∧
      ∃ field ∈ fields, a.name = field.name ∧ set.ListsArguments p field a.args

namespace Parts.MadeFrom

variable {s : Parts} {set : DeclarationSet} {p : Project} {made : HandlerWithArgs}

/-- What a contract says of a field is the signature of a field of the type whose contract it is. -/
theorem exists_isSignature (hs : s.MadeFrom p set) (hmade : made ∈ s.handlers) {a : HandlerField}
    (ha : a ∈ made.handler.fields) :
    ∃ owner fields, p.catalogue.HasFields owner fields ∧ made.handler.name = resolversName owner ∧
      ∃ field ∈ fields, ∃ root, set.IsSignature p root field a := by
  rcases hs.handler_cases hmade with ⟨i, hi, hhandler⟩ | ⟨o, ho, hhandler⟩
  · obtain ⟨field, hfield, hsignature, -⟩ := hs.isSignature_of_mem hmade hhandler ha
    exact ⟨i.1, i.2, .interface (List.mem_filter.mp hi).1, hhandler.name, field, hfield, _,
      hsignature⟩
  · -- The fields of the contract are some of those of the object.
    obtain ⟨field, hfield, hsignature, -⟩ := hs.isSignature_of_mem hmade hhandler ha
    exact ⟨o.1, o.2.fields, .object (List.mem_filter.mp ho).1, hhandler.name, field,
      (List.mem_filter.mp hfield).1, _, hsignature⟩

theorem arguments (hs : s.MadeFrom p set) (hmade : made ∈ s.handlers) {a : HandlerField}
    (ha : a ∈ made.handler.fields) :
    ∃ owner fields, p.catalogue.HasFields owner fields ∧ made.handler.name = resolversName owner ∧
      ∃ field ∈ fields, a.name = field.name ∧ set.ListsArguments p field a.args := by
  obtain ⟨owner, fields, hfields, hname, field, hfield, _, hsignature⟩ :=
    hs.exists_isSignature hmade ha
  exact ⟨owner, fields, hfields, hname, field, hfield, hsignature.name, hsignature.arguments⟩

/-- What an object takes over is the contract of an interface without a type from the user. -/
theorem extensions (hs : s.MadeFrom p set) (hmade : made ∈ s.handlers) {e : Extension}
    (he : e ∈ made.handler.extensions) :
    ∃ g ∈ s.handlers, g.handler.name = e.contract ∧ g.handler.parameter.isSome = true := by
  rcases hs.handler_cases hmade with ⟨i, -, hhandler⟩ | ⟨o, -, hhandler⟩
  · rw [hhandler.extensions] at he
    nomatch he
  · rw [hhandler.extensions] at he
    obtain ⟨i, hi, rfl⟩ := List.mem_map.mp he
    obtain ⟨g, hg, hinterface⟩ := hs.exists_interfaceHandler (of_mem_extendedInterfaces hi).2
    exact ⟨g, hg, hinterface.name, by rw [hinterface.parameter]; rfl⟩

/-- Field by field of `Closed`, each from the parts that the set was made of. -/
theorem closed (hs : s.MadeFrom p set) (hc : p.catalogue.WellNamed) : set.Closed p := by
  refine ⟨fun d hd htable t ht n hn => ?_, fun d hd t ht n hn => ?_, fun h hh e he => ?_,
    fun c hc n hn => ?_, fun h hh a ha => ?_⟩
  · -- A name that resolution leaves to the module is provided, and the others are those of records.
    rcases hs.types hc (hs.mem_iff.mp hd) htable ht with hcovers | ⟨_, _, -, -, rfl⟩ | ⟨r, hr, rfl⟩
    · exact (hcovers.locals n hn).imp_left hs.declares
    · nomatch hn
    · obtain rfl := List.mem_singleton.mp hn
      exact .inl (hs.mem_declaredNames hr (List.mem_singleton_self _))
  · exact hs.parameters hc (hs.mem_iff.mp hd) ht hn
  · cases hs.mem_iff.mp hh with
    | handler hmade =>
      obtain ⟨g, hg, hname, hparameter⟩ := hs.extensions hmade he
      exact ⟨g.handler, hs.mem_iff.mpr (.handler hg), hname, hparameter⟩
  · cases hs.mem_iff.mp hc with
    | root =>
      -- The two lists of names are those of the objects that have handlers.
      have hn : n ∈ (p.requiredObjects ++ p.optionalObjects).map (·.1) := by
        rwa [List.map_append]
      obtain ⟨o, ho, rfl⟩ := List.mem_map.mp hn
      obtain ⟨made, hmade, hhandler⟩ :=
        hs.exists_objectHandler (mem_requiredObjects_append_iff.mp ho)
      exact ⟨made.handler, hs.mem_iff.mpr (.handler hmade), hhandler.name⟩
  · cases hs.mem_iff.mp hh with
    | handler hmade => exact hs.arguments hmade ha

end Parts.MadeFrom

end DeclarationSet

/-- **References of a module.** From a schema that loads, and with any overrides, a module that has
declarations is closed. -/
theorem Catalogue.closed_of_load {text : String} {c : Catalogue} (h : load text = .ok c)
    (overrides : Overrides) {set : DeclarationSet}
    (hset : (⟨c, overrides⟩ : Project).declarations = .ok set) : set.Closed ⟨c, overrides⟩ := by
  obtain ⟨s, hs⟩ := Project.declarations_eq_ok hset
  exact hs.closed (load_wellNamed h)

/-- A text in which an object takes over a contract with arguments, and a scalar is left open. -/
def blogText : String :=
  "scalar Date enum Tag { ON } interface Node { at(page: Tag): Date } " ++
    "type Post implements Node { at(page: Tag): Date } union Result = Post " ++
    "type Query { all: [Result] }"

/-- Its posts are those of the user. -/
def blogOverrides : Overrides :=
  { Overrides.default with mappers := ⟨[("Post", .named "./rows" "PostRow")]⟩ }

theorem Catalogue.closed_of_load_blogText :
    ∃ c set, load blogText = .ok c ∧ (⟨c, blogOverrides⟩ : Project).declarations = .ok set ∧
      set.Closed ⟨c, blogOverrides⟩ := by
  have heval : ((load blogText).toOption.bind fun c =>
      ((⟨c, blogOverrides⟩ : Project).declarations).toOption).isSome = true := by decide +kernel
  obtain ⟨set, hset⟩ := Option.isSome_iff_exists.mp heval
  obtain ⟨c, hc, hset⟩ := Option.bind_eq_some_iff.mp hset
  have hload := toOption_eq_some_iff.mp hc
  have hdeclarations := toOption_eq_some_iff.mp hset
  exact ⟨c, set, hload, hdeclarations, closed_of_load hload blogOverrides hdeclarations⟩

end ResolverContracts
