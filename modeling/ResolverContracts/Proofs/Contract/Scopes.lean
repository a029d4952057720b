import ResolverContracts.Proofs.Contract.Imports
import ResolverContracts.Proofs.Contract.Inheritance
/-!
# Names inside a declaration

A name in a declaration means what is nearest: a type parameter of the declaration itself, then a
declaration of the module, then an import. The check of names before writing keeps the last two apart,
so a reference finds the declaration or the import it was made for, as long as no parameter is in the
way (`DeclarationSet.lookup_eq_iff`).

Parameters are not looked at by the check. The helpers have three, `R`, `A` and `T`, and the contract
of an interface has `T`; a type of the schema can have that name, and so can a symbol of the user. What
then is written for a field of the interface is the parameter. `Project.GoesBy` lists the names that a
module has for a type, and `Parts.MadeFrom.captures_iff` says when that happens in a contract.
-/

set_option autoImplicit false

namespace ResolverContracts

/-! ## Names of references -/

namespace TypeExpr

/-- The names in a type that refer to something, in the module or outside. -/
def names (t : TypeExpr) : List String :=
  t.leaves.filterMap fun
    | named ref => some ref.name
    | _ => none

theorem names_eq_of_leaves {t u : TypeExpr} (h : t.leaves = u.leaves) : t.names = u.names :=
  congrArg (List.filterMap _) h

theorem mem_names_unionOf {types : List TypeExpr} {n : String} :
    n ∈ (unionOf types).names ↔ ∃ t ∈ types, n ∈ t.names := by
  rw [names, leaves_unionOf, List.filterMap_flatMap, List.mem_flatMap]
  rfl

theorem mem_names_declared {name n : String} : n ∈ (declared name).names ↔ n = name :=
  List.mem_singleton

theorem mem_names_external {s : Symbol} {name n : String} :
    n ∈ (external s name).names ↔ n = s.localName name :=
  List.mem_singleton

end TypeExpr

/-! ## Meaning of names -/

/-- The type parameters of the helpers that are given the context. -/
def helperParameters : List String := ["R", "A", "T"]

/-- The type parameters of a declaration. -/
def Declaration.typeParameters : Declaration → List String
  | .handler contract => contract.parameter.toList
  | .helpers => helperParameters
  | _ => []

/-- A type parameter of the declaration has the name of a reference in it. -/
def Declaration.Captures (d : Declaration) (n : String) : Prop :=
  n ∈ d.typeParameters ∧ ∃ t ∈ d.types, n ∈ t.names

/-- What a name means where it is written. -/
inductive Meaning
  | parameter (name : String)
  | declaration (name : String)
  | imported (entry : ImportEntry)
  deriving DecidableEq

namespace DeclarationSet

/-- What a name means in a module with these imports, behind some type parameters. -/
def lookup (set : DeclarationSet) (ledger : ImportLedger) (parameters : List String)
    (n : String) : Option Meaning :=
  if parameters.contains n then some (.parameter n)
  else if set.declaredNames.contains n then some (.declaration n)
  else (ledger.find? n).map .imported

/-- What a reference was made for: a declaration of the module, or a symbol that is imported. -/
inductive Intends (set : DeclarationSet) : NamedRef → Meaning → Prop
  | declaration {n : String} (h : n ∈ set.declaredNames) : Intends set (.declared n) (.declaration n)
  | imported {target : External} {e : ImportEntry} (h : target.needed? = some e) :
    Intends set (.external target) (.imported e)

variable {set : DeclarationSet} {ledger : ImportLedger} {parameters : List String} {n : String}

theorem lookup_parameter (h : n ∈ parameters) :
    set.lookup ledger parameters n = some (.parameter n) := by
  rw [lookup, if_pos (by simpa using h)]

theorem lookup_declaration (h : n ∉ parameters) (hn : n ∈ set.declaredNames) :
    set.lookup ledger parameters n = some (.declaration n) := by
  rw [lookup, if_neg (by simpa using h), if_pos (by simpa using hn)]

/-- An import is found because it has not the name of a declaration, and no other import has its name. -/
theorem lookup_imported (hledger : set.checkedImports = .ok ledger) {e : ImportEntry}
    (he : e ∈ ledger.entries) (h : e.name ∉ parameters) :
    set.lookup ledger parameters e.name = some (.imported e) := by
  obtain ⟨-, himports, hshadowed⟩ := checkedImports_eq_ok_iff.mp hledger
  have hfind : ledger.find? e.name = some e :=
    (find?_key_eq_some_iff (nodup_names_imports himports)).mpr ⟨he, rfl⟩
  rw [lookup, if_neg (by simpa using h), if_neg (by simpa using hshadowed e he), hfind]
  rfl

theorem name_of_needed? {target : External} {e : ImportEntry} (h : target.needed? = some e) :
    e.name = target.name := by
  rw [External.needed?] at h
  cases hsymbol : target.symbol with
  | verbatim text =>
    rw [hsymbol] at h
    cases h
  | imported path binding rename =>
    rw [hsymbol] at h
    rw [← Option.some.inj h]

/-- **References.** In a module that passed the check of names, a reference means what it was made for,
be it a declaration or an import, unless a parameter has its name. -/
theorem lookup_eq_iff (hledger : set.checkedImports = .ok ledger) {ref : NamedRef} {m : Meaning}
    (hintends : set.Intends ref m)
    (hneeded : ∀ target, ref = .external target → ∀ e, target.needed? = some e → e ∈ ledger.entries) :
    set.lookup ledger parameters ref.name = some m ↔ ref.name ∉ parameters := by
  constructor
  · -- Behind a parameter of the name, the name means the parameter.
    intro hlookup hparameter
    rw [lookup_parameter hparameter] at hlookup
    cases hintends with
    | declaration _ => nomatch hlookup
    | imported _ => nomatch hlookup
  · intro hfree
    cases hintends with
    | declaration hn => exact lookup_declaration hfree hn
    | @imported target e h =>
      have hname : e.name = (NamedRef.external target).name := name_of_needed? h
      rw [← hname] at hfree ⊢
      exact lookup_imported hledger (hneeded target rfl e h) hfree

end DeclarationSet

/-! ## Names of a type of the schema -/

namespace Project

/-- Whether the module has a name for a type of the schema. Built-in scalars are primitives, and the
roots of queries and mutations are the record without fields. -/
def isNamed (p : Project) (name : String) : Bool :=
  match p.catalogue.kindOf? name with
  | some .scalar => !isBuiltinScalar name
  | some .object => !p.catalogue.roots.isQueryOrMutation name
  | some _ => true
  | none => false

/-- The symbol that the user gives for a type. It is looked up in the section for its kind. -/
def symbolOf? (p : Project) (name : String) : Option Symbol :=
  match p.catalogue.kindOf? name with
  | some .scalar => p.overrides.scalars.get? name
  | some .enum => p.overrides.enumValues.get? name
  | some .object | some .interface | some .union => p.overrides.mappers.get? name
  | some .inputObject | none => none

/-- The names by which the module refers to the values of a type of the schema: its own, that of the
user's symbol for it, and for an interface those of the user's symbols for its implementors. -/
inductive GoesBy (p : Project) (name : String) : String → Prop
  | own (hnamed : p.isNamed name = true) (h : p.symbolOf? name = none) : GoesBy p name name
  | given {s : Symbol} (hnamed : p.isNamed name = true) (h : p.symbolOf? name = some s) :
    GoesBy p name (s.localName name)
  | implementor {o : String} {s : Symbol} (hkind : p.catalogue.kindOf? name = some .interface)
    (h : p.symbolOf? name = none) (ho : o ∈ p.catalogue.implementors name)
    (hdata : p.catalogue.roots.isQueryOrMutation o = false)
    (hs : p.overrides.mappers.get? o = some s) : GoesBy p name (s.localName o)

variable {p : Project} {name n : String}

/-- What stands for an object, a union or a mapped interface has one name at most. -/
theorem mem_names_mapComposite_iff : n ∈ (p.mapComposite name).names ↔
    p.catalogue.roots.isQueryOrMutation name = false ∧
      ((p.overrides.mappers.get? name = none ∧ n = name) ∨
        ∃ s, p.overrides.mappers.get? name = some s ∧ n = s.localName name) := by
  rw [mapComposite]
  cases hroot : p.catalogue.roots.isQueryOrMutation name with
  | true => exact iff_of_false List.not_mem_nil fun h => absurd h.1 (by simp)
  | false =>
    rw [if_neg (by simp)]
    cases hget : p.overrides.mappers.get? name with
    | some s => simp [TypeExpr.mem_names_external]
    | none => simp [TypeExpr.mem_names_declared]

/-- What stands for an interface without a type from the user has its name, and those of the types
that the user gives for its implementors. -/
theorem mem_names_mapInterface_iff (hmapped : p.isMapped name = false) :
    n ∈ (p.mapInterface name).names ↔ n = name ∨
      ∃ o ∈ p.catalogue.implementors name, p.catalogue.roots.isQueryOrMutation o = false ∧
        ∃ s, p.overrides.mappers.get? o = some s ∧ n = s.localName o := by
  rw [mapInterface, if_neg (by simp [hmapped]), TypeExpr.mem_names_unionOf]
  constructor
  · rintro ⟨t, ht, hn⟩
    rcases List.mem_append.mp ht with ht | ht
    · obtain ⟨o, ho, rfl⟩ := List.mem_map.mp ht
      obtain ⟨ho, hgiven⟩ := List.mem_filter.mp ho
      obtain ⟨hdata, ⟨hget, -⟩ | ⟨s, hget, rfl⟩⟩ := mem_names_mapComposite_iff.mp hn
      · rw [isMapped, SymbolMap.contains_eq_isSome, hget] at hgiven
        cases hgiven
      · exact .inr ⟨o, ho, hdata, s, hget, rfl⟩
    · obtain rfl := List.mem_singleton.mp ht
      exact .inl (TypeExpr.mem_names_declared.mp hn)
  · rintro (rfl | ⟨o, ho, hdata, s, hget, rfl⟩)
    · exact ⟨_, List.mem_append_right _ (List.mem_singleton_self _),
        TypeExpr.mem_names_declared.mpr rfl⟩
    · have hgiven : p.isMapped o = true := by
        rw [isMapped, SymbolMap.contains_eq_isSome, hget]
        rfl
      refine ⟨p.mapComposite o, List.mem_append_left _ ?_, ?_⟩
      · exact List.mem_map_of_mem (List.mem_filter.mpr ⟨ho, hgiven⟩)
      · exact mem_names_mapComposite_iff.mpr ⟨hdata, .inr ⟨s, hget, rfl⟩⟩

theorem mem_names_mapScalar_iff : n ∈ (p.mapScalar name).names ↔ isBuiltinScalar name = false ∧
    ((p.overrides.scalars.get? name = none ∧ n = name) ∨
      ∃ s, p.overrides.scalars.get? name = some s ∧ n = s.localName name) := by
  rcases p.mapScalar_cases name with ⟨hbuiltin, type, h⟩ | ⟨hbuiltin, s, hget, h⟩ |
    ⟨hbuiltin, hget, h⟩
  · rw [h, hbuiltin]
    exact iff_of_false List.not_mem_nil fun h => absurd h.1 (by simp)
  · rw [h, hbuiltin, hget]
    simp [TypeExpr.mem_names_external]
  · rw [h, hbuiltin, hget]
    simp [TypeExpr.mem_names_declared]

theorem mem_names_mapEnum_iff : n ∈ (p.mapEnum name).names ↔
    (p.overrides.enumValues.get? name = none ∧ n = name) ∨
      ∃ s, p.overrides.enumValues.get? name = some s ∧ n = s.localName name := by
  rw [mapEnum]
  cases hget : p.overrides.enumValues.get? name with
  | some s => simp [TypeExpr.mem_names_external]
  | none => simp [TypeExpr.mem_names_declared]

/-- What a type goes by, apart from the implementors of an interface. -/
theorem goesBy_iff_of_ne_interface (hkind : p.catalogue.kindOf? name ≠ some .interface) :
    p.GoesBy name n ↔ p.isNamed name = true ∧
      ((p.symbolOf? name = none ∧ n = name) ∨
        ∃ s, p.symbolOf? name = some s ∧ n = s.localName name) := by
  constructor
  · intro h
    cases h with
    | own hnamed h => exact ⟨hnamed, .inl ⟨h, rfl⟩⟩
    | given hnamed h => exact ⟨hnamed, .inr ⟨_, h, rfl⟩⟩
    | implementor hinterface => exact absurd hinterface hkind
  · rintro ⟨hnamed, ⟨h, rfl⟩ | ⟨s, h, rfl⟩⟩
    · exact .own hnamed h
    · exact .given hnamed h

theorem goesBy_iff_of_interface (hkind : p.catalogue.kindOf? name = some .interface) :
    p.GoesBy name n ↔ (∃ s, p.overrides.mappers.get? name = some s ∧ n = s.localName name) ∨
      p.overrides.mappers.get? name = none ∧ (n = name ∨
        ∃ o ∈ p.catalogue.implementors name, p.catalogue.roots.isQueryOrMutation o = false ∧
          ∃ s, p.overrides.mappers.get? o = some s ∧ n = s.localName o) := by
  have hnamed : p.isNamed name = true := by rw [isNamed, hkind]
  have hsymbol : p.symbolOf? name = p.overrides.mappers.get? name := by rw [symbolOf?, hkind]
  constructor
  · intro h
    cases h with
    | own _ h => exact .inr ⟨hsymbol ▸ h, .inl rfl⟩
    | given _ h => exact .inl ⟨_, hsymbol ▸ h, rfl⟩
    | implementor _ h ho hdata hs => exact .inr ⟨hsymbol ▸ h, .inr ⟨_, ho, hdata, _, hs, rfl⟩⟩
  · rintro (⟨s, h, rfl⟩ | ⟨h, rfl | ⟨o, ho, hdata, s, hs, rfl⟩⟩)
    · exact .given hnamed (hsymbol ▸ h)
    · exact .own hnamed (hsymbol ▸ h)
    · exact .implementor hkind (hsymbol ▸ h) ho hdata hs

/-- **Names of a type.** The names in what resolution answers for a type are those it goes by. The cases
are the kinds of type; that only objects are roots is a rule of the schema. -/
theorem mem_names_mapNamed_iff
    (hroots : ∀ name, p.catalogue.roots.isQueryOrMutation name = true →
      p.catalogue.kindOf? name = some .object) :
    (∃ u, p.mapNamed name = .ok u ∧ n ∈ u.names) ↔ p.GoesBy name n := by
  have hroot {k : Kind} (hkind : p.catalogue.kindOf? name = some k) (hk : k ≠ .object) :
      p.catalogue.roots.isQueryOrMutation name = false := by
    by_contra hroot
    exact hk (Option.some.inj (hkind.symm.trans (hroots name (by simpa using hroot))))
  cases hkind : p.catalogue.kindOf? name with
  | none =>
    rw [goesBy_iff_of_ne_interface (by simp [hkind])]
    simp [mapNamed, isNamed, hkind]
  | some kind =>
    cases kind with
    | scalar =>
      rw [goesBy_iff_of_ne_interface (by simp [hkind])]
      simp [mapNamed, isNamed, symbolOf?, hkind, mem_names_mapScalar_iff]
    | object =>
      rw [goesBy_iff_of_ne_interface (by simp [hkind])]
      simp [mapNamed, isNamed, symbolOf?, hkind, mem_names_mapComposite_iff]
    | union =>
      rw [goesBy_iff_of_ne_interface (by simp [hkind])]
      simp [mapNamed, isNamed, symbolOf?, hkind, mem_names_mapComposite_iff, hroot hkind]
    | enum =>
      rw [goesBy_iff_of_ne_interface (by simp [hkind])]
      simp [mapNamed, isNamed, symbolOf?, hkind, mem_names_mapEnum_iff]
    | inputObject =>
      rw [goesBy_iff_of_ne_interface (by simp [hkind])]
      simp [mapNamed, isNamed, symbolOf?, hkind, TypeExpr.mem_names_declared]
    | interface =>
      rw [goesBy_iff_of_interface hkind]
      cases hget : p.overrides.mappers.get? name with
      | some s =>
        have hmapped : p.isMapped name = true := by
          rw [isMapped, SymbolMap.contains_eq_isSome, hget]
          rfl
        simp [mapNamed, hkind, mapInterface, hmapped, mem_names_mapComposite_iff, hget, hroot hkind]
      | none =>
        have hmapped : p.isMapped name = false := by
          rw [isMapped, SymbolMap.contains_eq_isSome, hget]
          rfl
        simp [mapNamed, hkind, mem_names_mapInterface_iff hmapped]

/-- So are those in the type of a reference. -/
theorem mem_names_mapType_iff
    (hroots : ∀ name, p.catalogue.roots.isQueryOrMutation name = true →
      p.catalogue.kindOf? name = some .object)
    {access : Access} {r : TypeRef} {t : TypeExpr} (h : p.mapType access r = .ok t) :
    n ∈ t.names ↔ p.GoesBy r.leaf n := by
  obtain ⟨u, hu, hleaves⟩ := leaves_mapType h
  rw [TypeExpr.names_eq_of_leaves hleaves, ← mem_names_mapNamed_iff hroots]
  constructor
  · intro hn
    exact ⟨u, hu, hn⟩
  · rintro ⟨u', hu', hn⟩
    obtain rfl := Except.ok.inj (hu.symm.trans hu')
    exact hn

end Project

/-! ## Parameters that have the name of a type -/

/-- The name of a record of arguments is longer than that of a parameter. -/
theorem argsRecordName_ne (owner field : String) : argsRecordName owner field ≠ "T" := by
  intro h
  have hlength := congrArg String.length h
  rw [argsRecordName, String.length_append, String.length_append] at hlength
  have hargs : "Args".length = 4 := rfl
  have hparameter : "T".length = 1 := rfl
  omega

namespace DeclarationSet

open Project

namespace Parts.MadeFrom

variable {s : Parts} {p : Project} {set : DeclarationSet} {made : HandlerWithArgs}

/-- The names in the contract of an interface, as far as they could be that of its parameter, are those
in the results of its fields. -/
theorem captures_interfaceHandler_iff
    (hroots : ∀ name, p.catalogue.roots.isQueryOrMutation name = true →
      p.catalogue.kindOf? name = some .object)
    {i : String × List Field} (hi : p.InterfaceHandler i made) {n : String} :
    (Declaration.handler made.handler).Captures n ↔
      n = "T" ∧ ∃ f ∈ i.2, p.GoesBy f.type.leaf "T" := by
  have hparameters : (Declaration.handler made.handler).typeParameters = ["T"] := by
    rw [Declaration.typeParameters, hi.parameter]
    rfl
  rw [Declaration.Captures, hparameters, List.mem_singleton, and_congr_right_iff]
  rintro rfl
  constructor
  · rintro ⟨t, ht, hn⟩
    rcases List.mem_append.mp ht with ht | ht
    · rw [hi.extensions] at ht
      nomatch ht
    · obtain ⟨answer, ha, ht⟩ := List.mem_flatMap.mp ht
      obtain ⟨field, hfield, record, hanswer, -⟩ := hi.exists_field ha
      simp only [List.mem_cons, List.not_mem_nil, or_false] at ht
      obtain rfl | rfl | rfl := ht
      · -- The root is the parameter itself, which is no name of a reference.
        rw [hanswer.root] at hn
        nomatch hn
      · rcases hanswer.takes.cases with ⟨-, hargs, -⟩ | ⟨r, -, hargs, -, hname, -⟩
        · rw [show answer.args = _ from hargs] at hn
          nomatch hn
        · rw [show answer.args = _ from hargs, TypeExpr.mem_names_declared, hname] at hn
          exact absurd hn.symm (argsRecordName_ne _ _)
      · exact ⟨field, hfield, (mem_names_mapType_iff hroots hanswer.result).mp hn⟩
  · rintro ⟨field, hfield, hgoes⟩
    obtain ⟨answer, ha, record, hanswer, -⟩ := hi.exists_answer hfield
    refine ⟨answer.result, List.mem_append_right _ (List.mem_flatMap.mpr ⟨answer, ha, by simp⟩), ?_⟩
    exact (mem_names_mapType_iff hroots hanswer.result).mpr hgoes

/-- **Captures.** A parameter of a declaration has the name of a reference in it exactly in the contracts
of interfaces in which a field has a type that goes by the name of the parameter. -/
theorem captures_iff (hs : s.MadeFrom p set) (hc : p.catalogue.WellNamed)
    (hroots : ∀ name, p.catalogue.roots.isQueryOrMutation name = true →
      p.catalogue.kindOf? name = some .object)
    {d : Declaration} (hd : d ∈ set.declarations) {n : String} :
    d.Captures n ↔ n = "T" ∧ ∃ i ∈ p.unmappedInterfaces, ∃ g, d = .handler g ∧
      g.name = resolversName i.1 ∧ ∃ f ∈ i.2, p.GoesBy f.type.leaf "T" := by
  constructor
  · rintro ⟨hparameter, t, ht, hn⟩
    cases hs.mem_iff.mp hd with
    | handler hmade =>
      rcases hs.handler_cases hmade with ⟨i, hi, hhandler⟩ | ⟨o, -, hhandler⟩
      · obtain ⟨rfl, hfield⟩ :=
          (captures_interfaceHandler_iff hroots hhandler).mp ⟨hparameter, t, ht, hn⟩
        exact ⟨rfl, i, hi, _, rfl, hhandler.name, hfield⟩
      · -- The contract of an object has no parameter.
        rw [Declaration.typeParameters, hhandler.parameter] at hparameter
        nomatch hparameter
    | helpers => nomatch ht
    | _ => nomatch hparameter
  · rintro ⟨rfl, i, hi, g, rfl, hname, hfield⟩
    cases hs.mem_iff.mp hd with
    | handler hmade =>
      have hinterface := (List.mem_filter.mp hi).1
      have hhandler := hs.interfaceHandler_of_name hc hmade hinterface hname
      exact (captures_interfaceHandler_iff hroots hhandler).mpr ⟨rfl, hfield⟩

end Parts.MadeFrom

end DeclarationSet

/-- **Names in scope.** In a module that is generated from a schema, a reference means the declaration
or the symbol it was made for exactly if no type parameter of the declaration around has its name, and
the context means the user's symbol exactly if it has not the name of a parameter of the helpers. A
parameter has the name of a reference just in the contracts of interfaces: it is `T`, and a field of
the interface has a type that goes by the name `T`. -/
theorem Catalogue.scopes_of_load {text : String} {c : Catalogue} (h : load text = .ok c)
    (overrides : Overrides) {output : String}
    (hgenerate : (⟨c, overrides⟩ : Project).generate = .ok output) :
    let p : Project := ⟨c, overrides⟩
    ∃ set ledger, p.declarations = .ok set ∧ set.checkedImports = .ok ledger ∧
      (∀ d ∈ set.declarations, ∀ t ∈ d.types,
        (∀ n ∈ t.parameters, set.lookup ledger d.typeParameters n = some (.parameter n)) ∧
        ∀ ref, .named ref ∈ t.leaves → ∀ m, set.Intends ref m →
          (set.lookup ledger d.typeParameters ref.name = some m ↔
            ref.name ∉ d.typeParameters)) ∧
      set.context = overrides.contextType.toExternal "Context" ∧
      (∀ e, set.context.needed? = some e →
        (set.lookup ledger helperParameters set.context.name = some (.imported e) ↔
          set.context.name ∉ helperParameters)) ∧
      ∀ d ∈ set.declarations, ∀ n, d.Captures n ↔ n = "T" ∧ ∃ i ∈ p.unmappedInterfaces, ∃ g,
        d = .handler g ∧ g.name = resolversName i.1 ∧ ∃ f ∈ i.2, p.GoesBy f.type.leaf "T" := by
  intro p
  obtain ⟨set, ledger, hset, hledger⟩ := Project.generate_eq_ok hgenerate
  obtain ⟨s, hs⟩ := Project.declarations_eq_ok hset
  have hc := load_wellNamed h
  have himports := DeclarationSet.imports_eq_ok hledger
  refine ⟨set, ledger, hset, hledger, fun d hd t ht => ⟨fun n hn => ?_, fun ref href m hintends => ?_⟩,
    Project.context_eq_of_declarations hset, fun e he => ?_, fun d hd n => ?_⟩
  · obtain ⟨g, rfl, hparameter⟩ := hs.parameters hc (hs.mem_iff.mp hd) ht hn
    refine DeclarationSet.lookup_parameter ?_
    rw [Declaration.typeParameters, hparameter]
    exact List.mem_singleton_self n
  · refine DeclarationSet.lookup_eq_iff hledger hintends ?_
    rintro target rfl e he
    exact DeclarationSet.mem_entries_of_mem_types himports hd ht
      ((TypeExpr.mem_externals_iff t).mpr href) he
  · refine DeclarationSet.lookup_eq_iff hledger (.imported he) ?_
    rintro target htarget e' he'
    obtain rfl := NamedRef.external.inj htarget
    exact DeclarationSet.mem_entries_of_mem_externals himports List.mem_cons_self he'
  · exact hs.captures_iff hc (fun _ => kindOf?_of_isQueryOrMutation h) hd

/-- A type has the name of the parameter, and an interface has a field of the type. -/
def capturedText : String := "type T { a: Int } interface Node { t: T } type Query { n: Node }"

/-- The field that has the type. -/
def capturedField : Field := ⟨"t", .named "T", []⟩

/-- The text has a module, in which the interface is declared and the type goes by its name. -/
theorem exists_generate_capturedText : ∃ c output, Catalogue.load capturedText = .ok c ∧
    (⟨c, .default⟩ : Project).generate = .ok output ∧
    (⟨c, .default⟩ : Project).unmappedInterfaces = [("Node", [capturedField])] ∧
    (⟨c, .default⟩ : Project).GoesBy "T" "T" := by
  have heval : ((Catalogue.load capturedText).toOption.bind fun c =>
      (⟨c, .default⟩ : Project).generate.toOption.map fun _ =>
        ((⟨c, .default⟩ : Project).unmappedInterfaces, (⟨c, .default⟩ : Project).isNamed "T",
          (⟨c, .default⟩ : Project).symbolOf? "T")) =
      some ([("Node", [capturedField])], true, none) := by
    decide +kernel
  obtain ⟨c, hc, heval⟩ := Option.bind_eq_some_iff.mp heval
  obtain ⟨output, houtput, heval⟩ := Option.map_eq_some_iff.mp heval
  simp only [Prod.mk.injEq] at heval
  obtain ⟨hinterfaces, hnamed, hsymbol⟩ := heval
  exact ⟨c, output, toOption_eq_some_iff.mp hc, toOption_eq_some_iff.mp houtput, hinterfaces,
    .own hnamed hsymbol⟩

/-- In its module, the contract of the interface has a parameter in the way, and the context is free. -/
theorem Catalogue.scopes_of_load_capturedText :
    ∃ c output set ledger, load capturedText = .ok c ∧
      (⟨c, .default⟩ : Project).generate = .ok output ∧
      (⟨c, .default⟩ : Project).declarations = .ok set ∧
      set.lookup ledger helperParameters "Context" =
        some (.imported ⟨"Context", "./context", .named "Context" none⟩) ∧
      ∃ g, .handler g ∈ set.declarations ∧ g.name = "NodeResolvers" ∧
        (Declaration.handler g).Captures "T" := by
  obtain ⟨c, output, hc, hgenerate, hinterfaces, hgoes⟩ := exists_generate_capturedText
  obtain ⟨set, ledger, hset, -, -, hcontext, himported, hcaptures⟩ :=
    scopes_of_load hc .default hgenerate
  obtain ⟨s, hs⟩ := Project.declarations_eq_ok hset
  have hnode : ("Node", [capturedField]) ∈ (⟨c, .default⟩ : Project).unmappedInterfaces := by
    rw [hinterfaces]
    exact List.mem_singleton_self _
  obtain ⟨made, hmade, hhandler⟩ := hs.exists_interfaceHandler hnode
  have hg := hs.mem_iff.mpr (.handler hmade)
  refine ⟨c, output, set, ledger, hc, hgenerate, hset, ?_, made.handler, hg, hhandler.name, ?_⟩
  · rw [hcontext] at himported
    exact (himported _ rfl).mpr (by decide)
  · exact (hcaptures _ hg "T").mpr ⟨rfl, _, hnode, _, rfl, hhandler.name, capturedField,
      List.mem_singleton_self _, hgoes⟩

/-- A module can be generated in which a parameter captures a reference: it is not true that in every
module references are free of the parameters, and the context of those of the helpers. -/
theorem Catalogue.scopes_of_load_not_free :
    ¬ ∀ (text : String) (c : Catalogue) (overrides : Overrides) (output : String)
      (set : DeclarationSet), load text = .ok c →
      (⟨c, overrides⟩ : Project).generate = .ok output →
      (⟨c, overrides⟩ : Project).declarations = .ok set →
      (∀ d ∈ set.declarations, ∀ n, ¬ d.Captures n) ∧ set.context.name ∉ helperParameters := by
  intro hall
  obtain ⟨c, output, hc, hgenerate, hinterfaces, hgoes⟩ := exists_generate_capturedText
  obtain ⟨set, ledger, hset, -⟩ := Project.generate_eq_ok hgenerate
  obtain ⟨s, hs⟩ := Project.declarations_eq_ok hset
  obtain ⟨hfree, -⟩ := hall capturedText c .default output set hc hgenerate hset
  have hnode : ("Node", [capturedField]) ∈ (⟨c, .default⟩ : Project).unmappedInterfaces := by
    rw [hinterfaces]
    exact List.mem_singleton_self _
  obtain ⟨made, hmade, hhandler⟩ := hs.exists_interfaceHandler hnode
  refine hfree _ (hs.mem_iff.mpr (.handler hmade)) "T" ?_
  exact (DeclarationSet.Parts.MadeFrom.captures_interfaceHandler_iff
    (fun _ => kindOf?_of_isQueryOrMutation hc) hhandler).mpr
    ⟨rfl, capturedField, List.mem_singleton_self _, hgoes⟩

end ResolverContracts
