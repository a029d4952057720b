import Mathlib.Data.List.Flatten
import Mathlib.Data.List.Perm.Basic
import ResolverContracts.Proofs.Contract.Imports
import ResolverContracts.Proofs.Contract.Parts
import ResolverContracts.Schema.Load
/-!
# What a module exports

A module exports what it declares, apart from one of the helpers, and it exports the enums of other
modules that the user gives in place of enums of the schema. The names are checked before anything is
written, but the check is about what names *mean* in the module: none is declared twice, and none is
declared and imported. An enum that is only exported again has no meaning in the module, so the check
passes it over.

So the declarations have different names, and whether all exports have is up to the user's enums
(`DeclarationSet.nodup_exportedNames_iff`). One that is used is imported as well, which brings it before
the check after all; one that is not used may have the name of anything.
-/

set_option autoImplicit false

namespace ResolverContracts

/-! ## Exported names -/

/-- The name under which an enum of another module is exported in place of an enum of the schema. -/
def reexportedName (name : String) (target : External) : String :=
  match target.symbol with
  | .imported _ (.named symbol) rename => rename.getD symbol
  | .imported _ .default _ => target.name
  | .verbatim _ => name

namespace Declaration

/-- The names of a declaration that are exported: all that it declares, but for `MaybePromise`, which
only the helpers beside it are written with. -/
def ownExports : Declaration → List String
  | helpers => ["Resolver", "SubscriptionResolverFilter", "SubscriptionResolver"]
  | d => d.declaredNames

/-- The name that is exported and not declared. -/
def reexport? : Declaration → Option String
  | reexport name target => some (reexportedName name target)
  | _ => none

/-- The names that a declaration exports. -/
def exportedNames (d : Declaration) : List String := d.ownExports ++ d.reexport?.toList

theorem ownExports_sublist (d : Declaration) : d.ownExports.Sublist d.declaredNames := by
  cases d with
  | helpers => exact List.sublist_cons_self _ _
  | _ => exact List.Sublist.refl _

end Declaration

namespace DeclarationSet

variable {set : DeclarationSet} {p : Project}

/-- The names of its declarations that a module exports. -/
def ownExports (set : DeclarationSet) : List String := set.declarations.flatMap (·.ownExports)

/-- The names of other enums that a module exports. -/
def reexports (set : DeclarationSet) : List String := set.declarations.filterMap (·.reexport?)

/-- The names that a module exports, in order. -/
def exportedNames (set : DeclarationSet) : List String := set.declarations.flatMap (·.exportedNames)

theorem exportedNames_perm (set : DeclarationSet) :
    set.exportedNames.Perm (set.ownExports ++ set.reexports) := by
  rw [reexports, List.filterMap_eq_flatMap_toList]
  exact (List.flatMap_append_perm _ _ _).symm

theorem ownExports_sublist (set : DeclarationSet) : set.ownExports.Sublist set.declaredNames :=
  List.Sublist.flatMap_right _ fun d _ => d.ownExports_sublist

/-- In a module that passes the check, the exports are different as far as the re-exports are. -/
theorem nodup_exportedNames_iff (hdeclared : set.declaredNames.Nodup) :
    set.exportedNames.Nodup ↔
      set.reexports.Nodup ∧ ∀ n ∈ set.reexports, n ∉ set.ownExports := by
  rw [set.exportedNames_perm.nodup_iff, List.nodup_append']
  constructor
  · rintro ⟨-, hreexports, hdisjoint⟩
    exact ⟨hreexports, fun n hn hown => hdisjoint hown hn⟩
  · rintro ⟨hreexports, hdisjoint⟩
    exact ⟨hdeclared.sublist set.ownExports_sublist, hreexports,
      fun n hown hn => hdisjoint n hn hown⟩

end DeclarationSet

/-! ## Enums of the user -/

namespace Project

/-- What the user gives in place of an enum. -/
def replacement? (p : Project) (e : String × List String) : Option (String × External) :=
  (p.overrides.enumValues.get? e.1).map fun symbol => (e.1, symbol.toExternal e.1)

/-- The enums of the schema that the user replaces, with what replaces them. -/
def replacements (p : Project) : List (String × External) :=
  p.catalogue.enums.filterMap p.replacement?

variable {p : Project}

/-- What is imported goes by the name under which it is exported again. -/
theorem name_eq_reexportedName {r : String × External} (hr : r ∈ p.replacements) {e : ImportEntry}
    (he : r.2.needed? = some e) : e.name = reexportedName r.1 r.2 := by
  obtain ⟨⟨name, values⟩, -, hr⟩ := List.mem_filterMap.mp hr
  obtain ⟨symbol, -, rfl⟩ := Option.map_eq_some_iff.mp hr
  cases symbol with
  | verbatim text => nomatch he
  | imported path binding rename =>
    obtain rfl := Option.some.inj he
    cases binding with
    | default => rfl
    | named symbol =>
      cases rename with
      | none => rfl
      | some rename => rfl

end Project

namespace DeclarationSet

open Project

variable {set : DeclarationSet} {p : Project} {s : Parts} {ledger : ImportLedger}

/-- An enum is exported again for each one that the user replaces. -/
theorem filterMap_enumDeclaration {types : List (String × List String)} {ds : List Declaration}
    (h : List.Forall₂ (fun e d => p.enumDeclaration e.1 e.2 = .ok d) types ds) :
    ds.filterMap (·.reexport?) = (types.filterMap p.replacement?).map fun r =>
      reexportedName r.1 r.2 := by
  induction h with
  | nil => rfl
  | cons henum _ ih =>
    rw [List.filterMap_cons, List.filterMap_cons, ih, replacement?]
    rcases enumDeclaration_cases henum with ⟨symbol, hget, rfl⟩ | ⟨members, hget, rfl⟩
    · rw [hget]
      rfl
    · rw [hget]
      rfl

/-- The other sections export what they declare. -/
theorem Parts.MadeFrom.reexports_eq (hs : s.MadeFrom p set) :
    set.reexports = p.replacements.map fun r => reexportedName r.1 r.2 := by
  rw [reexports, hs.declarations, Parts.declarations, replacements,
    ← filterMap_enumDeclaration hs.enums]
  simp [List.filterMap_map, Declaration.reexport?]

/-! ## Replacements that are used -/

section Used

/-- A replacement that is used is imported, under the name that is exported. -/
theorem exists_entry_of_used (himports : set.imports = .ok ledger) {r : String × External}
    (hr : r ∈ p.replacements) (hmodule : r.2.symbol.path?.isSome = true)
    (hused : r.2 ∈ set.externals) :
    ∃ e ∈ ledger.entries, r.2.needed? = some e ∧ e.name = reexportedName r.1 r.2 := by
  cases hsymbol : r.2.symbol with
  | verbatim text =>
    rw [hsymbol] at hmodule
    nomatch hmodule
  | imported path binding rename =>
    have hneeded : r.2.needed? = some ⟨r.2.name, path, binding.clause rename⟩ := by
      rw [External.needed?, hsymbol]
    exact ⟨_, mem_entries_of_mem_externals himports hused hneeded, hneeded,
      name_eq_reexportedName hr hneeded⟩

variable (hused : ∀ r ∈ p.replacements, r.2.symbol.path?.isSome = true ∧ r.2 ∈ set.externals)
include hused

/-- Where all are used, names are those of the ledger, which binds a name once. -/
theorem nodup_reexportedNames (himports : set.imports = .ok ledger)
    (hdistinct : (p.replacements.map (·.2.needed?)).Nodup) :
    (p.replacements.map fun r => reexportedName r.1 r.2).Nodup := by
  refine List.Nodup.map_on (fun r hr r' hr' hname => ?_) hdistinct.of_map
  obtain ⟨e, he, hneeded, hename⟩ :=
    exists_entry_of_used himports hr (hused r hr).1 (hused r hr).2
  obtain ⟨e', he', hneeded', hename'⟩ :=
    exists_entry_of_used himports hr' (hused r' hr').1 (hused r' hr').2
  -- Of one name there is one entry, which no two of them need.
  have hsame : e = e' := List.inj_on_of_nodup_map (nodup_names_imports himports) he he'
    (hename.trans (hname.trans hename'.symm))
  have hneed : r.2.needed? = r'.2.needed? := by rw [hneeded, hneeded', hsame]
  exact List.inj_on_of_nodup_map hdistinct hr hr' hneed

/-- And what is imported has not the name of a declaration. -/
theorem reexportedName_not_mem_ownExports (h : set.checkedImports = .ok ledger)
    {r : String × External} (hr : r ∈ p.replacements) :
    reexportedName r.1 r.2 ∉ set.ownExports := by
  obtain ⟨-, himports, hshadowed⟩ := checkedImports_eq_ok_iff.mp h
  obtain ⟨e, he, -, hname⟩ := exists_entry_of_used himports hr (hused r hr).1 (hused r hr).2
  rw [← hname]
  exact fun hown => hshadowed e he (set.ownExports_sublist.subset hown)

end Used

end DeclarationSet

/-- **Exports of a module.** In a module that is generated, what the declarations export has different
names, and enums are exported again for those that the user replaces. So all exports have different
names exactly when these enums have, and none has the name of a declaration. That is so when the
enums come from modules, no symbol replaces two, and all of them are used in the module. -/
theorem Project.exports_of_generate {p : Project} {output : String} (h : p.generate = .ok output) :
    ∃ set, p.declarations = .ok set ∧ set.ownExports.Nodup ∧
      set.reexports = p.replacements.map (fun r => reexportedName r.1 r.2) ∧
      (set.exportedNames.Nodup ↔
        set.reexports.Nodup ∧ ∀ n ∈ set.reexports, n ∉ set.ownExports) ∧
      ((∀ r ∈ p.replacements, r.2.symbol.path?.isSome = true ∧ r.2 ∈ set.externals) →
        (p.replacements.map (·.2.needed?)).Nodup → set.exportedNames.Nodup) := by
  obtain ⟨set, ledger, hset, hledger⟩ := Project.generate_eq_ok h
  obtain ⟨s, hs⟩ := Project.declarations_eq_ok hset
  obtain ⟨hdeclared, himports, -⟩ := DeclarationSet.checkedImports_eq_ok_iff.mp hledger
  have hiff := set.nodup_exportedNames_iff hdeclared
  refine ⟨set, hset, hdeclared.sublist set.ownExports_sublist, hs.reexports_eq, hiff,
    fun hused hdistinct => hiff.mpr ?_⟩
  rw [hs.reexports_eq]
  refine ⟨DeclarationSet.nodup_reexportedNames hused himports hdistinct, fun n hn => ?_⟩
  obtain ⟨r, hr, rfl⟩ := List.mem_map.mp hn
  exact DeclarationSet.reexportedName_not_mem_ownExports hused hledger hr

/-- The status of a user, which is an enum of another module. -/
def stateText : String := "enum Status { ON } type User { s: Status } type Query { u: User }"

/-- The status is a state. -/
def stateOverrides : Overrides :=
  { Overrides.default with enumValues := ⟨[("Status", .named "./enums" "State")]⟩ }

theorem Project.exports_of_generate_stateText :
    ∃ c output set, Catalogue.load stateText = .ok c ∧
      (⟨c, stateOverrides⟩ : Project).generate = .ok output ∧
      (⟨c, stateOverrides⟩ : Project).declarations = .ok set ∧ set.reexports = ["State"] ∧
      set.exportedNames.Nodup := by
  -- Evaluated at once, so that the text is loaded and the module rendered a single time.
  have heval : ((Catalogue.load stateText).toOption.bind fun c =>
      (⟨c, stateOverrides⟩ : Project).generate.toOption.bind fun _ =>
      (⟨c, stateOverrides⟩ : Project).declarations.toOption.map fun set =>
        ((⟨c, stateOverrides⟩ : Project).replacements,
          set.externals.contains ((Symbol.named "./enums" "State").toExternal "Status"))) =
      some ([("Status", (Symbol.named "./enums" "State").toExternal "Status")], true) := by
    decide +kernel
  obtain ⟨c, hc, heval⟩ := Option.bind_eq_some_iff.mp heval
  obtain ⟨output, houtput, heval⟩ := Option.bind_eq_some_iff.mp heval
  obtain ⟨set, hset, heval⟩ := Option.map_eq_some_iff.mp heval
  simp only [Prod.mk.injEq] at heval
  obtain ⟨hreplacements, hused⟩ := heval
  have hgenerate := toOption_eq_some_iff.mp houtput
  have hdeclarations := toOption_eq_some_iff.mp hset
  obtain ⟨set', hset', -, hreexports, -, hnodup⟩ := exports_of_generate hgenerate
  obtain rfl := Except.ok.inj (hdeclarations.symm.trans hset')
  rw [hreplacements] at hreexports hnodup
  refine ⟨c, output, set, toOption_eq_some_iff.mp hc, hgenerate, hdeclarations, hreexports,
    hnodup (fun r hr => ?_) (by decide)⟩
  obtain rfl := List.mem_singleton.mp hr
  exact ⟨rfl, by simpa using hused⟩

/-- The status is not used, and the enum in its place has the name of the user. -/
def idleText : String := "enum Status { ON } type User { a: Int } type Query { u: User }"

/-- The status is a user. -/
def idleOverrides : Overrides :=
  { Overrides.default with enumValues := ⟨[("Status", .named "./enums" "User")]⟩ }

/-- An enum that is not used is not checked: it is not true that the exports of every module that is
generated have different names. -/
theorem Project.exports_of_generate_idleText :
    ¬ ∀ (text : String) (c : Catalogue) (overrides : Overrides) (output : String)
      (set : DeclarationSet), Catalogue.load text = .ok c →
      (⟨c, overrides⟩ : Project).generate = .ok output →
      (⟨c, overrides⟩ : Project).declarations = .ok set → set.exportedNames.Nodup := by
  intro hall
  have heval : ((Catalogue.load idleText).toOption.bind fun c =>
      (⟨c, idleOverrides⟩ : Project).generate.toOption.bind fun _ =>
      (⟨c, idleOverrides⟩ : Project).declarations.toOption.map (·.exportedNames)) =
      some ["Resolvers", "QueryResolvers", "UserResolvers", "Resolver",
        "SubscriptionResolverFilter", "SubscriptionResolver", "User", "User", "UnionResolvers"] := by
    decide +kernel
  obtain ⟨c, hc, heval⟩ := Option.bind_eq_some_iff.mp heval
  obtain ⟨output, houtput, heval⟩ := Option.bind_eq_some_iff.mp heval
  obtain ⟨set, hset, hnames⟩ := Option.map_eq_some_iff.mp heval
  have hnodup := hall idleText c idleOverrides output set (toOption_eq_some_iff.mp hc)
    (toOption_eq_some_iff.mp houtput) (toOption_eq_some_iff.mp hset)
  rw [hnames] at hnodup
  exact absurd hnodup (by decide)

end ResolverContracts
