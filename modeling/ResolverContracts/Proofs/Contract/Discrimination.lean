import ResolverContracts.Proofs.Contract.Closed
import ResolverContracts.Proofs.Contract.Imports
/-!
# Names in the table

The table of what is told apart at run time lists what a value of a union can be, and so does the name
for the union. The two are resolved by different functions: the name goes by `Project.mapNamed`, as
any reference does, the table by `Project.unionMembers`, which lets everything but objects stand for
itself. For scalars and unions that is a name with a meaning. For an enum that the user replaces it
need not be: the enum is not declared, and what is exported in its place is not bound. The name is
bound all the same if the user's enum goes by it, since then the name for the union imports it.
-/

set_option autoImplicit false

namespace ResolverContracts

namespace DeclarationSet

/-- What has a meaning in a module with these imports. -/
inductive Knows (set : DeclarationSet) (p : Project) (ledger : ImportLedger) : TypeExpr → Prop
  | emptyRecord : Knows set p ledger .emptyRecord
  | verbatim {target : External} {text : String} (h : target.symbol = .verbatim text) :
    Knows set p ledger (.named (.external target))
  | external {target : External} {e : ImportEntry} (h : target.needed? = some e)
    (he : e ∈ ledger.entries) : Knows set p ledger (.named (.external target))
  | declared {n : String} (h : n ∈ set.declaredNames) : Knows set p ledger (.declared n)
  | imported {e : ImportEntry} (h : e ∈ ledger.entries) : Knows set p ledger (.declared e.name)
  | scalar {n : String} (h : p.catalogue.kindOf? n = some .scalar) :
    Knows set p ledger (.declared n)

variable {set : DeclarationSet} {p : Project} {ledger : ImportLedger} {s : Parts}

/-- A name of the module has a meaning when it is declared, imported, or that of a scalar. -/
theorem Knows.cases_declared {n : String} (h : set.Knows p ledger (.declared n)) :
    n ∈ set.declaredNames ∨ (∃ e ∈ ledger.entries, e.name = n) ∨
      p.catalogue.kindOf? n = some .scalar := by
  generalize ht : TypeExpr.declared n = t at h
  cases h with
  | emptyRecord => nomatch ht
  | verbatim _ => nomatch ht
  | external _ _ => nomatch ht
  | declared hn =>
    obtain rfl : n = _ := NamedRef.declared.inj (TypeExpr.named.inj ht)
    exact .inl hn
  | imported he =>
    obtain rfl : n = _ := NamedRef.declared.inj (TypeExpr.named.inj ht)
    exact .inr (.inl ⟨_, he, rfl⟩)
  | scalar hscalar =>
    obtain rfl : n = _ := NamedRef.declared.inj (TypeExpr.named.inj ht)
    exact .inr (.inr hscalar)

theorem knows_external (himports : set.imports = .ok ledger) {d : Declaration}
    (hd : d ∈ set.declarations) {symbol : Symbol} {n : String}
    (ht : TypeExpr.external symbol n ∈ d.types) : set.Knows p ledger (.external symbol n) := by
  have htarget : symbol.toExternal n ∈ (TypeExpr.external symbol n).externals :=
    List.mem_singleton_self _
  -- A symbol that needs no entry is a type expression.
  cases hentry : (symbol.toExternal n).needed? with
  | some e => exact .external hentry (mem_entries_of_mem_types himports hd ht htarget hentry)
  | none =>
    cases symbol with
    | verbatim text => exact .verbatim rfl
    | imported path binding rename => nomatch hentry

theorem knows_of_provides (hs : s.MadeFrom p set)
    {n : String} (h : p.Provides n) : set.Knows p ledger (.declared n) := by
  exact .declared (hs.declares h)

/-- What stands for an object or a mapped interface has a meaning wherever it is written. -/
theorem knows_mapComposite (hs : s.MadeFrom p set)
    (hc : p.catalogue.WellNamed) (himports : set.imports = .ok ledger) {d : Declaration}
    (hd : d ∈ set.declarations) {n : String} (ht : p.mapComposite n ∈ d.types)
    (hcovers : p.Covers (p.mapComposite n)) : set.Knows p ledger (p.mapComposite n) := by
  rcases p.mapComposite_cases n with ⟨-, hempty⟩ | ⟨symbol, -, hexternal⟩ | ⟨-, -, hname⟩
  · rw [hempty]
    exact .emptyRecord
  · rw [hexternal] at ht ⊢
    exact knows_external himports hd ht
  · rw [hname] at hcovers ⊢
    rcases hcovers.locals n (List.mem_singleton_self n) with hprovides | ⟨hscalar, -⟩
    · exact knows_of_provides hs hprovides
    · exact .scalar (hc.kindOf?_of_mem_customScalars hscalar)

/-- An enum that the user replaces by a symbol of its own name is imported, where it is a member of a
union: the name for the union needs the symbol. -/
theorem knows_enum (hs : s.MadeFrom p set)
    (himports : set.imports = .ok ledger) {u : String × List String} (hu : u ∈ p.catalogue.unions)
    {n : String} (hn : n ∈ u.2) (hkind : p.catalogue.kindOf? n = some .enum) {symbol : Symbol}
    (hreplaced : p.overrides.enumValues.get? n = some symbol) {path : String}
    (hpath : symbol.path? = some path) (hname : symbol.localName n = n) :
    set.Knows p ledger (.declared n) := by
  obtain ⟨entry, hentry, halias⟩ := exists_right_of_forall₂ hs.unions hu
  obtain ⟨t, ht, hmember⟩ := exists_right_of_forall₂ halias.members hn
  -- There the enum is resolved like any reference, which gives the symbol of the user.
  have hmap : p.mapNamed n = .ok (.external symbol n) := by
    rw [Project.mapNamed, hkind]
    show Except.ok (p.mapEnum n) = _
    rw [Project.mapEnum, hreplaced]
  obtain rfl := Except.ok.inj (hmap.symm.trans hmember)
  have hd : Declaration.union entry ∈ set.declarations := hs.mem_iff.mpr (.union hentry)
  cases symbol with
  | verbatim text => cases hpath
  | imported path binding rename =>
    have hneeded := mem_entries_of_mem_types himports hd ht (List.mem_singleton_self _) rfl
    rw [← hname]
    exact .imported hneeded

theorem reexport_mem (hs : s.MadeFrom p set) {n : String}
    {values : List String} (he : (n, values) ∈ p.catalogue.enums) {symbol : Symbol}
    (hreplaced : p.overrides.enumValues.get? n = some symbol) :
    .reexport n (symbol.toExternal n) ∈ set.declarations := by
  obtain ⟨d, hd, henum⟩ := exists_right_of_forall₂ hs.enums he
  rw [Project.enumDeclaration, hreplaced] at henum
  obtain rfl := Except.ok.inj henum
  exact hs.mem_iff.mpr (.reexport hd)

/-- The members of the table. The cases are unions and interfaces, and for a member of a union its
kind; the last one is where the table and the name for the union part. -/
theorem knows_table (hs : s.MadeFrom p set)
    (hc : p.catalogue.WellNamed) (himports : set.imports = .ok ledger) {entry : Alias}
    (hentry : entry ∈ p.discriminationTable) {t : TypeExpr} (ht : t ∈ entry.members) :
    set.Knows p ledger t ∨ ∃ n symbol, t = .declared n ∧ p.catalogue.kindOf? n = some .enum ∧
      p.overrides.enumValues.get? n = some symbol ∧
      .reexport n (symbol.toExternal n) ∈ set.declarations ∧
      (symbol.path? = none ∨ symbol.localName n ≠ n) := by
  have htable : Declaration.table p.discriminationTable ∈ set.declarations :=
    hs.mem_iff.mpr .table
  have htypes : t ∈ (Declaration.table p.discriminationTable).types :=
    List.mem_flatMap.mpr ⟨entry, hentry, ht⟩
  rcases List.mem_append.mp hentry with hentry | hentry
  · obtain ⟨u, hu, rfl⟩ := List.mem_map.mp hentry
    have hu := (List.mem_filter.mp hu).1
    obtain ⟨member, hmember, rfl⟩ := List.mem_map.mp ht
    obtain ⟨kind, hkind, hinterface, hinput⟩ := hc.members u hu member hmember
    -- Objects are resolved as everywhere else; all other members stand for themselves.
    by_cases hobject : p.catalogue.kindOf? member = some .object
    · obtain ⟨o, ho⟩ := Catalogue.exists_of_kindOf?_object hobject
      rw [if_pos hobject] at htypes ⊢
      exact .inl (knows_mapComposite hs hc himports htable htypes
        (Project.covers_mapComposite_object hc ho))
    · rw [if_neg hobject]
      cases kind with
      | object => exact absurd hkind hobject
      | interface => exact absurd rfl hinterface
      | inputObject => exact absurd rfl hinput
      | scalar => exact .inl (.scalar hkind)
      | union =>
        obtain ⟨members, hunion⟩ := Catalogue.exists_of_kindOf?_union hkind
        exact .inl (knows_of_provides hs (.union hunion))
      | enum =>
        obtain ⟨values, henum⟩ := Catalogue.exists_of_kindOf?_enum hkind
        cases hreplaced : p.overrides.enumValues.get? member with
        | none => exact .inl (knows_of_provides hs (.enum henum hreplaced))
        | some symbol =>
          -- Not declared. What is left is that the symbol is imported under the name.
          have hreexport := reexport_mem hs henum hreplaced
          cases hpath : symbol.path? with
          | none => exact .inr ⟨member, symbol, rfl, hkind, hreplaced, hreexport, .inl hpath⟩
          | some path =>
            by_cases hname : symbol.localName member = member
            · exact .inl (knows_enum hs himports hu hmember hkind hreplaced hpath hname)
            · exact .inr ⟨member, symbol, rfl, hkind, hreplaced, hreexport, .inr hname⟩
  · obtain ⟨i, -, rfl⟩ := List.mem_map.mp hentry
    obtain ⟨hcovers, n, rfl⟩ := Project.covers_interfaceMembers hc ht
    exact .inl (knows_mapComposite hs hc himports htable htypes hcovers)

end DeclarationSet

/-- **Names in the table.** From a schema that loads, and with any overrides, every member of the table
of a generated module has a meaning there, unless it is an enum that the user replaces by an enum of
another name or by a type expression. -/
theorem Catalogue.table_of_load {text : String} {c : Catalogue} (h : load text = .ok c)
    (overrides : Overrides) {output : String}
    (hgenerate : (⟨c, overrides⟩ : Project).generate = .ok output) :
    let p : Project := ⟨c, overrides⟩
    ∃ set ledger, p.declarations = .ok set ∧ set.checkedImports = .ok ledger ∧
      ∀ entries, .table entries ∈ set.declarations → ∀ entry ∈ entries, ∀ t ∈ entry.members,
        set.Knows p ledger t ∨ ∃ n symbol, t = .declared n ∧ c.kindOf? n = some .enum ∧
          overrides.enumValues.get? n = some symbol ∧
          .reexport n (symbol.toExternal n) ∈ set.declarations ∧
          (symbol.path? = none ∨ symbol.localName n ≠ n) := by
  intro p
  obtain ⟨set, ledger, hset, hledger⟩ := Project.generate_eq_ok hgenerate
  obtain ⟨s, hs⟩ := Project.declarations_eq_ok hset
  refine ⟨set, ledger, hset, hledger, fun entries hentries entry hentry t ht => ?_⟩
  cases hs.mem_iff.mp hentries
  exact DeclarationSet.knows_table hs (load_wellNamed h)
    (DeclarationSet.imports_eq_ok hledger) hentry ht

/-- A union of an enum and an object. -/
def statusText : String := "enum Status { ON } union U = Status | Query type Query { u: U }"

/-- The enum is replaced by one of the same name. -/
def statusOverrides : Overrides :=
  { Overrides.default with enumValues := ⟨[("Status", .named "./enums" "Status")]⟩ }

theorem Catalogue.table_of_load_statusText :
    ∃ c output set ledger, load statusText = .ok c ∧
      (⟨c, statusOverrides⟩ : Project).generate = .ok output ∧
      (⟨c, statusOverrides⟩ : Project).declarations = .ok set ∧
      ∀ entries, .table entries ∈ set.declarations → ∀ entry ∈ entries, ∀ t ∈ entry.members,
        set.Knows ⟨c, statusOverrides⟩ ledger t := by
  have heval : ((load statusText).toOption.bind fun c =>
      (⟨c, statusOverrides⟩ : Project).generate.toOption).isSome = true := by decide +kernel
  obtain ⟨output, houtput⟩ := Option.isSome_iff_exists.mp heval
  obtain ⟨c, hc, houtput⟩ := Option.bind_eq_some_iff.mp houtput
  have hload := toOption_eq_some_iff.mp hc
  have hgenerate := toOption_eq_some_iff.mp houtput
  obtain ⟨set, ledger, hset, -, htable⟩ := table_of_load hload statusOverrides hgenerate
  refine ⟨c, output, set, ledger, hload, hgenerate, hset, fun entries hentries e he t ht => ?_⟩
  rcases htable entries hentries e he t ht with hknows | ⟨n, symbol, -, -, hreplaced, -, hname⟩
  · exact hknows
  · -- The one enum that is replaced goes by its own name.
    have hone : ("Status" == n) = true ∧ Symbol.named "./enums" "Status" = symbol := by
      rw [SymbolMap.get?, statusOverrides, Entries.get?_cons] at hreplaced
      by_cases hn : ("Status" == n) = true
      · rw [if_pos hn] at hreplaced
        exact ⟨hn, Option.some.inj hreplaced⟩
      · rw [if_neg hn] at hreplaced
        cases hreplaced
    obtain ⟨hn, rfl⟩ := hone
    obtain rfl := beq_iff_eq.mp hn
    rcases hname with hpath | hlocal
    · cases hpath
    · exact absurd rfl hlocal

/-- The enum is replaced by one of another name. -/
def renamedOverrides : Overrides :=
  { Overrides.default with enumValues := ⟨[("Status", .named "./enums" "StatusEnum")]⟩ }

/-- Where the user's enum has another name, the table has a name without a meaning: it is not true that
the table of every module has only names with a meaning. -/
theorem Catalogue.table_of_load_renamed :
    ¬ ∀ (text : String) (c : Catalogue) (overrides : Overrides) (output : String),
      load text = .ok c → (⟨c, overrides⟩ : Project).generate = .ok output →
      ∀ set ledger, (⟨c, overrides⟩ : Project).declarations = .ok set →
        set.checkedImports = .ok ledger →
        ∀ entries, .table entries ∈ set.declarations → ∀ entry ∈ entries, ∀ t ∈ entry.members,
          set.Knows ⟨c, overrides⟩ ledger t := by
  intro hall
  have heval : ((load statusText).toOption.bind fun c =>
      (⟨c, renamedOverrides⟩ : Project).generate.toOption.bind fun output =>
      (⟨c, renamedOverrides⟩ : Project).declarations.toOption.bind fun set =>
      set.checkedImports.toOption.map fun ledger =>
        (c.unions, c.kindOf? "Status", set.declaredNames.contains "Status",
          ledger.entries.any (·.name == "Status"))) =
      some ([("U", ["Status", "Query"])], some .enum, false, false) := by decide +kernel
  obtain ⟨c, hc, heval⟩ := Option.bind_eq_some_iff.mp heval
  obtain ⟨output, houtput, heval⟩ := Option.bind_eq_some_iff.mp heval
  obtain ⟨set, hset, heval⟩ := Option.bind_eq_some_iff.mp heval
  obtain ⟨ledger, hledger, heval⟩ := Option.map_eq_some_iff.mp heval
  simp only [Prod.mk.injEq] at heval
  obtain ⟨hunions, hkind, hdeclared, himported⟩ := heval
  have hload := toOption_eq_some_iff.mp hc
  have hdeclarations := toOption_eq_some_iff.mp hset
  obtain ⟨s, hs⟩ := Project.declarations_eq_ok hdeclarations
  have htable : Declaration.table (Project.discriminationTable ⟨c, renamedOverrides⟩) ∈
      set.declarations := hs.mem_iff.mpr .table
  have hentry : Alias.mk "U" (Project.unionMembers ⟨c, renamedOverrides⟩ ["Status", "Query"]) ∈
      Project.discriminationTable ⟨c, renamedOverrides⟩ := by
    refine List.mem_append_left _ (List.mem_map.mpr ⟨("U", ["Status", "Query"]), ?_, rfl⟩)
    show _ ∈ c.unions.filter _
    rw [hunions]
    exact List.mem_singleton_self _
  have hmember : TypeExpr.declared "Status" ∈
      Project.unionMembers ⟨c, renamedOverrides⟩ ["Status", "Query"] := by
    refine List.mem_map.mpr ⟨"Status", List.mem_cons_self, ?_⟩
    rw [if_neg (by rw [hkind]; nofun)]
  have hknows := hall statusText c renamedOverrides output hload (toOption_eq_some_iff.mp houtput)
    set ledger hdeclarations (toOption_eq_some_iff.mp hledger) _ htable _ hentry _ hmember
  rcases hknows.cases_declared with hn | ⟨e, he, hname⟩ | hscalar
  · simp [hn] at hdeclared
  · have hany := List.any_eq_false.mp himported e he
    simp [hname] at hany
  · nomatch hkind.symm.trans hscalar

end ResolverContracts
