import ResolverContracts.Proofs.Contract.Closed
import ResolverContracts.Proofs.Contract.Scopes
import ResolverContracts.Proofs.Schema.NestedUnions
/-!
# Names for unions

The module declares a name for each union, as the union of the types of its members. A member that is
a union itself is written by its name, unless the user gives a type for it. So the names of a module
refer to each other as the unions without such a type list each other (`MadeFrom.refersToUnion_iff`),
and a name is defined by itself, straight away or by way of others, exactly if its union leads back to
itself through those unions.

Other members do not matter. A type of the schema has another name than the unions, and a symbol that
is imported cannot have the name of one.
-/

set_option autoImplicit false

namespace ResolverContracts

open Relation

/-! ## References -/

/-- A name that a type refers to, be it left to the module or imported. What is in a type expression of
the user is not looked at. -/
inductive TypeExpr.RefersTo (t : TypeExpr) : String → Prop
  | declared {n : String} (h : .named (.declared n) ∈ t.leaves) : RefersTo t n
  | imported {target : External} {e : ImportEntry} (h : .named (.external target) ∈ t.leaves)
    (he : target.needed? = some e) : RefersTo t e.name

/-- The name for a union refers to that for another one. -/
def DeclarationSet.RefersToUnion (set : DeclarationSet) (u v : String) : Prop :=
  ∃ entry entry', .union entry ∈ set.declarations ∧ .union entry' ∈ set.declarations ∧
    entry.name = u ∧ entry'.name = v ∧ ∃ t ∈ entry.members, t.RefersTo v

/-- A union lists another one that the user gives no type for. -/
def Project.ListsUnmapped (p : Project) (u v : String) : Prop :=
  p.catalogue.ListsUnion u v ∧ p.isMapped v = false

namespace Project

variable {p : Project} {name n : String} {t : TypeExpr}

/-- What is left to the module is left to it under the name of the type. Only for an interface there
is more than one leaf. -/
theorem eq_of_declared_mem_leaves (h : p.mapNamed name = .ok t)
    (hkind : p.catalogue.kindOf? name ≠ some .interface) (hn : .named (.declared n) ∈ t.leaves) :
    n = name := by
  rw [mapNamed] at h
  have hcomposite (hn : .named (.declared n) ∈ (p.mapComposite name).leaves) : n = name := by
    rcases p.mapComposite_cases name with ⟨-, hmap⟩ | ⟨s, -, hmap⟩ | ⟨-, -, hmap⟩
    · simp [hmap, TypeExpr.leaves] at hn
    · simp [hmap, TypeExpr.external, TypeExpr.leaves] at hn
    · simpa [hmap, TypeExpr.declared, TypeExpr.leaves] using hn
  -- Only an interface resolves to names that are not its own.
  cases hk : p.catalogue.kindOf? name with
  | none =>
    rw [hk] at h
    cases h
  | some k =>
    rw [hk] at h hkind
    cases k with
    | scalar =>
      obtain rfl := Except.ok.inj h
      rcases p.mapScalar_cases name with ⟨-, _, hmap⟩ | ⟨-, s, -, hmap⟩ | ⟨-, -, hmap⟩
      · simp [hmap, TypeExpr.leaves] at hn
      · simp [hmap, TypeExpr.external, TypeExpr.leaves] at hn
      · simpa [hmap, TypeExpr.declared, TypeExpr.leaves] using hn
    | enum =>
      obtain rfl := Except.ok.inj h
      rw [mapEnum] at hn
      split at hn
      · simp [TypeExpr.external, TypeExpr.leaves] at hn
      · simpa [TypeExpr.declared, TypeExpr.leaves] using hn
    | object =>
      obtain rfl := Except.ok.inj h
      exact hcomposite hn
    | union =>
      obtain rfl := Except.ok.inj h
      exact hcomposite hn
    | interface => exact absurd rfl hkind
    | inputObject =>
      obtain rfl := Except.ok.inj h
      simpa [TypeExpr.declared, TypeExpr.leaves] using hn

/-- A union without a type from the user is written by its name, and with one it is not. -/
theorem mapNamed_union (hroots : ∀ name, p.catalogue.roots.isQueryOrMutation name = true →
      p.catalogue.kindOf? name = some .object) (hkind : p.catalogue.kindOf? name = some .union)
    (h : p.mapNamed name = .ok t) : .named (.declared name) ∈ t.leaves ↔ p.isMapped name = false := by
  have hroot : p.catalogue.roots.isQueryOrMutation name = false := by
    by_contra hroot
    cases hkind.symm.trans (hroots name (by simpa using hroot))
  rw [mapNamed, hkind] at h
  obtain rfl := Except.ok.inj h
  rcases p.mapComposite_cases name with ⟨hroot', -⟩ | ⟨s, hget, hmap⟩ | ⟨hmapped, -, hmap⟩
  · cases hroot.symm.trans hroot'
  · rw [isMapped, SymbolMap.contains_eq_isSome, hget, hmap]
    simp [TypeExpr.external, TypeExpr.leaves]
  · rw [hmapped, hmap]
    simp [TypeExpr.declared, TypeExpr.leaves]

end Project

/-! ## Names for unions -/

namespace DeclarationSet

open Project

variable {s : Parts} {p : Project} {set : DeclarationSet} {ledger : ImportLedger} {u v : String}

theorem Parts.MadeFrom.mem_union_iff (hs : s.MadeFrom p set) {entry : Alias} :
    .union entry ∈ set.declarations ↔ entry ∈ s.unions := by
  rw [hs.mem_iff]
  constructor
  · rintro ⟨⟩
    assumption
  · exact .union

/-- **One reference.** The name for a union refers to that for another one exactly if the union lists
the other one and the user gives no type for it. -/
theorem Parts.MadeFrom.refersToUnion_iff (hs : s.MadeFrom p set) (hc : p.catalogue.WellNamed)
    (hroots : ∀ name, p.catalogue.roots.isQueryOrMutation name = true →
      p.catalogue.kindOf? name = some .object)
    (hledger : set.checkedImports = .ok ledger) :
    set.RefersToUnion u v ↔ p.ListsUnmapped u v := by
  constructor
  · rintro ⟨entry, entry', hentry, hentry', rfl, rfl, t, ht, hrefers⟩
    obtain ⟨-, himports, hshadowed⟩ := checkedImports_eq_ok_iff.mp hledger
    have h := hs.mem_union_iff.mp hentry
    have h' := hs.mem_union_iff.mp hentry'
    have hdeclared : entry'.name ∈ set.declaredNames :=
      hs.mem_declaredNames (.union h') (List.mem_singleton_self _)
    obtain ⟨⟨_, members⟩, hunion, hname, hmembers⟩ := exists_left_of_forall₂ hs.unions h
    obtain ⟨⟨_, members'⟩, hunion', hname', -⟩ := exists_left_of_forall₂ hs.unions h'
    obtain ⟨m, hm, hmap⟩ := exists_left_of_forall₂ hmembers ht
    have hkind' : p.catalogue.kindOf? entry'.name = some .union := by
      rw [hname']
      exact hc.kindOf?_of_mem_unions hunion'
    obtain ⟨k, hk, hinterface, -⟩ := hc.members _ hunion m hm
    generalize hv : entry'.name = v at *
    cases hrefers with
    | declared hleaf =>
      obtain rfl := eq_of_declared_mem_leaves hmap (by simpa [hk] using hinterface) hleaf
      rw [hname]
      exact ⟨⟨⟨members, hunion, hm⟩, hkind'⟩, (mapNamed_union hroots hkind' hmap).mp hleaf⟩
    | imported hleaf he =>
      -- The symbol is imported, so it has not the name of a declaration.
      have hmem := mem_entries_of_mem_types himports hentry ht
        ((TypeExpr.mem_externals_iff t).mpr hleaf) he
      exact absurd hdeclared (hshadowed _ hmem)
  · rintro ⟨⟨⟨members, hunion, hv⟩, hkind⟩, hmapped⟩
    obtain ⟨members', hunion'⟩ := Catalogue.exists_of_kindOf?_union hkind
    obtain ⟨entry, hentry, hname, hmembers⟩ := exists_right_of_forall₂ hs.unions hunion
    obtain ⟨entry', hentry', hname', -⟩ := exists_right_of_forall₂ hs.unions hunion'
    obtain ⟨t, ht, hmap⟩ := exists_right_of_forall₂ hmembers hv
    refine ⟨entry, entry', hs.mem_union_iff.mpr hentry, hs.mem_union_iff.mpr hentry', hname, hname', t,
      ht, .declared ?_⟩
    exact (mapNamed_union hroots hkind hmap).mpr hmapped

end DeclarationSet

/-- In a module that is generated from a schema, names for unions refer to each other as the unions
that are not mapped list each other. -/
theorem Project.refersToUnion_of_generate {text output : String} {c : Catalogue}
    {overrides : Overrides} (hc : Catalogue.load text = .ok c)
    (houtput : (⟨c, overrides⟩ : Project).generate = .ok output) :
    ∃ set, (⟨c, overrides⟩ : Project).declarations = .ok set ∧
      set.RefersToUnion = (⟨c, overrides⟩ : Project).ListsUnmapped := by
  obtain ⟨set, ledger, hset, hledger⟩ := generate_eq_ok houtput
  obtain ⟨s, hs⟩ := declarations_eq_ok hset
  refine ⟨set, hset, ?_⟩
  ext u v
  exact hs.refersToUnion_iff (Catalogue.load_wellNamed hc)
    (fun _ => Catalogue.kindOf?_of_isQueryOrMutation hc) hledger

/-! ## Circles -/

/-- Unions may list each other in a circle. A union of a schema that loads expands exactly if it leads
to no union that leads back to itself, and then to types with values of their own, none of which is a
union. In a module that is generated from it, the name for a union refers to itself, straight away or
by way of the names for others, exactly if the union leads back to itself through unions that the user
gives no type for. So where there is no circle, every union expands, and no name refers to itself. -/
theorem Project.circles_of_unions {text : String} {c : Catalogue}
    (hc : Catalogue.load text = .ok c) :
    (∀ u, c.kindOf? u = some .union →
      ((∃ leaves, c.Expands [u] leaves) ↔
        ∀ v, ReflTransGen c.ListsUnion u v → ¬TransGen c.ListsUnion v v) ∧
      ∀ leaves, c.Expands [u] leaves → ∀ l ∈ leaves, c.HasValue l ∧ c.kindOf? l ≠ some .union) ∧
    (∀ overrides output, (⟨c, overrides⟩ : Project).generate = .ok output →
      ∃ set, (⟨c, overrides⟩ : Project).declarations = .ok set ∧
        ∀ u, TransGen set.RefersToUnion u u ↔
          TransGen (⟨c, overrides⟩ : Project).ListsUnmapped u u) ∧
    ((∀ u, ¬TransGen c.ListsUnion u u) →
      (∀ u, c.kindOf? u = some .union → ∃ leaves, c.Expands [u] leaves) ∧
      ∀ overrides output set, (⟨c, overrides⟩ : Project).generate = .ok output →
        (⟨c, overrides⟩ : Project).declarations = .ok set →
        ∀ u, ¬TransGen set.RefersToUnion u u) := by
  have hnamed := Catalogue.load_wellNamed hc
  refine ⟨fun u hu => ⟨hnamed.expands_iff, fun leaves h l hl => ?_⟩, fun overrides output houtput => ?_,
    fun hnone => ⟨fun u _ => ?_, fun overrides output set houtput hset u hu => ?_⟩⟩
  · have hvalue : ∀ m ∈ [u], c.HasValue m :=
      List.forall_mem_singleton.mpr ⟨.union, hu, nofun, nofun⟩
    exact ⟨h.hasValue hnamed hvalue l hl, h.ne_union l hl⟩
  · obtain ⟨set, hset, hrefers⟩ := refersToUnion_of_generate hc houtput
    exact ⟨set, hset, fun u => by rw [hrefers]⟩
  · exact hnamed.expands_iff.mpr fun v _ => hnone v
  -- Aliases refer to each other only where unions list each other, so they have no other circles.
  · obtain ⟨set', hset', hrefers⟩ := refersToUnion_of_generate hc houtput
    obtain rfl := Except.ok.inj (hset.symm.trans hset')
    rw [hrefers] at hu
    exact hnone u (TransGen.mono (fun _ _ h => h.1) _ _ hu)

/-- Unions of unions, one of them with a member from an extension. -/
def nestedText : String :=
  "union A = B | Int union B = String extend union B = D type D { a: A } type Query { a: A }"

theorem Project.circles_of_unions_nestedText : ∃ c output set, Catalogue.load nestedText = .ok c ∧
    c.Expands ["A"] ["String", "D", "Int"] ∧ ¬TransGen c.ListsUnion "A" "A" ∧
    (⟨c, .default⟩ : Project).generate = .ok output ∧
    (⟨c, .default⟩ : Project).declarations = .ok set ∧ ¬TransGen set.RefersToUnion "A" "A" := by
  have heval : ((Catalogue.load nestedText).toOption.bind fun c =>
      (⟨c, .default⟩ : Project).generate.toOption.map fun _ =>
        (c.unions, ["A", "String", "D", "Int"].map c.kindOf?)) =
      some ([("A", ["B", "Int"]), ("B", ["String", "D"])],
        [some .union, some .scalar, some .object, some .scalar]) := by decide +kernel
  obtain ⟨c, output, hc, houtput, heval⟩ := exists_ok_of_toOption heval
  simp only [List.map_cons, List.map_nil, Prod.mk.injEq, List.cons.injEq] at heval
  obtain ⟨hunions, hA, hString, hD, hInt, -⟩ := heval
  have hB : c.Expands ["B"] ["String", "D"] :=
    .union (by rw [hunions]; decide) (.leaf (by simp [hString]) (.leaf (by simp [hD]) .nil)) .nil
  have hexpands : c.Expands ["A"] ["String", "D", "Int"] :=
    .union (by rw [hunions]; decide) (hB.append (.leaf (by simp [hInt]) .nil)) .nil
  obtain ⟨hends, halias, -⟩ := circles_of_unions hc
  have hnone := (hends "A" hA).1.mp ⟨_, hexpands⟩ "A" .refl
  obtain ⟨set, hset, hrefers⟩ := halias .default output houtput
  exact ⟨c, output, set, hc, hexpands, hnone, houtput, hset,
    fun h => hnone (TransGen.mono (fun _ _ h => h.1) _ _ ((hrefers "A").mp h))⟩

/-- Two unions in a circle, which an extension closes. -/
def circularText : String :=
  "union A = B union B = Int extend union B = A type Query { a: A }"

/-- A schema with a circle of unions loads, and a module is generated from it: the circle has no
expansion, and a name is defined by itself. -/
theorem Project.circles_of_unions_circularText : ∃ c output set,
    Catalogue.load circularText = .ok c ∧ TransGen c.ListsUnion "A" "A" ∧
    (¬∃ leaves, c.Expands ["A"] leaves) ∧ (⟨c, .default⟩ : Project).generate = .ok output ∧
    (⟨c, .default⟩ : Project).declarations = .ok set ∧ TransGen set.RefersToUnion "A" "A" := by
  have heval : ((Catalogue.load circularText).toOption.bind fun c =>
      (⟨c, .default⟩ : Project).generate.toOption.map fun _ =>
        (c.unions, ["A", "B"].map c.kindOf?)) =
      some ([("A", ["B"]), ("B", ["Int", "A"])], [some .union, some .union]) := by decide +kernel
  obtain ⟨c, output, hc, houtput, heval⟩ := exists_ok_of_toOption heval
  simp only [List.map_cons, List.map_nil, Prod.mk.injEq, List.cons.injEq] at heval
  obtain ⟨hunions, hA, hB, -⟩ := heval
  have hAB : c.ListsUnion "A" "B" := ⟨⟨["B"], by rw [hunions]; decide, by decide⟩, hB⟩
  have hBA : c.ListsUnion "B" "A" := ⟨⟨["Int", "A"], by rw [hunions]; decide, by decide⟩, hA⟩
  have hcircle : TransGen c.ListsUnion "A" "A" := .tail (.single hAB) hBA
  obtain ⟨set, hset, hrefers⟩ := refersToUnion_of_generate hc houtput
  refine ⟨c, output, set, hc, hcircle, fun h => ?_, houtput, hset, ?_⟩
  · exact (Catalogue.load_wellNamed hc).expands_iff.mp h "A" .refl hcircle
  · rw [hrefers]
    exact TransGen.mono (fun _ _ h => ⟨h, rfl⟩) _ _ hcircle

end ResolverContracts
