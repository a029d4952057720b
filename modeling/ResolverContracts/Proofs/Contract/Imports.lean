import Mathlib.Data.List.Nodup
import ResolverContracts.Contract.Generate
import ResolverContracts.Proofs.Contract.Successes
/-!
# What a module imports

An external symbol needs one entry in the ledger of imports, and a type expression taken as it is
needs none (`External.needed?`). Adding a symbol either finds its entry or puts it there, and no entry
is ever taken out or changed. So a ledger that took in several symbols holds their entries and no
others, which is all that is needed to know of the order in which they came. As an entry is only added under a
name that is free, no name is bound twice.

The check before writing is taken apart in `DeclarationSet.checkedImports_eq_ok_iff`.
-/

set_option autoImplicit false

namespace ResolverContracts

/-- The entry of the ledger that a symbol needs, if it needs one. -/
def External.needed? (target : External) : Option ImportEntry :=
  match target.symbol with
  | .verbatim _ => none
  | .imported path binding rename => some ⟨target.name, path, binding.clause rename⟩

namespace ImportLedger

variable {l l' : ImportLedger} {e : ImportEntry}

theorem mem_bind_iff {entry : ImportEntry} (h : l.bind entry = .ok l') :
    e ∈ l'.entries ↔ e ∈ l.entries ∨ entry = e := by
  rw [bind] at h
  split at h
  · nomatch h
  · obtain rfl := Except.ok.inj h
    rw [List.mem_append, List.mem_singleton, eq_comm (a := e)]

/-- **The step.** Adding a symbol adds the entry it needs. -/
theorem mem_add_iff {target : External} (h : l.add target = .ok l') :
    e ∈ l'.entries ↔ e ∈ l.entries ∨ target.needed? = some e := by
  rw [add] at h
  rw [External.needed?]
  cases hsymbol : target.symbol with
  | verbatim text =>
    rw [hsymbol] at h
    obtain rfl := Except.ok.inj h
    simp
  | imported path binding rename =>
    rw [hsymbol] at h
    simp only at h
    cases hfind : l.find? target.name with
    | none =>
      rw [hfind] at h
      rw [mem_bind_iff h, Option.some_inj]
    | some bound =>
      rw [hfind] at h
      simp only at h
      by_cases hsame : bound = ⟨target.name, path, binding.clause rename⟩
      · -- The entry is there already, under the name it is looked up by.
        rw [if_pos hsame] at h
        obtain rfl := Except.ok.inj h
        have hmem : bound ∈ l.entries := List.mem_of_find?_eq_some hfind
        rw [Option.some_inj, ← hsame]
        constructor
        · exact Or.inl
        · rintro (he | rfl)
          · exact he
          · exact hmem
      · rw [if_neg hsame] at h
        nomatch h

/-- **The run.** A ledger that took in symbols holds what it held and what they need. -/
theorem mem_addAll_iff {targets : List External} (h : l.addAll targets = .ok l') :
    e ∈ l'.entries ↔ e ∈ l.entries ∨ ∃ target ∈ targets, target.needed? = some e := by
  induction targets generalizing l with
  | nil =>
    obtain rfl := Except.ok.inj h
    simp
  | cons target targets ih =>
    rw [addAll, List.foldlM_cons] at h
    obtain ⟨l₁, hstep, hrun⟩ := bind_eq_ok_iff.mp h
    rw [ih hrun, mem_add_iff hstep, or_assoc]
    simp

/-! ## Names -/

/-- The names that are bound. -/
def names (l : ImportLedger) : List String := l.entries.map (·.name)

theorem nodup_names_bind {entry : ImportEntry} (hl : l.names.Nodup) (hnew : entry.name ∉ l.names)
    (h : l.bind entry = .ok l') : l'.names.Nodup := by
  rw [bind] at h
  split at h
  · nomatch h
  · obtain rfl := Except.ok.inj h
    rw [names, List.map_append, List.map_singleton]
    exact List.nodup_append'.mpr
      ⟨hl, List.nodup_singleton _, List.disjoint_singleton.mpr hnew⟩

/-- A name is only bound when it is free. -/
theorem nodup_names_add {target : External} (hl : l.names.Nodup) (h : l.add target = .ok l') :
    l'.names.Nodup := by
  rw [add] at h
  cases hsymbol : target.symbol with
  | verbatim text =>
    rw [hsymbol] at h
    obtain rfl := Except.ok.inj h
    exact hl
  | imported path binding rename =>
    rw [hsymbol] at h
    simp only at h
    cases hfind : l.find? target.name with
    | none =>
      -- The name was looked up and not found.
      rw [hfind] at h
      refine nodup_names_bind hl (fun hmem => ?_) h
      obtain ⟨bound, hbound, hname⟩ := List.mem_map.mp hmem
      exact List.find?_eq_none.mp hfind bound hbound (beq_iff_eq.mpr hname)
    | some bound =>
      rw [hfind] at h
      simp only at h
      split at h
      · obtain rfl := Except.ok.inj h
        exact hl
      · nomatch h

theorem nodup_names_addAll {targets : List External} (hl : l.names.Nodup)
    (h : l.addAll targets = .ok l') : l'.names.Nodup := by
  induction targets generalizing l with
  | nil =>
    obtain rfl := Except.ok.inj h
    exact hl
  | cons target targets ih =>
    rw [addAll, List.foldlM_cons] at h
    obtain ⟨l₁, hstep, hrun⟩ := bind_eq_ok_iff.mp h
    exact ih (nodup_names_add hl hstep) hrun

end ImportLedger

/-- The search for a repeated name finds nothing in names that are all different and new. -/
theorem firstRepeated?_eq_none_iff {seen names : List String} :
    firstRepeated? seen names = none ↔ names.Nodup ∧ ∀ n ∈ names, n ∉ seen := by
  induction names generalizing seen with
  | nil => simp [firstRepeated?]
  | cons name names ih =>
    rw [firstRepeated?]
    by_cases hseen : name ∈ seen
    · simp [hseen]
    · rw [if_neg (by simpa using hseen), ih, List.nodup_cons]
      simp only [List.mem_cons, not_or, forall_eq_or_imp]
      -- What comes later is different from this name and from what was seen before.
      grind

namespace DeclarationSet

variable {set : DeclarationSet} {ledger : ImportLedger}

theorem shadowed?_eq_none_iff :
    set.shadowed? ledger = none ↔ ∀ e ∈ ledger.entries, e.name ∉ set.declaredNames := by
  rw [shadowed?, List.head?_eq_none_iff, ← List.length_eq_zero_iff, List.length_mergeSort,
    List.length_eq_zero_iff, List.filter_eq_nil_iff]
  simp

/-- **The check of names.** Imports pass when no name is declared twice, the symbols that are needed go
together, and none of them has the name of a declaration. -/
theorem checkedImports_eq_ok_iff :
    set.checkedImports = .ok ledger ↔ set.declaredNames.Nodup ∧ set.imports = .ok ledger ∧
      ∀ e ∈ ledger.entries, e.name ∉ set.declaredNames := by
  rw [checkedImports]
  cases hrepeated : firstRepeated? [] set.declaredNames with
  | some name =>
    refine iff_of_false nofun fun ⟨hnodup, _⟩ => ?_
    have hnone : firstRepeated? [] set.declaredNames = none :=
      firstRepeated?_eq_none_iff.mpr ⟨hnodup, fun _ _ => List.not_mem_nil⟩
    nomatch hrepeated.symm.trans hnone
  | none =>
    have hnodup := (firstRepeated?_eq_none_iff.mp hrepeated).1
    rw [bind_eq_ok_iff, ← shadowed?_eq_none_iff]
    constructor
    · rintro ⟨ledger', himports, h⟩
      cases hshadowed : set.shadowed? ledger' with
      | some entry =>
        rw [hshadowed] at h
        nomatch h
      | none =>
        rw [hshadowed] at h
        obtain rfl := Except.ok.inj h
        exact ⟨hnodup, himports, hshadowed⟩
    · rintro ⟨-, himports, hshadowed⟩
      refine ⟨ledger, himports, ?_⟩
      rw [hshadowed]

/-- Names are only looked at once the ledger is there. -/
theorem imports_eq_ok (h : set.checkedImports = .ok ledger) : set.imports = .ok ledger :=
  (checkedImports_eq_ok_iff.mp h).2.1

/-- What is used is imported. -/
theorem mem_entries_of_mem_externals (h : set.imports = .ok ledger) {target : External}
    (htarget : target ∈ set.externals) {e : ImportEntry} (he : target.needed? = some e) :
    e ∈ ledger.entries :=
  (ImportLedger.mem_addAll_iff h).mpr (.inr ⟨target, List.mem_append_right _ htarget, he⟩)

/-- What a type of a declaration needs is imported. -/
theorem mem_entries_of_mem_types (h : set.imports = .ok ledger) {d : Declaration}
    (hd : d ∈ set.declarations) {t : TypeExpr} (ht : t ∈ d.types) {target : External}
    (htarget : target ∈ t.externals) {e : ImportEntry} (he : target.needed? = some e) :
    e ∈ ledger.entries := by
  refine mem_entries_of_mem_externals h (List.mem_cons_of_mem _ ?_) he
  exact List.mem_flatMap.mpr ⟨d, hd, List.mem_flatMap.mpr ⟨t, ht, htarget⟩⟩

/-- A name is imported once. -/
theorem nodup_names_imports (h : set.imports = .ok ledger) : ledger.names.Nodup :=
  ImportLedger.nodup_names_addAll (show ImportLedger.empty.names.Nodup from List.nodup_nil) h

end DeclarationSet

/-- A text is generated from declarations whose names were checked. -/
theorem Project.generate_eq_ok {p : Project} {text : String} (h : p.generate = .ok text) :
    ∃ set ledger, p.declarations = .ok set ∧ set.checkedImports = .ok ledger := by
  obtain ⟨set, hset, h⟩ := bind_eq_ok_iff.mp h
  obtain ⟨ledger, hledger, -⟩ := bind_eq_ok_iff.mp (mapError_eq_ok_iff.mp h)
  exact ⟨set, ledger, mapError_eq_ok_iff.mp hset, hledger⟩

end ResolverContracts
