import ResolverContracts.Proofs.Contract.Collation
import ResolverContracts.Proofs.Text.ByteOrder
/-!
# The order of imports

The statements of a ledger come in the order of their modules, and in each the default export is in
front of the symbols, which are in order, too. Order is that of bytes and strict, so nothing is listed
twice (`ImportLedger.Collated`). As a list in strict order is known by what is in it, the text does not
depend on the order in which the symbols were added, nor on how often (`ImportLedger.render_congr`).
-/

set_option autoImplicit false

namespace ResolverContracts

/-! ## Texts in strict order -/

/-- What is left of a list comes in its order. -/
theorem eraseDups_sublist (texts : List String) : texts.eraseDups.Sublist texts := by
  match texts with
  | [] => exact List.Sublist.refl []
  | text :: texts =>
    have hshorter : (texts.filter fun b => !b == text).length < (text :: texts).length :=
      Nat.lt_succ_of_le (List.length_filter_le _ _)
    rw [List.eraseDups_cons]
    exact ((eraseDups_sublist (texts.filter fun b => !b == text)).trans
      List.filter_sublist).cons_cons text
termination_by texts.length
decreasing_by exact hshorter

theorem lt_of_le_of_ne {a b : String} (hle : a ≤ b) (hne : a ≠ b) : a < b := by
  by_contra hnot
  exact hne (String.le_antisymm hle (String.not_lt.mp hnot))

namespace ImportLedger

theorem pairwise_sortedTexts (texts : List String) : (sortedTexts texts).Pairwise (· < ·) := by
  have hle : (texts.mergeSort fun a b => decide (a ≤ b)).Pairwise fun a b => decide (a ≤ b) = true :=
    List.pairwise_mergeSort (by simpa using fun _ _ _ => String.le_trans)
      (by simpa using String.le_total) texts
  have hsorted := hle.sublist (eraseDups_sublist _)
  exact (hsorted.and (nodup_sortedTexts texts)).imp fun h => lt_of_le_of_ne (by simpa using h.1) h.2

/-- The order in which texts came, and how often, is forgotten. -/
theorem sortedTexts_congr {texts texts' : List String} (h : ∀ t, t ∈ texts ↔ t ∈ texts') :
    sortedTexts texts = sortedTexts texts' := by
  have hperm : (sortedTexts texts).Perm (sortedTexts texts') := by
    rw [List.perm_ext_iff_of_nodup (nodup_sortedTexts _) (nodup_sortedTexts _)]
    simpa using h
  refine hperm.eq_of_pairwise (fun a b _ _ hab hba => ?_) (pairwise_sortedTexts _)
    (pairwise_sortedTexts _)
  exact absurd hba (String.lt_asymm hab)

/-! ## The same statements -/

variable {l l' : ImportLedger}

theorem nodup_of_length_le_one {xs : List String} (h : xs.length ≤ 1) : xs.Nodup := by
  cases xs with
  | nil => exact List.nodup_nil
  | cons x xs =>
    obtain rfl : xs = [] := List.length_eq_zero_iff.mp (Nat.le_zero.mp (Nat.le_of_succ_le_succ h))
    exact List.nodup_singleton x

theorem eq_of_length_le_one {xs ys : List String} (hxs : xs.length ≤ 1) (hys : ys.length ≤ 1)
    (h : ∀ x, x ∈ xs ↔ x ∈ ys) : xs = ys := by
  have hperm : xs.Perm ys :=
    (List.perm_ext_iff_of_nodup (nodup_of_length_le_one hxs) (nodup_of_length_le_one hys)).mpr h
  cases xs with
  | nil => exact hperm.nil_eq
  | cons x xs =>
    obtain rfl : xs = [] := List.length_eq_zero_iff.mp (Nat.le_zero.mp (Nat.le_of_succ_le_succ hxs))
    exact (List.perm_singleton.mp hperm.symm).symm

/-- Ledgers of the same entries have the same statement for a module. -/
theorem statementOf_congr (hl : l.names.Nodup) (hdefaults : l.DefaultsUnique)
    (hl' : l'.names.Nodup) (hdefaults' : l'.DefaultsUnique)
    (h : ∀ e, e ∈ l.entries ↔ e ∈ l'.entries) (path : String) :
    l.statementOf path = l'.statementOf path := by
  have hnames : (l.statementOf path).defaults = (l'.statementOf path).defaults := by
    refine eq_of_length_le_one (length_defaults_statementOf hl hdefaults)
      (length_defaults_statementOf hl' hdefaults') fun name => ?_
    rw [mem_defaults_statementOf, mem_defaults_statementOf, h]
  have hsymbols : (l.statementOf path).symbols = (l'.statementOf path).symbols :=
    sortedTexts_congr fun text => by simp only [List.mem_map, List.mem_filter, h]
  exact congrArg₂ (ImportStatement.mk path) hnames hsymbols

/-- **The same text.** Ledgers of the same entries are written alike. -/
theorem render_congr (hl : l.names.Nodup) (hdefaults : l.DefaultsUnique)
    (hl' : l'.names.Nodup) (hdefaults' : l'.DefaultsUnique)
    (h : ∀ e, e ∈ l.entries ↔ e ∈ l'.entries) : l.render = l'.render := by
  have hpaths : sortedTexts (l.entries.map (·.path)) = sortedTexts (l'.entries.map (·.path)) :=
    sortedTexts_congr fun path => by simp only [List.mem_map, h]
  have hstatements : l.statements = l'.statements := by
    rw [statements, statements, hpaths]
    exact List.map_congr_left fun path _ => statementOf_congr hl hdefaults hl' hdefaults' h path
  rw [render_eq, render_eq, hstatements]

end ImportLedger

/-! ## Entries and what is listed -/

/-- Something that is listed: a default export by its local name, or a symbol. -/
inductive ImportItem
  | default (path name : String)
  | symbol (path text : String)
  deriving DecidableEq

/-- The module it is imported from. -/
def ImportItem.path : ImportItem → String
  | default path _ | symbol path _ => path

/-- What a statement lists for an entry. -/
def ImportEntry.item (e : ImportEntry) : ImportItem :=
  if e.clause = .default then .default e.path e.name else .symbol e.path e.clause.text

/-- All that a statement lists. -/
def ImportStatement.items (s : ImportStatement) : List ImportItem :=
  s.defaults.map (.default s.path) ++ s.symbols.map (.symbol s.path)

theorem ImportStatement.path_of_mem_items {s : ImportStatement} {x : ImportItem} (hx : x ∈ s.items) :
    x.path = s.path := by
  rcases List.mem_append.mp hx with hx | hx
  · obtain ⟨_, -, rfl⟩ := List.mem_map.mp hx
    rfl
  · obtain ⟨_, -, rfl⟩ := List.mem_map.mp hx
    rfl

namespace ImportLedger

variable {l : ImportLedger}

/-- The statements list what the ledger has, and nothing else. -/
theorem StatedBy.mem_items_iff {statements : List ImportStatement} (h : l.StatedBy statements)
    {x : ImportItem} : x ∈ statements.flatMap (·.items) ↔ x ∈ l.entries.map (·.item) := by
  rw [List.mem_flatMap, List.mem_map]
  constructor
  · rintro ⟨s, hs, hx⟩
    rcases List.mem_append.mp hx with hx | hx
    · obtain ⟨name, hname, rfl⟩ := List.mem_map.mp hx
      exact ⟨_, (h.defaults s hs name).mp hname, if_pos rfl⟩
    · obtain ⟨text, htext, rfl⟩ := List.mem_map.mp hx
      obtain ⟨e, he, hpath, hclause, rfl⟩ := (h.symbols s hs text).mp htext
      refine ⟨e, he, ?_⟩
      rw [ImportEntry.item, if_neg hclause, hpath]
  · rintro ⟨e, he, rfl⟩
    obtain ⟨s, hs, hpath⟩ := List.mem_map.mp ((h.paths e.path).mpr ⟨e, he, rfl⟩)
    refine ⟨s, hs, ?_⟩
    rw [ImportEntry.item, ← hpath]
    by_cases hclause : e.clause = .default
    · rw [if_pos hclause]
      refine List.mem_append_left _ (List.mem_map_of_mem ((h.defaults s hs e.name).mpr ?_))
      rw [hpath, ← hclause]
      exact he
    · rw [if_neg hclause]
      exact List.mem_append_right _
        (List.mem_map_of_mem ((h.symbols s hs _).mpr ⟨e, he, hpath.symm, hclause, rfl⟩))

/-- Nothing is listed twice: neither in a statement, nor in two, which are of different modules. -/
theorem StatedBy.nodup_items {statements : List ImportStatement} (h : l.StatedBy statements)
    (hsymbols : ∀ s ∈ statements, s.symbols.Nodup) : (statements.flatMap (·.items)).Nodup := by
  rw [List.nodup_flatMap]
  constructor
  · intro s hs
    rw [ImportStatement.items, List.nodup_append']
    have hdefaults := nodup_of_length_le_one (h.single s hs)
    refine ⟨hdefaults.map fun _ _ => by simp, (hsymbols s hs).map fun _ _ => by simp, ?_⟩
    intro x hx hx'
    obtain ⟨_, -, rfl⟩ := List.mem_map.mp hx
    obtain ⟨_, -, hx'⟩ := List.mem_map.mp hx'
    nomatch hx'
  · refine (List.pairwise_map.mp h.nodup).imp fun hne x hx hx' => hne ?_
    rw [← ImportStatement.path_of_mem_items hx, ← ImportStatement.path_of_mem_items hx']

end ImportLedger

/-- An entry as a reference asks for it: the local name of a symbol is said by its clause. -/
structure ImportEntry.IsPlain (e : ImportEntry) : Prop where
  clause : e.clause.IsPlain
  name : ∀ n, e.clause.localName? = some n → n = e.name

/-- An entry is known by what is listed for it. -/
theorem ImportEntry.IsPlain.item_injective {e e' : ImportEntry} (he : e.IsPlain) (he' : e'.IsPlain)
    (h : e.item = e'.item) : e = e' := by
  have hname := he.name
  have hname' := he'.name
  have hinjective := he.clause.text_injective he'.clause
  obtain ⟨name, path, clause⟩ := e
  obtain ⟨name', path', clause'⟩ := e'
  cases clause with
  | default =>
    cases clause' with
    | default =>
      obtain ⟨rfl, rfl⟩ := ImportItem.default.inj h
      rfl
    | named => nomatch h
  | named symbol rename =>
    cases clause' with
    | default => nomatch h
    | named symbol' rename' =>
      obtain ⟨rfl, htext⟩ := ImportItem.symbol.inj h
      obtain ⟨rfl, rfl⟩ := Clause.named.inj (hinjective htext)
      obtain rfl : name = name' := (hname _ rfl).symm.trans (hname' _ rfl)
      rfl

/-! ## All of it -/

/-- Imports as they should be written: what is listed are the entries, one for one, with a statement for
each module. Modules are in the order of their bytes, and so are the symbols of each. -/
structure ImportLedger.Collated (l : ImportLedger) : Prop where
  names : l.names.Nodup
  stated : l.StatedBy l.statements
  nodup : (l.statements.flatMap (·.items)).Nodup
  listed : (l.entries.map (·.item)).Perm (l.statements.flatMap (·.items))
  paths : (l.statements.map (·.path)).Pairwise fun a b => utf8Bytes a < utf8Bytes b
  symbols : ∀ s ∈ l.statements, s.symbols.Pairwise fun a b => utf8Bytes a < utf8Bytes b
  text : l.render = "\n".intercalate (l.statements.map (·.render))

namespace ImportLedger

variable {l : ImportLedger} {targets : List External}

/-- Entries of a ledger come from references, so what they list can be read back. -/
theorem isPlain_of_addAll_empty (htargets : ∀ t ∈ targets, t.FromReference)
    (h : empty.addAll targets = .ok l) : ∀ e ∈ l.entries, e.IsPlain := by
  intro e he
  obtain ⟨t, ht, hneeded⟩ := (mem_addAll_empty_iff h).mp he
  exact ⟨(htargets t ht).isPlain hneeded, fun n hn => (htargets t ht).stands.localName hneeded hn⟩

theorem pairwise_utf8Bytes_sortedTexts (texts : List String) :
    (sortedTexts texts).Pairwise fun a b => utf8Bytes a < utf8Bytes b :=
  (pairwise_sortedTexts texts).imp lt_iff_utf8Bytes_lt.mp

/-- **Imports of references.** They are written as they should be. -/
theorem collated_of_addAll_empty (htargets : ∀ t ∈ targets, t.FromReference)
    (h : empty.addAll targets = .ok l) : l.Collated := by
  have hnames := nodup_names_addAll_empty h
  have hstated := statedBy_statements hnames (defaultsUnique_addAll_empty h)
  have hplain := isPlain_of_addAll_empty htargets h
  have hsymbols : ∀ s ∈ l.statements, ∃ texts, s.symbols = sortedTexts texts := by
    intro s hs
    obtain ⟨path, -, rfl⟩ := List.mem_map.mp hs
    exact ⟨_, rfl⟩
  have hitems : (l.statements.flatMap (·.items)).Nodup := by
    refine hstated.nodup_items fun s hs => ?_
    obtain ⟨texts, hs⟩ := hsymbols s hs
    rw [hs]
    exact nodup_sortedTexts texts
  have hentries : (l.entries.map (·.item)).Nodup :=
    (List.Nodup.of_map _ hnames).map_on fun e he e' he' hitem =>
      (hplain e he).item_injective (hplain e' he') hitem
  refine ⟨hnames, hstated, hitems, ?_, ?_, fun s hs => ?_, render_eq l⟩
  · rw [List.perm_ext_iff_of_nodup hentries hitems]
    exact fun x => hstated.mem_items_iff.symm
  · rw [statements, List.map_map]
    exact (List.map_id _).symm ▸ pairwise_utf8Bytes_sortedTexts (l.entries.map (·.path))
  · obtain ⟨texts, hs⟩ := hsymbols s hs
    rw [hs]
    exact pairwise_utf8Bytes_sortedTexts texts

/-- The same symbols in another order, or more or less often, give the same text. -/
theorem exists_render_eq {targets' : List External} (h : empty.addAll targets = .ok l)
    (hsame : ∀ t, t ∈ targets' ↔ t ∈ targets) :
    ∃ l', empty.addAll targets' = .ok l' ∧ l'.render = l.render := by
  have hneeded (e : ImportEntry) : Needed targets' e ↔ Needed targets e := by
    simp only [Needed, hsame]
  have hcompatible := (exists_addAll_empty_iff.mp ⟨l, h⟩).imp fun e => (hneeded e).mp
  obtain ⟨l', h'⟩ := exists_addAll_empty_iff.mpr hcompatible
  refine ⟨l', h', render_congr (nodup_names_addAll_empty h') (defaultsUnique_addAll_empty h')
    (nodup_names_addAll_empty h) (defaultsUnique_addAll_empty h) fun e => ?_⟩
  rw [mem_addAll_empty_iff h', mem_addAll_empty_iff h, hneeded]

end ImportLedger

namespace DeclarationSet

variable {set : DeclarationSet}

theorem exists_render_iff : (∃ text, set.render = .ok text) ↔ ∃ l, set.checkedImports = .ok l := by
  simp only [render, bind_eq_ok_iff]
  constructor
  · rintro ⟨text, l, hl, -⟩
    exact ⟨l, hl⟩
  · rintro ⟨l, hl⟩
    exact ⟨_, l, hl, rfl⟩

/-- Names of a module are checked exactly if nothing is declared twice, what is needed can be imported,
and no local name is declared. -/
theorem exists_checkedImports_iff : (∃ l, set.checkedImports = .ok l) ↔
    set.declaredNames.Nodup ∧ Compatible (Needed set.neededExternals) ∧
      ∀ e, Needed set.neededExternals e → e.name ∉ set.declaredNames := by
  simp only [checkedImports_eq_ok_iff, ← ImportLedger.exists_addAll_empty_iff]
  constructor
  · rintro ⟨l, hdeclared, hl, hshadowed⟩
    exact ⟨hdeclared, ⟨l, hl⟩, fun e he => hshadowed e ((ImportLedger.mem_addAll_empty_iff hl).mpr he)⟩
  · rintro ⟨hdeclared, ⟨l, hl⟩, hshadowed⟩
    exact ⟨l, hdeclared, hl, fun e he => hshadowed e ((ImportLedger.mem_addAll_empty_iff hl).mp he)⟩

theorem fromReference_librarySymbol {name : String}
    (h : Symbol.parse ("graphql#" ++ name) = .ok (.named "graphql" name)) :
    (librarySymbol name).FromReference :=
  ⟨_, _, name, h, rfl⟩

/-- The symbols of the library are as a reference would ask for them. -/
theorem fromReference_neededExternals (h : ∀ t ∈ set.externals, t.FromReference) :
    ∀ t ∈ set.neededExternals, t.FromReference := by
  intro t ht
  rw [neededExternals, List.mem_append, List.mem_append] at ht
  rcases ht with (ht | ht) | ht
  · obtain rfl := List.mem_singleton.mp ht
    exact fromReference_librarySymbol (by decide +kernel)
  · split at ht
    · obtain rfl := List.mem_singleton.mp ht
      exact fromReference_librarySymbol (by decide +kernel)
    · exact absurd ht List.not_mem_nil
  · exact h t ht

end DeclarationSet

/-- Symbols that are read from references can be imported together exactly if no local name stands for
two of them and no module has its default export under two names. The imports then are written as they
should be, and alike for all lists of the same symbols. A module of such symbols has a text exactly if no
name is declared twice, its imports go together, and none of their names is declared. -/
theorem ImportLedger.collation_of_references :
    (∀ targets : List External, (∀ t ∈ targets, t.FromReference) →
      ((∃ l, empty.addAll targets = .ok l) ↔ GoTogether targets) ∧
      ∀ l, empty.addAll targets = .ok l → l.Collated ∧
        ∀ targets', (∀ t, t ∈ targets' ↔ t ∈ targets) →
          ∃ l', empty.addAll targets' = .ok l' ∧ l'.render = l.render) ∧
    ∀ set : DeclarationSet, (∀ t ∈ set.externals, t.FromReference) →
      ((∃ text, set.render = .ok text) ↔
        set.declaredNames.Nodup ∧ GoTogether set.neededExternals ∧
          ∀ e, Needed set.neededExternals e → e.name ∉ set.declaredNames) := by
  refine ⟨fun targets htargets => ⟨?_, fun l hl => ⟨?_, fun targets' hsame => ?_⟩⟩,
    fun set hset => ?_⟩
  · rw [exists_addAll_empty_iff, goTogether_iff htargets]
  · exact collated_of_addAll_empty htargets hl
  · exact exists_render_eq hl hsame
  · rw [DeclarationSet.exists_render_iff, DeclarationSet.exists_checkedImports_iff,
      goTogether_iff (DeclarationSet.fromReference_neededExternals hset)]

/-- Symbols of two modules, one of them listed twice. -/
def rowSymbols : List External :=
  [⟨.imported "./rows" (.named "Model") (some "Row"), "Row"⟩, ⟨.imported "./rows" .default none, "Book"⟩,
    ⟨.named "./db" "Author", "Author"⟩, ⟨.imported "./rows" (.named "Model") (some "Row"), "Row"⟩]

/-- A module with nothing but helpers, and a context of its own. -/
def helpersOnly : DeclarationSet := ⟨⟨.named "./context" "Context", "Context"⟩, [.helpers]⟩

theorem ImportLedger.collation_of_references_rowSymbols :
    (∀ t ∈ rowSymbols, t.FromReference) ∧ GoTogether rowSymbols ∧
    (∃ l l', empty.addAll rowSymbols = .ok l ∧ l.Collated ∧
      empty.addAll (rowSymbols.reverse ++ rowSymbols) = .ok l' ∧ l'.render = l.render) ∧
    (∀ t ∈ helpersOnly.externals, t.FromReference) ∧ GoTogether helpersOnly.neededExternals := by
  have hrow : (⟨.imported "./rows" (.named "Model") (some "Row"), "Row"⟩ : External).FromReference :=
    ⟨"./rows#Model as Row", _, "Book", by decide +kernel, rfl⟩
  have hbook : (⟨.imported "./rows" .default none, "Book"⟩ : External).FromReference :=
    ⟨"./rows#default", _, "Book", by decide +kernel, rfl⟩
  have hauthor : (⟨.named "./db" "Author", "Author"⟩ : External).FromReference :=
    ⟨"./db#Author", _, "Author", by decide +kernel, rfl⟩
  have hcontext : (⟨.named "./context" "Context", "Context"⟩ : External).FromReference :=
    ⟨"./context#Context", _, "Context", by decide +kernel, rfl⟩
  have hrows : ∀ t ∈ rowSymbols, t.FromReference := by simp [rowSymbols, hrow, hbook, hauthor]
  have hexternals : ∀ t ∈ helpersOnly.externals, t.FromReference :=
    List.forall_mem_singleton.mpr hcontext
  have hledger : (empty.addAll rowSymbols).toOption.isSome = true := by decide +kernel
  have htext : helpersOnly.render.toOption.isSome = true := by decide +kernel
  obtain ⟨hlists, hsets⟩ := collation_of_references
  obtain ⟨l, hl⟩ := Option.isSome_iff_exists.mp hledger
  obtain ⟨text, htext⟩ := Option.isSome_iff_exists.mp htext
  have hl := toOption_eq_some_iff.mp hl
  obtain ⟨htogether, hsuccess⟩ := hlists rowSymbols hrows
  obtain ⟨hcollated, hsame⟩ := hsuccess l hl
  obtain ⟨l', hl', hrender⟩ := hsame (rowSymbols.reverse ++ rowSymbols) (by simp)
  obtain ⟨-, hneeded, -⟩ := (hsets helpersOnly hexternals).mp ⟨text, toOption_eq_some_iff.mp htext⟩
  exact ⟨hrows, htogether.mp ⟨l, hl⟩, ⟨l, l', hl, hcollated, hl', hrender⟩, hexternals, hneeded⟩

end ResolverContracts
