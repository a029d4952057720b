import ResolverContracts.Proofs.Contract.Imports
/-!
# Import statements

The imports of a module are written as statements, one for each module that something is imported from.
A statement lists what is imported: a default export by its local name, the other symbols in braces.
Here the text of the statements is taken apart (`ImportLedger.render_eq`), and a ledger is compared
with them entry by entry (`ImportLedger.statedBy_statements`).
-/

set_option autoImplicit false

namespace ResolverContracts

/-- An import statement. -/
structure ImportStatement where
  path : String
  /-- The local names of the default export. -/
  defaults : List String
  /-- The other symbols as they are listed. -/
  symbols : List String

namespace ImportStatement

/-- All that is listed. -/
def clauses (s : ImportStatement) : List String := s.defaults ++ s.symbols

/-- The statement as it is written. -/
def render (s : ImportStatement) : String :=
  let named :=
    if s.symbols.isEmpty then [] else ["\x7b " ++ ", ".intercalate s.symbols ++ " \x7d"]
  "import " ++ ", ".intercalate (s.defaults ++ named) ++ " from \"" ++ s.path ++ "\";"

end ImportStatement

/-- The local name that a symbol in braces gets. A default export has none of its own. -/
def Clause.localName? : Clause → Option String
  | default => none
  | named symbol rename => some (rename.getD symbol)

/-! ## Texts in order -/

theorem nodup_eraseDups (texts : List String) : texts.eraseDups.Nodup := by
  match texts with
  | [] => exact List.nodup_nil
  | text :: texts =>
    rw [List.eraseDups_cons, List.nodup_cons, List.mem_eraseDups]
    refine ⟨by simp, ?_⟩
    have hshorter : (texts.filter fun b => !b == text).length < (text :: texts).length :=
      Nat.lt_succ_of_le (List.length_filter_le _ _)
    exact nodup_eraseDups (texts.filter fun b => !b == text)
termination_by texts.length
decreasing_by exact hshorter

namespace ImportLedger

theorem nodup_sortedTexts (texts : List String) : (sortedTexts texts).Nodup := nodup_eraseDups _

@[simp] theorem mem_sortedTexts {text : String} {texts : List String} :
    text ∈ sortedTexts texts ↔ text ∈ texts := by
  rw [sortedTexts, List.mem_eraseDups, List.mem_mergeSort]

/-! ## Statements of a ledger -/

/-- What is imported from a module. -/
def statementOf (l : ImportLedger) (path : String) : ImportStatement where
  path := path
  defaults := ((l.entries.filter (·.path == path)).filter (·.clause == .default)).map (·.name)
  symbols := sortedTexts
    (((l.entries.filter (·.path == path)).filter (·.clause != .default)).map (·.clause.text))

/-- A statement for each module. -/
def statements (l : ImportLedger) : List ImportStatement :=
  (sortedTexts (l.entries.map (·.path))).map l.statementOf

theorem render_eq (l : ImportLedger) :
    l.render = "\n".intercalate (l.statements.map (·.render)) := by
  rw [statements, List.map_map]
  rfl

/-- Statements that import what a ledger has: there is one for each module, it lists something, and what
it lists are the entries of the module, at most one of which is the default export. -/
structure StatedBy (l : ImportLedger) (statements : List ImportStatement) : Prop where
  nodup : (statements.map (·.path)).Nodup
  paths : ∀ path, path ∈ statements.map (·.path) ↔ ∃ e ∈ l.entries, e.path = path
  clauses : ∀ s ∈ statements, s.clauses ≠ []
  single : ∀ s ∈ statements, s.defaults.length ≤ 1
  defaults : ∀ s ∈ statements, ∀ name, name ∈ s.defaults ↔ ⟨name, s.path, .default⟩ ∈ l.entries
  symbols : ∀ s ∈ statements, ∀ text, text ∈ s.symbols ↔
    ∃ e ∈ l.entries, e.path = s.path ∧ e.clause ≠ .default ∧ e.clause.text = text

variable {l l' : ImportLedger} {path : String}

/-- A statement has the default exports of its path, each under its local name. -/
theorem mem_defaults_statementOf {name : String} :
    name ∈ (l.statementOf path).defaults ↔ ⟨name, path, .default⟩ ∈ l.entries := by
  rw [statementOf, List.mem_map]
  constructor
  · rintro ⟨⟨n, from', clause⟩, he, rfl⟩
    simp only [List.mem_filter, beq_iff_eq] at he
    obtain ⟨⟨he, rfl⟩, rfl⟩ := he
    exact he
  · intro he
    exact ⟨⟨name, path, .default⟩, by simpa using he, rfl⟩

/-- Behind them stand the other symbols of the path, as their clauses are written. -/
theorem mem_symbols_statementOf {text : String} : text ∈ (l.statementOf path).symbols ↔
    ∃ e ∈ l.entries, e.path = path ∧ e.clause ≠ .default ∧ e.clause.text = text := by
  simp only [statementOf, mem_sortedTexts, List.mem_map, List.mem_filter, beq_iff_eq, bne_iff_ne,
    and_assoc]

/-- An entry has a place in the statement of its path, so no statement is empty. -/
theorem clauses_statementOf {e : ImportEntry} (he : e ∈ l.entries) :
    (l.statementOf e.path).clauses ≠ [] := by
  obtain ⟨name, path, clause⟩ := e
  cases clause with
  | default =>
    have hmem := mem_defaults_statementOf.mpr he
    exact List.ne_nil_of_mem (List.mem_append_left _ hmem)
  | named symbol rename =>
    have hmem := mem_symbols_statementOf.mpr ⟨_, he, rfl, nofun, rfl⟩
    exact List.ne_nil_of_mem (List.mem_append_right _ hmem)

/-! ## Default exports -/

/-- The default export of a module goes by one name. -/
def DefaultsUnique (l : ImportLedger) : Prop :=
  ∀ e ∈ l.entries, ∀ e' ∈ l.entries, e.clause = .default → e'.clause = .default →
    e.path = e'.path → e = e'

/-- A second name is refused. -/
theorem defaultsUnique_bind {entry : ImportEntry} (hl : l.DefaultsUnique)
    (h : l.bind entry = .ok l') : l'.DefaultsUnique := by
  rw [bind] at h
  split at h
  · cases h
  · next hfree =>
    obtain rfl := Except.ok.inj h
    have hnew (e : ImportEntry) (he : e ∈ l.entries) (hdefault : e.clause = .default)
        (hentry : entry.clause = .default) : e.path ≠ entry.path := by
      rw [if_pos hentry] at hfree
      intro hpath
      exact List.find?_eq_none.mp hfree e he (by simp [hpath, hdefault])
    intro e he e' he' hdefault hdefault' hpath
    simp only [List.mem_append, List.mem_singleton] at he he'
    rcases he with he | rfl
    · rcases he' with he' | rfl
      · exact hl e he e' he' hdefault hdefault' hpath
      · exact absurd hpath (hnew e he hdefault hdefault')
    · rcases he' with he' | rfl
      · exact absurd hpath.symm (hnew e' he' hdefault' hdefault)
      · rfl

theorem defaultsUnique_add {target : External} (hl : l.DefaultsUnique)
    (h : l.add target = .ok l') : l'.DefaultsUnique := by
  rw [add] at h
  cases hsymbol : target.symbol with
  | verbatim text =>
    rw [hsymbol] at h
    obtain rfl := Except.ok.inj h
    exact hl
  | imported path binding rename =>
    rw [hsymbol] at h
    simp only at h
    cases hfind : l.find? target.name with
    | none =>
      rw [hfind] at h
      exact defaultsUnique_bind hl h
    | some bound =>
      rw [hfind] at h
      simp only at h
      split at h
      · obtain rfl := Except.ok.inj h
        exact hl
      · cases h

theorem defaultsUnique_addAll {targets : List External} (hl : l.DefaultsUnique)
    (h : l.addAll targets = .ok l') : l'.DefaultsUnique := by
  induction targets generalizing l with
  | nil =>
    obtain rfl := Except.ok.inj h
    exact hl
  | cons target targets ih =>
    rw [addAll, List.foldlM_cons] at h
    obtain ⟨l₁, hstep, hrun⟩ := bind_eq_ok_iff.mp h
    exact ih (defaultsUnique_add hl hstep) hrun

/-- What is listed before the braces is one name at most. -/
theorem length_defaults_statementOf (hnodup : l.names.Nodup) (hl : l.DefaultsUnique) :
    (l.statementOf path).defaults.length ≤ 1 := by
  have hentries : l.entries.Nodup := hnodup.of_map
  rw [statementOf, List.length_map]
  have hall : ∀ e ∈ (l.entries.filter (·.path == path)).filter (·.clause == .default),
      e ∈ l.entries ∧ e.path = path ∧ e.clause = .default := by
    simp only [List.mem_filter, beq_iff_eq, and_assoc, imp_self, implies_true]
  have hdistinct := (hentries.filter (·.path == path)).filter (·.clause == .default)
  generalize (l.entries.filter (·.path == path)).filter (·.clause == .default) = exports
    at hall hdistinct ⊢
  match exports with
  | [] => exact Nat.zero_le 1
  | [_] => exact Nat.le_refl 1
  | e :: e' :: _ =>
    -- Two default exports of the module would be the same entry.
    obtain ⟨he, hpath, hdefault⟩ := hall e List.mem_cons_self
    obtain ⟨he', hpath', hdefault'⟩ := hall e' (List.mem_cons_of_mem _ List.mem_cons_self)
    obtain rfl := hl e he e' he' hdefault hdefault' (hpath.trans hpath'.symm)
    exact absurd List.mem_cons_self (List.nodup_cons.mp hdistinct).1

/-- **Statements of a ledger.** In a ledger that binds no name twice, the statements are about the
entries and nothing else. -/
theorem statedBy_statements (hnodup : l.names.Nodup) (hl : l.DefaultsUnique) :
    l.StatedBy l.statements := by
  have hpaths : l.statements.map (·.path) = sortedTexts (l.entries.map (·.path)) := by
    rw [statements, List.map_map]
    exact List.map_id _
  have hstatement : ∀ s ∈ l.statements, ∃ e ∈ l.entries, s = l.statementOf e.path := by
    intro s hs
    obtain ⟨path, hpath, rfl⟩ := List.mem_map.mp hs
    obtain ⟨e, he, rfl⟩ := List.mem_map.mp (mem_sortedTexts.mp hpath)
    exact ⟨e, he, rfl⟩
  refine ⟨?_, fun path => ?_, fun s hs => ?_, fun s hs => ?_, fun s hs name => ?_,
    fun s hs text => ?_⟩
  · rw [hpaths]
    exact nodup_sortedTexts _
  · rw [hpaths, mem_sortedTexts, List.mem_map]
  · obtain ⟨e, he, rfl⟩ := hstatement s hs
    exact clauses_statementOf he
  · obtain ⟨e, -, rfl⟩ := hstatement s hs
    exact length_defaults_statementOf hnodup hl
  · obtain ⟨e, -, rfl⟩ := hstatement s hs
    exact mem_defaults_statementOf
  · obtain ⟨e, -, rfl⟩ := hstatement s hs
    exact mem_symbols_statementOf

end ImportLedger

namespace DeclarationSet

variable {set : DeclarationSet} {ledger : ImportLedger}

/-- The imports of a module are stated, name by name. -/
theorem statedBy_imports (h : set.imports = .ok ledger) : ledger.StatedBy ledger.statements := by
  have hunique : ImportLedger.empty.DefaultsUnique := nofun
  exact ImportLedger.statedBy_statements (nodup_names_imports h)
    (ImportLedger.defaultsUnique_addAll hunique h)

end DeclarationSet

end ResolverContracts
