import ResolverContracts.Proofs.Contract.Specifiers
import ResolverContracts.Proofs.Schema.Entries
/-!
# Imports that go together

Symbols are added to the imports one by one, and each is only compared with what is there already. This
comes down to comparing every two of them: all can be added, in whatever order and however often they
are listed, exactly if none contradicts another (`ImportLedger.exists_addAll_empty_iff`). The induction
carries that what is there already and what is still to come do not contradict each other.
-/

set_option autoImplicit false

namespace ResolverContracts

/-- An entry that one of the symbols needs. -/
def Needed (targets : List External) (e : ImportEntry) : Prop :=
  ∃ target ∈ targets, target.needed? = some e

/-- Symbols that can be imported into one module. -/
structure GoTogether (targets : List External) : Prop where
  /-- A local name stands for one thing of one module. -/
  names : ∀ e e', Needed targets e → Needed targets e' → e.name = e'.name →
    e.path = e'.path ∧ e.clause.text = e'.clause.text
  /-- The default export of a module has one local name. -/
  defaults : ∀ e e', Needed targets e → Needed targets e' → e.clause = .default →
    e'.clause = .default → e.path = e'.path → e.name = e'.name

/-- Entries that can be in one ledger. -/
structure Compatible (P : ImportEntry → Prop) : Prop where
  names : ∀ e e', P e → P e' → e.name = e'.name → e = e'
  defaults : ∀ e e', P e → P e' → e.clause = .default → e'.clause = .default → e.path = e'.path →
    e = e'

theorem Compatible.imp {P Q : ImportEntry → Prop} (h : Compatible Q) (hP : ∀ e, P e → Q e) :
    Compatible P where
  names e e' he he' := h.names e e' (hP e he) (hP e' he')
  defaults e e' he he' := h.defaults e e' (hP e he) (hP e' he')

/-- What is listed for a reference says what it is, so entries are the same if they look the same. -/
theorem goTogether_iff {targets : List External} (h : ∀ t ∈ targets, t.FromReference) :
    GoTogether targets ↔ Compatible (Needed targets) := by
  constructor
  · intro hgo
    refine ⟨fun e e' he he' hname => ?_, fun e e' he he' hdefault hdefault' hpath => ?_⟩
    · obtain ⟨hpath, htext⟩ := hgo.names e e' he he' hname
      obtain ⟨t, ht, hneeded⟩ := he
      obtain ⟨t', ht', hneeded'⟩ := he'
      -- The texts of clauses that were read from references tell them apart.
      have hclause := ((h t ht).isPlain hneeded).text_injective ((h t' ht').isPlain hneeded') htext
      cases e
      cases e'
      simp_all
    · have hname := hgo.defaults e e' he he' hdefault hdefault' hpath
      cases e
      cases e'
      simp_all
  · intro hcompatible
    refine ⟨fun e e' he he' hname => ?_, fun e e' he he' hdefault hdefault' hpath => ?_⟩
    · obtain rfl := hcompatible.names e e' he he' hname
      exact ⟨rfl, rfl⟩
    · rw [hcompatible.defaults e e' he he' hdefault hdefault' hpath]

namespace ImportLedger

variable {l : ImportLedger} {targets : List External}

/-- What is bound under the name of an entry, or as the default export of its module, is the entry. -/
theorem exists_bind {entry : ImportEntry} (hfree : l.find? entry.name = none)
    (h : Compatible fun e => e ∈ l.entries ∨ entry = e) : ∃ l', l.bind entry = .ok l' := by
  rw [bind]
  split
  · next other hother =>
    by_cases hdefault : entry.clause = .default
    · rw [if_pos hdefault] at hother
      have hmem : other ∈ l.entries := List.mem_of_find?_eq_some hother
      have hsame := List.find?_some hother
      simp only [Bool.and_eq_true, beq_iff_eq] at hsame
      obtain rfl := h.defaults other entry (.inl hmem) (.inr rfl) hsame.2 hdefault hsame.1
      exact absurd (beq_self_eq_true other.name) (List.find?_eq_none.mp hfree other hmem)
    · rw [if_neg hdefault] at hother
      cases hother
  · exact ⟨_, rfl⟩

/-- **The step.** A symbol can be added if what it needs contradicts nothing that is there. -/
theorem exists_add {target : External}
    (h : Compatible fun e => e ∈ l.entries ∨ target.needed? = some e) :
    ∃ l', l.add target = .ok l' := by
  rw [add]
  rw [External.needed?] at h
  cases hsymbol : target.symbol with
  | verbatim text => exact ⟨l, rfl⟩
  | imported path binding rename =>
    simp only [hsymbol, Option.some.injEq] at h
    simp only
    cases hfind : l.find? target.name with
    | none => exact exists_bind hfind h
    | some bound =>
      have hmem : bound ∈ l.entries := List.mem_of_find?_eq_some hfind
      have hname : bound.name = target.name := by simpa using List.find?_some hfind
      simp only
      rw [if_pos (h.names bound _ (.inl hmem) (.inr rfl) hname)]
      exact ⟨l, rfl⟩

/-- **The run.** The induction is on the symbols to come. -/
theorem exists_addAll (h : Compatible fun e => e ∈ l.entries ∨ Needed targets e) :
    ∃ l', l.addAll targets = .ok l' := by
  induction targets generalizing l with
  | nil => exact ⟨l, rfl⟩
  | cons target targets ih =>
    have hstep : Compatible fun e => e ∈ l.entries ∨ target.needed? = some e :=
      h.imp fun e he => he.imp_right fun he => ⟨target, List.mem_cons_self, he⟩
    obtain ⟨l₁, hadd⟩ := exists_add hstep
    have hrest : Compatible fun e => e ∈ l₁.entries ∨ Needed targets e := by
      refine h.imp fun e he => ?_
      rw [mem_add_iff hadd, or_assoc] at he
      rcases he with he | he | ⟨t, ht, he⟩
      · exact .inl he
      · exact .inr ⟨target, List.mem_cons_self, he⟩
      · exact .inr ⟨t, List.mem_cons_of_mem _ ht, he⟩
    obtain ⟨l', hrun⟩ := ih hrest
    exact ⟨l', bind_eq_ok_iff.mpr ⟨l₁, hadd, hrun⟩⟩

theorem mem_addAll_empty_iff (h : empty.addAll targets = .ok l) {e : ImportEntry} :
    e ∈ l.entries ↔ Needed targets e := by
  rw [mem_addAll_iff h]
  exact or_iff_right List.not_mem_nil

theorem nodup_names_addAll_empty (h : empty.addAll targets = .ok l) : l.names.Nodup :=
  nodup_names_addAll (show empty.names.Nodup from List.nodup_nil) h

theorem defaultsUnique_addAll_empty (h : empty.addAll targets = .ok l) : l.DefaultsUnique :=
  defaultsUnique_addAll (show empty.DefaultsUnique from nofun) h

/-- **Every two.** Symbols can be added to no imports exactly if no two of them contradict each
other. -/
theorem exists_addAll_empty_iff :
    (∃ l, empty.addAll targets = .ok l) ↔ Compatible (Needed targets) := by
  constructor
  · rintro ⟨l, h⟩
    refine ⟨fun e e' he he' hname => ?_, fun e e' he he' => ?_⟩
    · rw [← mem_addAll_empty_iff h] at he he'
      exact eq_of_key_eq (nodup_names_addAll_empty h) he he' hname
    · rw [← mem_addAll_empty_iff h] at he he'
      exact defaultsUnique_addAll_empty h e he e' he'
  · intro h
    exact exists_addAll (h.imp fun e he => he.resolve_left List.not_mem_nil)

end ImportLedger

end ResolverContracts
