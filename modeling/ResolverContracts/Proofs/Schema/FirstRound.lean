import Mathlib.Data.List.Induction
import Mathlib.Data.List.Nodup
import ResolverContracts.Proofs.Schema.Entries
import ResolverContracts.Proofs.Schema.RootBindings
/-!
# The first round

What the first round of lowering makes of a document, as long as no fault comes to light. The round is
a fold over the definitions, so there is a state that the definitions read so far describe
(`Draft.entered`), a list of conditions on those definitions (`EntersCleanly`), and one theorem that
joins them by induction from the right (`Draft.foldl_enter`): no fault was found exactly when the
conditions hold, and then the draft is that state.

The induction needs two facts about a step. It only adds faults, so a clean draft was clean before;
and at a clean draft, whose state is known, its fault is the failure of the conditions at that
definition. Both are read off one equation for the step (`Draft.define_eq`).
-/

set_option autoImplicit false

namespace ResolverContracts

/-! ## The first round -/

namespace Definitions

/-- What the definitions read so far satisfy while the first round finds no fault. -/
structure EntersCleanly (ds : List Definition) : Prop where
  names_distinct : ((allTypes ds).map (·.name.text)).Nodup
  names_not_reserved : ∀ d ∈ typeDefinitions ds, isReservedName d.name.text = false
  well_formed : ∀ d ∈ newTypes ds, d.body.WellFormed
  members_distinct : ∀ d ∈ newTypes ds, TypeBody.JointlyDistinct d.body.kind [d.body]

section Append

variable {ds : List Definition} {x : Definition}

/-- Any other definition than that of a type makes no difference. -/
theorem typeDefinitions_append_of_none (h : x.typeDefinition? = none) :
    typeDefinitions (ds ++ [x]) = typeDefinitions ds := by
  rw [typeDefinitions, List.filterMap_append, List.filterMap_cons_none h, List.filterMap_nil,
    List.append_nil]
  rfl

theorem typeDefinitions_append_type (d : TypeDefinition) :
    typeDefinitions (ds ++ [.type d]) = typeDefinitions ds ++ [d] := by
  rw [typeDefinitions, List.filterMap_append]
  rfl

theorem newTypes_append_type (d : TypeDefinition) :
    newTypes (ds ++ [.type d]) = newTypes ds ++ if d.isRedeclaration then [] else [d] := by
  rw [newTypes, typeDefinitions_append_type, List.filter_append, newTypes, List.filter_singleton]
  cases d.isRedeclaration <;> rfl

/-- Nothing but the types defined matters to the first round. -/
theorem EntersCleanly.congr {ds' : List Definition} (h : typeDefinitions ds = typeDefinitions ds')
    (hc : EntersCleanly ds) : EntersCleanly ds' := by
  have hnew : newTypes ds = newTypes ds' := congrArg (List.filter _) h
  obtain ⟨h1, h2, h3, h4⟩ := hc
  rw [allTypes, hnew] at h1
  rw [h] at h2
  rw [hnew] at h3 h4
  exact ⟨h1, h2, h3, h4⟩

/-- The conditions at one type definition more. -/
theorem entersCleanly_append_type_iff (d : TypeDefinition) :
    EntersCleanly (ds ++ [.type d]) ↔
      EntersCleanly ds ∧ isReservedName d.name.text = false ∧
        (d.isRedeclaration = false →
          d.name.text ∉ (allTypes ds).map (·.name.text) ∧
          TypeBody.JointlyDistinct d.body.kind [d.body] ∧ d.body.WellFormed) := by
  have hreserved : (∀ t ∈ typeDefinitions (ds ++ [.type d]), isReservedName t.name.text = false) ↔
      (∀ t ∈ typeDefinitions ds, isReservedName t.name.text = false) ∧
        isReservedName d.name.text = false := by
    rw [typeDefinitions_append_type, List.forall_mem_append, List.forall_mem_singleton]
  by_cases hr : d.isRedeclaration = true
  · -- The types are those there were, so only the reserved name is new.
    have hnew : newTypes (ds ++ [.type d]) = newTypes ds := by
      rw [newTypes_append_type, if_pos hr, List.append_nil]
    constructor
    · rintro ⟨h1, h2, h3, h4⟩
      rw [allTypes, hnew] at h1
      rw [hnew] at h3 h4
      have h2 := hreserved.mp h2
      exact ⟨⟨h1, h2.1, h3, h4⟩, h2.2, fun hf => absurd hr (by simp [hf])⟩
    · rintro ⟨⟨h1, h2, h3, h4⟩, h5, -⟩
      refine ⟨?_, hreserved.mpr ⟨h2, h5⟩, ?_, ?_⟩
      · rw [allTypes, hnew]
        exact h1
      · rw [hnew]
        exact h3
      · rw [hnew]
        exact h4
  · -- A new type at the end: each condition splits into the one before and the one about it.
    have hnew : newTypes (ds ++ [.type d]) = newTypes ds ++ [d] := by
      rw [newTypes_append_type, if_neg hr]
    have hnames : ((allTypes (ds ++ [.type d])).map (·.name.text)).Nodup ↔
        ((allTypes ds).map (·.name.text)).Nodup ∧
          d.name.text ∉ (allTypes ds).map (·.name.text) := by
      rw [allTypes, hnew, ← List.append_assoc, List.map_append, List.map_singleton,
        ← List.concat_eq_append, List.nodup_concat, and_comm]
      rfl
    have hbodies (P : TypeDefinition → Prop) :
        (∀ t ∈ newTypes (ds ++ [.type d]), P t) ↔ (∀ t ∈ newTypes ds, P t) ∧ P d := by
      rw [hnew, List.forall_mem_append, List.forall_mem_singleton]
    constructor
    · rintro ⟨h1, h2, h3, h4⟩
      have h1 := hnames.mp h1
      have h2 := hreserved.mp h2
      have h3 := (hbodies _).mp h3
      have h4 := (hbodies _).mp h4
      exact ⟨⟨h1.1, h2.1, h3.1, h4.1⟩, h2.2, fun _ => ⟨h1.2, h4.2, h3.2⟩⟩
    · rintro ⟨⟨h1, h2, h3, h4⟩, h5, hnewType⟩
      obtain ⟨hfree, hdistinct, hwell⟩ := hnewType (by simpa using hr)
      exact ⟨hnames.mpr ⟨h1, hfree⟩, hreserved.mpr ⟨h2, h5⟩, (hbodies _).mpr ⟨h3, hwell⟩,
        (hbodies _).mpr ⟨h4, hdistinct⟩⟩

end Append

end Definitions

namespace Draft

open Definitions

/-- The draft with a type more at the end of its catalogue. -/
def withType (D : Draft) (t : NamedType) : Draft :=
  { D with catalogue := { D.catalogue with types := D.catalogue.types ++ [t] } }

/-- A type definition, by cases: a built-in scalar declared again, a name that is taken, a new type.
A reserved name is noted in all of them. -/
theorem define_eq (D : Draft) (d : TypeDefinition) :
    D.define d =
      if d.isRedeclaration then D.note ⟨reservedFaults d.name, []⟩
      else if D.catalogue.contains d.name.text then
        (D.note ⟨reservedFaults d.name, []⟩).fault (.redefined d.name)
      else
        ((D.note ⟨reservedFaults d.name, []⟩).withType
          ⟨d.name.text, (TypeShape.empty d.body.kind).merge d.body⟩).note
            ((TypeShape.empty d.body.kind).findings d.name.text d.body) := by
  show (if d.isRedeclaration = true then _ else _ : Draft) = _
  by_cases hr : d.isRedeclaration = true
  · rw [if_pos hr, if_pos hr]
  · rw [if_neg hr, if_neg hr]
    -- Noting a reserved name does not touch the catalogue.
    have hsame : (D.note ⟨reservedFaults d.name, []⟩).catalogue = D.catalogue := rfl
    by_cases hc : D.catalogue.contains d.name.text = true
    · simp only [Catalogue.insert?, hsame, hc, if_true]
    · simp only [Catalogue.insert?, hsame, hc]
      rfl

/-- A type definition leaves a draft without faults when there were none before, the name is not
reserved, and a new type has a free name and a body without faults. -/
theorem faults_define_eq_nil_iff (D : Draft) (d : TypeDefinition) :
    (D.define d).findings.faults = [] ↔
      D.findings.faults = [] ∧ isReservedName d.name.text = false ∧
        (d.isRedeclaration = false → D.catalogue.contains d.name.text = false ∧
          ((TypeShape.empty d.body.kind).findings d.name.text d.body).faults = []) := by
  rw [define_eq, ← reservedFaults_eq_nil_iff]
  by_cases hr : d.isRedeclaration = true
  · rw [if_pos hr, faults_note, List.append_eq_nil_iff]
    simp [hr]
  · rw [if_neg hr]
    have hr : d.isRedeclaration = false := by simpa using hr
    by_cases hc : D.catalogue.contains d.name.text = true
    · rw [if_pos hc]
      simp [fault, hr, hc]
    · rw [if_neg hc]
      have hc : D.catalogue.contains d.name.text = false := by simpa using hc
      show (_ ++ _) ++ _ = _ ↔ _
      rw [List.append_eq_nil_iff, List.append_eq_nil_iff]
      simp [hr, hc, and_assoc]

/-- The first round passes over everything but type definitions. -/
theorem enter_of_none {x : Definition} (hx : x.typeDefinition? = none) (D : Draft) :
    D.enter x = D := by
  cases x with
  | type d => exact absurd hx (Option.some_ne_none d)
  | _ => rfl

/-- The draft behind clean definitions: an entry and the references of each new type. -/
def entered (ds : List Definition) : Draft :=
  ⟨⟨entries ds [], .conventional⟩, ⟨[], (newTypes ds).flatMap (·.body.references)⟩, none, none⟩

/-- A new type is entered with the sum of its one body. -/
theorem define_entered {ds : List Definition} {d : TypeDefinition}
    (hc : EntersCleanly (ds ++ [.type d])) :
    (entered ds).define d = entered (ds ++ [.type d]) := by
  obtain ⟨-, hreserved, hnew⟩ := (entersCleanly_append_type_iff d).mp hc
  rw [define_eq, (reservedFaults_eq_nil_iff d.name).mpr hreserved, note_none]
  by_cases hr : d.isRedeclaration = true
  · rw [if_pos hr, entered, entered, entries, entries, allTypes, allTypes, newTypes_append_type,
      if_pos hr, List.append_nil]
  · obtain ⟨hfree, hdistinct, hwell⟩ := hnew (by simpa using hr)
    have hcontains : (entered ds).catalogue.contains d.name.text = false := by
      rw [entered, contains_entries]
      simpa using hfree
    have hentries : entries (ds ++ [.type d]) [] = entries ds [] ++ [entry [] d] := by
      rw [entries, allTypes, newTypes_append_type, if_neg hr, ← List.append_assoc, List.map_append]
      rfl
    rw [if_neg hr, if_neg (by simp [hcontains]), TypeShape.merge_empty hdistinct hwell,
      TypeShape.findings_empty d.name.text hdistinct hwell, entered, entered, hentries,
      newTypes_append_type, if_neg hr, List.flatMap_append, List.flatMap_singleton]
    rfl

/-- **The first round.** No fault is found exactly when the types defined satisfy the conditions, and
the draft is then known. -/
theorem foldl_enter (ds : List Definition) :
    ((ds.foldl enter initial).findings.faults = [] ↔ EntersCleanly ds) ∧
      (EntersCleanly ds → ds.foldl enter initial = entered ds) := by
  induction ds using List.reverseRecOn with
  | nil =>
    have hnames : ((allTypes []).map (·.name.text)).Nodup := by decide
    refine ⟨iff_of_true rfl ⟨hnames, ?_, ?_, ?_⟩, fun _ => rfl⟩
    · exact List.forall_mem_nil _
    · exact List.forall_mem_nil _
    · exact List.forall_mem_nil _
  | append_singleton ds x ih =>
    rw [List.foldl_append, List.foldl_cons, List.foldl_nil]
    cases hx : x.typeDefinition? with
    | none =>
      -- Neither the round nor the conditions look at this definition.
      have hsame : typeDefinitions (ds ++ [x]) = typeDefinitions ds :=
        typeDefinitions_append_of_none hx
      have hiff : EntersCleanly (ds ++ [x]) ↔ EntersCleanly ds :=
        ⟨.congr hsame, .congr hsame.symm⟩
      rw [enter_of_none hx, hiff]
      refine ⟨ih.1, fun hc => ?_⟩
      rw [ih.2 hc, entered, entered, entries, entries, allTypes, allTypes, newTypes, newTypes, hsame]
    | some d =>
      obtain rfl := Definition.eq_of_typeDefinition? hx
      show ((define _ d).findings.faults = [] ↔ _) ∧ (_ → define _ d = _)
      constructor
      · rw [faults_define_eq_nil_iff, entersCleanly_append_type_iff, ih.1]
        refine and_congr_right fun hc => and_congr_right fun _ => ?_
        -- The conditions hold so far, so the draft is known, and with it the names taken.
        rw [ih.2 hc, TypeShape.findings_empty_faults_eq_nil_iff, entered, contains_entries]
        simp
      · intro hc
        rw [ih.2 ((entersCleanly_append_type_iff d).mp hc).1]
        exact define_entered hc

end Draft

end ResolverContracts
