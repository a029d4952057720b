import ResolverContracts.Proofs.Schema.Gathered
import ResolverContracts.Proofs.Schema.SecondRound
/-!
# The catalogue of any document

`Proofs/Schema/SecondRound.lean` follows lowering as long as it finds no fault. This file follows it
through every document, whatever is wrong there. A name that comes again is left out and is a fault, so
the catalogue is known all the same: of each name the first definition counts (`registered`), and it takes
the bodies of the extensions of its name and kind (`appliedBodies`).

The invariant of both rounds is `Draft.Gathers`. The definitions entered and those gone through since are
told apart as in the second round; a definition adds a type to it, an extension a body to one type, and
everything else leaves the types as they are.
-/

set_option autoImplicit false

namespace ResolverContracts

namespace Definitions

/-- The definitions that make a type: of each name the first one, unless the name is that of a built-in
scalar. -/
def registered (ds : List Definition) : List TypeDefinition :=
  untaken (·.name) builtinScalars (typeDefinitions ds)

/-- The definitions of all types, those of the built-in scalars among them. -/
def storedTypes (ds : List Definition) : List TypeDefinition := builtinDefinitions ++ registered ds

/-- The bodies that a type is made of: that of its definition, then those of the extensions of its name
and kind. -/
def appliedBodies (es : List Definition) (d : TypeDefinition) : List TypeBody :=
  d.body :: ((typeExtensions es).filter fun e =>
    e.name.text == d.name.text && e.body.kind == d.body.kind).map (·.body)

/-- The entry of a type in the catalogue after the extensions `es`. -/
def gatheredEntry (es : List Definition) (d : TypeDefinition) : NamedType :=
  ⟨d.name.text, .gathered d.body.kind (appliedBodies es d)⟩

section Append

variable {ds es : List Definition} {x : Definition} {d e : TypeDefinition}

theorem map_name_storedTypes (ds : List Definition) :
    (storedTypes ds).map (·.name.text) =
      builtinScalars ++ (registered ds).map fun d => d.name.text := by
  rw [storedTypes, List.map_append]
  rfl

/-- No two types have one name. -/
theorem nodup_storedTypes (ds : List Definition) : ((storedTypes ds).map (·.name.text)).Nodup := by
  have hbuiltin : builtinScalars.Nodup := by decide
  rw [map_name_storedTypes]
  exact nodup_names_untaken hbuiltin

/-- A definition more makes a type when its name is free. -/
theorem storedTypes_append_type :
    storedTypes (ds ++ [.type d]) =
      storedTypes ds ++
        if d.name.text ∈ (storedTypes ds).map (·.name.text) then [] else [d] := by
  rw [map_name_storedTypes, storedTypes, registered, typeDefinitions_append_type, untaken_append,
    untaken_cons, ← List.append_assoc]
  rfl

theorem storedTypes_append_of_none (h : x.typeDefinition? = none) :
    storedTypes (ds ++ [x]) = storedTypes ds := by
  rw [storedTypes, registered, typeDefinitions_append_of_none h]
  rfl

/-- An extension goes to the type of its name and kind. -/
theorem appliedBodies_append_of_eq (hname : d.name.text = e.name.text)
    (hkind : d.body.kind = e.body.kind) :
    appliedBodies (es ++ [.typeExtension e]) d = appliedBodies es d ++ [e.body] := by
  have hone : typeExtensions [.typeExtension e] = [e] := rfl
  rw [appliedBodies, typeExtensions_append, hone, List.filter_append, List.filter_singleton, hname,
    hkind, beq_self_eq_true, beq_self_eq_true, List.map_append, appliedBodies, hname, hkind]
  rfl

/-- It leaves all other types as they are. -/
theorem appliedBodies_append_of_ne (h : d.name.text = e.name.text → d.body.kind ≠ e.body.kind) :
    appliedBodies (es ++ [.typeExtension e]) d = appliedBodies es d := by
  have hone : typeExtensions [.typeExtension e] = [e] := rfl
  have hfalse : (e.name.text == d.name.text && e.body.kind == d.body.kind) = false := by
    rw [Bool.and_eq_false_iff, beq_eq_false_iff_ne, beq_eq_false_iff_ne]
    by_cases hname : d.name.text = e.name.text
    · exact .inr (h hname).symm
    · exact .inl fun he => hname he.symm
  rw [appliedBodies, typeExtensions_append, hone, List.filter_append, List.filter_singleton, hfalse]
  exact congrArg (d.body :: List.map _ ·) (List.append_nil _)

theorem appliedBodies_append_of_none (h : x.typeExtension? = none) :
    appliedBodies (es ++ [x]) d = appliedBodies es d := by
  rw [appliedBodies, typeExtensions, List.filterMap_append, List.filterMap_cons_none h,
    List.filterMap_nil, List.append_nil]
  rfl

end Append

end Definitions

namespace Draft

open Definitions

variable {ds es : List Definition} {D : Draft}

/-- The catalogue has the types of `ds` with the extensions of `es`, and each member that was left out is
noted. -/
structure Gathers (ds es : List Definition) (D : Draft) : Prop where
  types : D.catalogue.types = (storedTypes ds).map (gatheredEntry es)
  noted : ∀ d ∈ storedTypes ds,
    TypeBody.repetitions d.name.text d.body.kind (appliedBodies es d) ⊆ D.findings.faults

/-- A built-in scalar has no member, so there is nothing to note about it. -/
theorem repetitions_builtin {d : TypeDefinition} (h : d ∈ builtinDefinitions) (owner : String)
    (bodies : List TypeBody) : TypeBody.repetitions owner d.body.kind bodies = [] := by
  rw [(isBuiltin_of_mem_builtinDefinitions h).2]
  rfl

theorem gathers_initial : Gathers [] [] initial := by
  refine ⟨rfl, fun d hd => ?_⟩
  have hbuiltin : d ∈ builtinDefinitions := by simpa [storedTypes, registered, typeDefinitions,
    untaken, markTaken] using hd
  rw [repetitions_builtin hbuiltin]
  exact List.nil_subset _

/-! ## First round -/

namespace Gathers

/-- A name is taken when a type has it. -/
theorem contains_iff (h : Gathers ds es D) {name : String} :
    D.catalogue.contains name = true ↔ name ∈ (storedTypes ds).map (·.name.text) := by
  rw [Catalogue.contains, h.types, List.any_map, List.any_eq_true, List.mem_map]
  simp [gatheredEntry]

/-- More faults do no harm. -/
theorem of_subset {D' : Draft} (h : Gathers ds es D) (hc : D'.catalogue.types = D.catalogue.types)
    (hf : D.findings.faults ⊆ D'.findings.faults) : Gathers ds es D' :=
  ⟨hc.trans h.types, fun d hd => List.Subset.trans (h.noted d hd) hf⟩

/-- Of the definitions entered only the types they make matter. -/
theorem congr {ds' : List Definition} (h : Gathers ds es D) (hs : storedTypes ds' = storedTypes ds) :
    Gathers ds' es D :=
  ⟨hs ▸ h.types, hs ▸ h.noted⟩

/-- A definition makes a type of its body, unless its name is taken. -/
theorem define {d : TypeDefinition} (h : Gathers ds [] D) :
    Gathers (ds ++ [.type d]) [] (D.define d) := by
  rw [define_eq]
  have hbuiltin (hr : d.isRedeclaration = true) :
      d.name.text ∈ (storedTypes ds).map (·.name.text) := by
    rw [map_name_storedTypes]
    exact List.mem_append_left _ (List.contains_iff_mem.mp (Bool.and_eq_true_iff.mp hr).2)
  by_cases hname : d.name.text ∈ (storedTypes ds).map (·.name.text)
  · -- Whether a built-in scalar is declared again or any other type, the types stay.
    have hsame : storedTypes (ds ++ [.type d]) = storedTypes ds := by
      rw [storedTypes_append_type, if_pos hname, List.append_nil]
    rw [if_pos (h.contains_iff.mpr hname)]
    split
    · exact (h.congr hsame).of_subset rfl (List.subset_append_left _ _)
    · refine (h.congr hsame).of_subset rfl ?_
      exact List.Subset.trans (List.subset_append_left _ _) (List.subset_append_left _ _)
  · have hmore : storedTypes (ds ++ [.type d]) = storedTypes ds ++ [d] := by
      rw [storedTypes_append_type, if_neg hname]
    have hone : appliedBodies [] d = [] ++ [d.body] := rfl
    rw [if_neg fun hr => hname (hbuiltin hr), if_neg fun hc => hname (h.contains_iff.mp hc),
      ← TypeShape.gathered_nil]
    constructor
    · show D.catalogue.types ++ [_] = _
      rw [hmore, List.map_append, h.types, List.map_singleton, gatheredEntry, hone,
        TypeShape.merge_gathered]
    · rw [hmore]
      refine List.forall_mem_append.mpr ⟨fun t ht => ?_, List.forall_mem_singleton.mpr ?_⟩
      · refine List.Subset.trans (h.noted t ht) (List.Subset.trans ?_ (List.subset_append_left _ _))
        exact List.subset_append_left _ _
      · -- Nothing is repeated among no bodies, so every repetition comes to light with this one.
        have hnone : TypeBody.repetitions d.name.text d.body.kind [] = [] := by
          cases d.body.kind <;> rfl
        have hnew := TypeShape.repetitions_append_subset d.name.text [] d.body
        rw [hnone, List.nil_append] at hnew
        rw [hone]
        exact List.Subset.trans hnew (List.subset_append_right _ _)

end Gathers

/-- **The first round**, whatever it finds. -/
theorem gathers_foldl_enter (ds : List Definition) : Gathers ds [] (ds.foldl enter initial) := by
  induction ds using List.reverseRecOn with
  | nil => exact gathers_initial
  | append_singleton ds x ih =>
    rw [List.foldl_append, List.foldl_cons, List.foldl_nil]
    cases hx : x.typeDefinition? with
    | none =>
      rw [enter_of_none hx]
      exact ih.congr (storedTypes_append_of_none hx)
    | some d =>
      obtain rfl := Definition.eq_of_typeDefinition? hx
      exact ih.define

/-! ## Second round -/

theorem catalogue_bindRoots (D : Draft) (s : SchemaDefinition) :
    (D.bindRoots s).catalogue = D.catalogue := by
  have hfold (rs : List RootBinding) (D : Draft) :
      (rs.foldl bindRoot D).catalogue = D.catalogue := by
    induction rs generalizing D with
    | nil => rfl
    | cons r rs ih =>
      rw [List.foldl_cons, ih, bindRoot]
      split <;> rfl
  exact hfold s.operations { D with roots := some (D.roots.getD .none) }

/-- Only the extension of a type touches the catalogue. -/
theorem catalogue_apply_of_none {x : Definition} (h : x.typeExtension? = none) (D : Draft) :
    (D.apply x).catalogue = D.catalogue := by
  cases x with
  | typeExtension e => cases h
  | type d | directive d => rfl
  | schemaExtension s => exact catalogue_bindRoots D s
  | schema s =>
    show (D.defineSchema s).catalogue = _
    rw [defineSchema]
    split
    · rfl
    · exact catalogue_bindRoots { D with schemaAt := some s.span } s

namespace Gathers

/-- The type of a name. -/
theorem get?_eq_some_iff (h : Gathers ds es D) {name : String} {t : NamedType} :
    D.catalogue.get? name = some t ↔
      ∃ d ∈ storedTypes ds, d.name.text = name ∧ gatheredEntry es d = t := by
  rw [Catalogue.get?, h.types, List.find?_map, Option.map_eq_some_iff]
  refine exists_congr fun d => ?_
  rw [← and_assoc, ← find?_key_eq_some_iff (nodup_storedTypes ds)]
  rfl

/-- Extensions that go to no type leave all bodies as they are. -/
theorem of_not_applied {e : TypeDefinition} (h : Gathers ds es D)
    (hne : ∀ d ∈ storedTypes ds, d.name.text = e.name.text → d.body.kind ≠ e.body.kind) :
    Gathers ds (es ++ [.typeExtension e]) D := by
  refine ⟨h.types.trans (List.map_congr_left fun d hd => ?_), fun d hd => ?_⟩
  · rw [gatheredEntry, gatheredEntry, appliedBodies_append_of_ne (hne d hd)]
  · rw [appliedBodies_append_of_ne (hne d hd)]
    exact h.noted d hd

/-- An extension adds its body to the type of its name, if that has its kind. -/
theorem extend {e : TypeDefinition} (h : Gathers ds es D) :
    Gathers ds (es ++ [.typeExtension e]) (D.extend e) := by
  cases hget : D.catalogue.get? e.name.text with
  | none =>
    rw [Draft.extend, hget]
    refine (h.of_not_applied fun d hd hname => ?_).of_subset rfl (List.subset_append_left _ _)
    rw [h.get?_eq_some_iff.mpr ⟨d, hd, hname, rfl⟩] at hget
    cases hget
  | some t =>
    obtain ⟨d, hd, hname, rfl⟩ := h.get?_eq_some_iff.mp hget
    have hunique {d' : TypeDefinition} (hd' : d' ∈ storedTypes ds)
        (hname' : d'.name.text = e.name.text) : d' = d :=
      eq_of_key_eq (nodup_storedTypes ds) hd' hd (hname'.trans hname.symm)
    by_cases hkind : d.body.kind = e.body.kind
    · rw [extend_of_get? hget ((TypeShape.kind_gathered _ _).trans hkind)]
      have hbodies : appliedBodies (es ++ [.typeExtension e]) d = appliedBodies es d ++ [e.body] :=
        appliedBodies_append_of_eq hname hkind
      constructor
      · show List.map _ D.catalogue.types = _
        rw [h.types, List.map_map]
        refine List.map_congr_left fun d' hd' => ?_
        show (if (d'.name.text == e.name.text) = true then _ else _ : NamedType) = _
        by_cases hname' : d'.name.text = e.name.text
        · obtain rfl := hunique hd' hname'
          rw [if_pos (beq_iff_eq.mpr hname'), gatheredEntry, gatheredEntry, hbodies, hkind,
            ← TypeShape.merge_gathered]
        · rw [if_neg fun hb => hname' (beq_iff_eq.mp hb), gatheredEntry, gatheredEntry,
            appliedBodies_append_of_ne fun hn => absurd hn hname']
      · intro d' hd'
        by_cases hname' : d'.name.text = e.name.text
        · obtain rfl := hunique hd' hname'
          have hnew := TypeShape.repetitions_append_subset d'.name.text (appliedBodies es d') e.body
          rw [hbodies, hkind]
          refine List.Subset.trans hnew (List.append_subset_of_subset_of_subset ?_ ?_)
          · exact List.Subset.trans (hkind ▸ h.noted d' hd') (List.subset_append_left _ _)
          · rw [gatheredEntry, hkind]
            exact List.subset_append_right _ _
        · rw [appliedBodies_append_of_ne fun hn => absurd hn hname']
          exact List.Subset.trans (h.noted d' hd') (List.subset_append_left _ _)
    · have hother : (D.extend e) =
          D.fault (.otherTarget e.name e.body.kind (gatheredEntry es d).shape.kind) := by
        rw [Draft.extend, hget]
        exact if_neg fun hk => hkind ((TypeShape.kind_gathered _ _).symm.trans hk)
      rw [hother]
      refine (h.of_not_applied fun d' hd' hname' => ?_).of_subset rfl (List.subset_append_left _ _)
      obtain rfl := hunique hd' hname'
      exact hkind

end Gathers

/-- **The second round**, whatever it finds. -/
theorem gathers_foldl_apply (h : Gathers ds [] D) (es : List Definition) :
    Gathers ds es (es.foldl apply D) := by
  induction es using List.reverseRecOn with
  | nil => exact h
  | append_singleton es x ih =>
    rw [List.foldl_append, List.foldl_cons, List.foldl_nil]
    cases hx : x.typeExtension? with
    | none =>
      have hsame : Gathers ds (es ++ [x]) (es.foldl apply D) := by
        refine ⟨ih.types.trans (List.map_congr_left fun d _ => ?_), fun d hd => ?_⟩
        · rw [gatheredEntry, gatheredEntry, appliedBodies_append_of_none hx]
        · rw [appliedBodies_append_of_none hx]
          exact ih.noted d hd
      refine hsame.of_subset ?_ (prefix_faults_apply _ x).subset
      rw [catalogue_apply_of_none hx]
    | some e =>
      obtain rfl := Definition.eq_of_typeExtension? hx
      exact ih.extend

/-- **Both rounds.** -/
theorem gathers_ofDocument (document : Document) :
    Gathers document.definitions document.definitions (ofDocument document) :=
  gathers_foldl_apply (gathers_foldl_enter _) _

end Draft

end ResolverContracts
