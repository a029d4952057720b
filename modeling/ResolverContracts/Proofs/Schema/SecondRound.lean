import Mathlib.Data.List.Basic
import ResolverContracts.Proofs.Schema.FirstRound
/-!
# The second round

What the second round of lowering adds to a draft that the first round left without a fault. As there,
the definitions gone through so far describe the draft (`Draft.extended`), and conditions on them say
whether a fault was found (`ExtendsCleanly`). Two lists of definitions are told apart, the ones that
were entered (`ds`) and the ones gone through since (`es`): every type is there from the start, and
what grows from step to step are the bodies of the types and the bindings of the roots. That is why
an extension can stand in front of the definition it extends.

The step is proved for each sort of definition (`apply_extended`), and the whole round follows by
induction from the right (`Draft.foldl_apply`).
-/

set_option autoImplicit false

namespace ResolverContracts

/-- What a definition refers to that the second round comes across. -/
def Definition.laterReferences : Definition → List Reference
  | typeExtension e => e.body.references
  | schema s | schemaExtension s => s.operations.map (⟨·.type, .root⟩)
  | type _ | directive _ => []

namespace Definitions

/-- What the definitions gone through satisfy while the second round finds no fault. -/
structure ExtendsCleanly (ds es : List Definition) : Prop where
  schema_once : (schemaBlocks es).length ≤ 1
  roots_once : ((rootBindings es).map (·.operation)).Nodup
  targets : ∀ e ∈ typeExtensions es, Declares ds e.name.text e.body.kind
  well_formed : ∀ e ∈ typeExtensions es, e.body.WellFormed
  members_distinct : ∀ d ∈ allTypes ds, TypeBody.JointlyDistinct d.body.kind (bodiesOf es d)

/-- An extension that finds its type and goes together with what the type consists of so far. -/
structure ExtensionFits (ds es : List Definition) (e : TypeDefinition) : Prop where
  target : Declares ds e.name.text e.body.kind
  well_formed : e.body.WellFormed
  members_distinct : ∀ d ∈ allTypes ds, d.name.text = e.name.text →
    TypeBody.JointlyDistinct d.body.kind (bodiesOf es d ++ [e.body])

/-- The roots while the definitions are gone through: bound from the first schema block or schema
extension on. -/
def rootsAfter (es : List Definition) : Option Roots :=
  if es.any (·.isAboutRoots) then some (.ofBindings (rootBindings es)) else none

section Append

variable {ds es : List Definition} {x : Definition} {d e : TypeDefinition}

theorem typeExtensions_append : typeExtensions (es ++ [x]) = typeExtensions es ++ typeExtensions [x] :=
  List.filterMap_append

theorem schemaBlocks_append : schemaBlocks (es ++ [x]) = schemaBlocks es ++ schemaBlocks [x] :=
  List.filterMap_append

theorem rootBindings_append : rootBindings (es ++ [x]) = rootBindings es ++ x.rootBindings := by
  rw [rootBindings, List.flatMap_append, List.flatMap_singleton]
  rfl

/-- The bodies of a type after one definition more. -/
theorem bodiesOf_append :
    bodiesOf (es ++ [x]) d = bodiesOf es d ++ extensionBodies [x] d.name.text := by
  rw [bodiesOf, extensionBodies, typeExtensions_append, List.filter_append, List.map_append]
  rfl

/-- An extension belongs to the type of its name. -/
theorem bodiesOf_append_of_eq (h : d.name.text = e.name.text) :
    bodiesOf (es ++ [.typeExtension e]) d = bodiesOf es d ++ [e.body] := by
  have hone : typeExtensions [.typeExtension e] = [e] := rfl
  rw [bodiesOf_append, extensionBodies, hone, List.filter_singleton, h, beq_self_eq_true]
  rfl

/-- It leaves all other types as they are. -/
theorem bodiesOf_append_of_ne (h : d.name.text ≠ e.name.text) :
    bodiesOf (es ++ [.typeExtension e]) d = bodiesOf es d := by
  have hone : typeExtensions [.typeExtension e] = [e] := rfl
  have hne : (e.name.text == d.name.text) = false := by
    rw [beq_eq_false_iff_ne]
    exact h.symm
  rw [bodiesOf_append, extensionBodies, hone, List.filter_singleton, hne]
  exact List.append_nil _

/-- What is no extension leaves every type as it is. -/
theorem bodiesOf_append_of_none (h : x.typeExtension? = none) :
    bodiesOf (es ++ [x]) d = bodiesOf es d := by
  rw [bodiesOf_append, extensionBodies, typeExtensions, List.filterMap_cons_none h]
  exact List.append_nil _

theorem entries_append_of_none (h : x.typeExtension? = none) :
    entries ds (es ++ [x]) = entries ds es := by
  refine List.map_congr_left fun d _ => ?_
  rw [entry, entry, bodiesOf_append_of_none h]

/-- One definition more that is no extension: only the rules about roots are concerned. -/
theorem extendsCleanly_append_of_none_iff (h : x.typeExtension? = none) :
    ExtendsCleanly ds (es ++ [x]) ↔
      ExtendsCleanly ds es ∧ (schemaBlocks (es ++ [x])).length ≤ 1 ∧
        ((rootBindings es ++ x.rootBindings).map (·.operation)).Nodup := by
  have hext : typeExtensions (es ++ [x]) = typeExtensions es := by
    rw [typeExtensions_append, typeExtensions, typeExtensions, List.filterMap_cons_none h]
    exact List.append_nil _
  have hbodies (d : TypeDefinition) : bodiesOf (es ++ [x]) d = bodiesOf es d :=
    bodiesOf_append_of_none h
  -- The rules about type extensions are those there were; the new ones are about schema blocks.
  constructor
  · rintro ⟨h1, h2, h3, h4, h5⟩
    rw [rootBindings_append] at h2
    rw [hext] at h3 h4
    simp only [hbodies] at h5
    refine ⟨⟨?_, ?_, h3, h4, h5⟩, h1, h2⟩
    · rw [schemaBlocks_append, List.length_append] at h1
      omega
    · rw [List.map_append] at h2
      exact (List.nodup_append.mp h2).1
  · rintro ⟨⟨-, -, h3, h4, h5⟩, h1, h2⟩
    refine ⟨h1, ?_, ?_, ?_, ?_⟩
    · rw [rootBindings_append]
      exact h2
    · rw [hext]
      exact h3
    · rw [hext]
      exact h4
    · simp only [hbodies]
      exact h5

/-- One extension more. -/
theorem extendsCleanly_append_typeExtension_iff :
    ExtendsCleanly ds (es ++ [.typeExtension e]) ↔
      ExtendsCleanly ds es ∧ ExtensionFits ds es e := by
  have hext (P : TypeDefinition → Prop) :
      (∀ t ∈ typeExtensions (es ++ [.typeExtension e]), P t) ↔
        (∀ t ∈ typeExtensions es, P t) ∧ P e := by
    rw [typeExtensions_append, List.forall_mem_append]
    exact and_congr_right fun _ => List.forall_mem_singleton
  have hblocks : schemaBlocks (es ++ [.typeExtension e]) = schemaBlocks es := by
    rw [schemaBlocks_append]
    exact List.append_nil _
  have hroots : rootBindings (es ++ [.typeExtension e]) = rootBindings es := by
    rw [rootBindings_append]
    exact List.append_nil _
  -- Each rule splits into the one before and what has to hold of the new extension.
  constructor
  · rintro ⟨h1, h2, h3, h4, h5⟩
    rw [hblocks] at h1
    rw [hroots] at h2
    have h3 := (hext _).mp h3
    have h4 := (hext _).mp h4
    refine ⟨⟨h1, h2, h3.1, h4.1, fun d hd => ?_⟩, h3.2, h4.2, fun d hd hname => ?_⟩
    · -- Without its last body, a type has no member twice if it has none with it.
      have hd := h5 d hd
      by_cases hname : d.name.text = e.name.text
      · rw [bodiesOf_append_of_eq hname] at hd
        exact (TypeBody.jointlyDistinct_append_iff.mp hd).1
      · rwa [bodiesOf_append_of_ne hname] at hd
    · rw [← bodiesOf_append_of_eq hname]
      exact h5 d hd
  · rintro ⟨⟨h1, h2, h3, h4, h5⟩, htarget, hwell, hfit⟩
    refine ⟨hblocks ▸ h1, hroots ▸ h2, (hext _).mpr ⟨h3, htarget⟩, (hext _).mpr ⟨h4, hwell⟩, ?_⟩
    intro d hd
    by_cases hname : d.name.text = e.name.text
    · rw [bodiesOf_append_of_eq hname]
      exact hfit d hd hname
    · rw [bodiesOf_append_of_ne hname]
      exact h5 d hd

/-- The conditions hold of every initial part. -/
theorem ExtendsCleanly.of_append (h : ExtendsCleanly ds (es ++ [x])) : ExtendsCleanly ds es := by
  cases hx : x.typeExtension? with
  | none => exact ((extendsCleanly_append_of_none_iff hx).mp h).1
  | some e =>
    obtain rfl := Definition.eq_of_typeExtension? hx
    exact (extendsCleanly_append_typeExtension_iff.mp h).1

/-- Until roots are bound, no operation is. -/
theorem getD_rootsAfter : (rootsAfter es).getD .none = .ofBindings (rootBindings es) := by
  by_cases h : es.any (·.isAboutRoots) = true
  · rw [rootsAfter, if_pos h]
    rfl
  · have hnone : rootBindings es = [] := by
      rw [rootBindings, List.flatMap_eq_nil_iff]
      intro x hx
      have habout : x.isAboutRoots ≠ true := fun hb => h (List.any_eq_true.mpr ⟨x, hx, hb⟩)
      cases x with
      | schema s => exact absurd rfl habout
      | schemaExtension s => exact absurd rfl habout
      | _ => rfl
    rw [rootsAfter, if_neg h, hnone]
    rfl

theorem rootsAfter_append (h : x.isAboutRoots = true) :
    rootsAfter (es ++ [x]) = some (.ofBindings (rootBindings es ++ x.rootBindings)) := by
  rw [rootsAfter, List.any_append, List.any_cons, h, Bool.true_or, Bool.or_true, if_pos rfl,
    rootBindings_append]

theorem rootsAfter_append_of_not (h : x.isAboutRoots = false) :
    rootsAfter (es ++ [x]) = rootsAfter es := by
  have hnone : x.rootBindings = [] := by
    cases x with
    | schema s => nomatch h
    | schemaExtension s => nomatch h
    | _ => rfl
  rw [rootsAfter, List.any_append, List.any_cons, h, Bool.false_or, List.any_nil, Bool.or_false,
    rootBindings_append, hnone, List.append_nil, rootsAfter]

end Append

/-- An extension goes to its type: reshaping that one entry gives the entries after the extension. -/
theorem reshape_entries {ds es : List Definition} {d e : TypeDefinition} (roots : Roots)
    (hn : ((allTypes ds).map (·.name.text)).Nodup) (hd : d ∈ allTypes ds)
    (hname : d.name.text = e.name.text) (hkind : d.body.kind = e.body.kind)
    (hfit : ExtensionFits ds es e) :
    (Catalogue.mk (entries ds es) roots).reshape e.name.text ((entry es d).shape.merge e.body) =
      ⟨entries ds (es ++ [.typeExtension e]), roots⟩ := by
  have hmerge : (entry es d).shape.merge e.body =
      .ofBodies d.body.kind (bodiesOf (es ++ [.typeExtension e]) d) := by
    have hdistinct := hfit.members_distinct d hd hname
    rw [hkind] at hdistinct
    rw [bodiesOf_append_of_eq hname, hkind, ← TypeShape.merge_ofBodies hdistinct hfit.well_formed,
      ← hkind]
    rfl
  -- Entry by entry: the extended type has a body more, and the others are left as they are.
  rw [Catalogue.reshape, hmerge, entries, entries, List.map_map]
  refine congrArg (Catalogue.mk · roots) (List.map_congr_left fun t ht => ?_)
  show (if (t.name.text == e.name.text) = true then _ else _ : NamedType) = _
  by_cases htn : t.name.text = e.name.text
  · -- Names are distinct, so this is the type extended.
    obtain rfl : t = d := eq_of_key_eq hn ht hd (htn.trans hname.symm)
    rw [if_pos (beq_iff_eq.mpr htn)]
    rfl
  · rw [if_neg fun hb => htn (beq_iff_eq.mp hb), entry, entry, bodiesOf_append_of_ne htn]

end Definitions

namespace Draft

open Definitions

variable {ds es : List Definition}

/-! ## Faults stay -/

/-- No fault is lost at a step. So a draft without faults had none before. -/
theorem prefix_faults_bindRoot (D : Draft) (b : RootBinding) :
    D.findings.faults <+: (D.bindRoot b).findings.faults := by
  rw [bindRoot]
  by_cases h : ((D.roots.getD Roots.none).get b.operation).isSome = true
  · rw [if_pos h]
    exact List.prefix_append _ _
  · rw [if_neg h]
    exact List.prefix_append _ _

theorem prefix_faults_bindRoots (D : Draft) (s : SchemaDefinition) :
    D.findings.faults <+: (D.bindRoots s).findings.faults := by
  have hfold (rs : List RootBinding) (D : Draft) :
      D.findings.faults <+: (rs.foldl bindRoot D).findings.faults := by
    induction rs generalizing D with
    | nil => exact List.prefix_rfl
    | cons r rs ih => exact (prefix_faults_bindRoot D r).trans (ih (D.bindRoot r))
  exact hfold s.operations { D with roots := some (D.roots.getD .none) }

theorem prefix_faults_apply (D : Draft) (x : Definition) :
    D.findings.faults <+: (D.apply x).findings.faults := by
  -- A step writes at the end of the findings, or not at all.
  cases x with
  | type d => exact List.prefix_rfl
  | directive d => exact List.prefix_rfl
  | typeExtension e =>
    show _ <+: (D.extend e).findings.faults
    rw [extend]
    split
    · exact List.prefix_append _ _
    · split
      · exact List.prefix_append _ _
      · exact List.prefix_append _ _
  | schema s =>
    show _ <+: (D.defineSchema s).findings.faults
    rw [defineSchema]
    split
    · exact List.prefix_append _ _
    · exact prefix_faults_bindRoots { D with schemaAt := some s.span } s
  | schemaExtension s => exact prefix_faults_bindRoots D s

/-! ## The step -/

/-- The draft behind clean definitions and clean extensions. -/
def extended (ds es : List Definition) : Draft where
  catalogue := ⟨entries ds es, .conventional⟩
  findings := ⟨[], (newTypes ds).flatMap (·.body.references) ++ es.flatMap (·.laterReferences)⟩
  roots := rootsAfter es
  schemaAt := (schemaBlocks es).head?.map (·.span)

/-- The second round starts where the first one ends. -/
theorem extended_nil : extended ds [] = entered ds := by
  rw [extended, List.flatMap_nil, List.append_nil]
  rfl

/-- An extension fits its type when it is declared and the one body more goes with the others. -/
theorem extensionFits_iff {d e : TypeDefinition} (hn : ((allTypes ds).map (·.name.text)).Nodup)
    (hd : d ∈ allTypes ds) (hname : d.name.text = e.name.text) (hkind : d.body.kind = e.body.kind) :
    ExtensionFits ds es e ↔
      TypeBody.JointlyDistinct e.body.kind (bodiesOf es d ++ [e.body]) ∧ e.body.WellFormed := by
  constructor
  · rintro ⟨-, hwell, hdistinct⟩
    exact ⟨hkind ▸ hdistinct d hd hname, hwell⟩
  · rintro ⟨hdistinct, hwell⟩
    refine ⟨declares_iff.mpr ⟨d, hd, hname, hkind⟩, hwell, fun t ht htn => ?_⟩
    obtain rfl : t = d := eq_of_key_eq hn ht hd (htn.trans hname.symm)
    rwa [hkind]

/-- An extension, with the type it finds: the type is reshaped, and what comes to light is noted. -/
theorem extend_of_get? {D : Draft} {t : NamedType} {e : TypeDefinition}
    (hget : D.catalogue.get? e.name.text = some t) (hkind : t.shape.kind = e.body.kind) :
    D.extend e =
      { D with catalogue := D.catalogue.reshape e.name.text (t.shape.merge e.body) }.note
        (t.shape.findings t.name e.body) := by
  rw [extend, hget]
  exact if_pos hkind

/-- An extension that finds no type of its kind is a fault. -/
theorem faults_extend_ne_nil {D : Draft} {e : TypeDefinition}
    (h : D.catalogue.kindOf? e.name.text ≠ some e.body.kind) : (D.extend e).findings.faults ≠ [] := by
  rw [extend]
  split
  · exact faults_fault_ne_nil D _
  · rename_i t hget
    have hkind : t.shape.kind ≠ e.body.kind := by
      intro hk
      rw [Catalogue.kindOf?, hget, Option.map_some, hk] at h
      exact h rfl
    rw [if_neg hkind]
    exact faults_fault_ne_nil D _

/-- An extension of a draft without faults. -/
theorem extend_extended (hn : ((allTypes ds).map (·.name.text)).Nodup) (hes : ExtendsCleanly ds es)
    (e : TypeDefinition) :
    (((extended ds es).extend e).findings.faults = [] ↔ ExtensionFits ds es e) ∧
      (ExtensionFits ds es e →
        (extended ds es).extend e = extended ds (es ++ [.typeExtension e])) := by
  by_cases htarget : Declares ds e.name.text e.body.kind
  · -- The target is in the catalogue, with the sum of its bodies so far.
    obtain ⟨d, hd, hname, hkind⟩ := declares_iff.mp htarget
    have hget : (extended ds es).catalogue.get? e.name.text = some (entry es d) :=
      (get?_entries_eq_some_iff hn).mpr ⟨d, hd, hname, rfl⟩
    have hshape : (entry es d).shape = .ofBodies e.body.kind (bodiesOf es d) := by
      rw [entry, hkind]
    have hdistinct : TypeBody.JointlyDistinct e.body.kind (bodiesOf es d) :=
      hkind ▸ hes.members_distinct d hd
    have hextend := extend_of_get? hget (by rw [hshape, TypeShape.kind_ofBodies])
    rw [hextend]
    constructor
    · rw [faults_note, hshape, extensionFits_iff hn hd hname hkind]
      exact TypeShape.findings_ofBodies_faults_eq_nil_iff hdistinct
    · intro hfit
      obtain ⟨hdistinct', hwell⟩ := (extensionFits_iff hn hd hname hkind).mp hfit
      have hfound : (entry es d).shape.findings (entry es d).name e.body = ⟨[], e.body.references⟩ := by
        rw [hshape, ← TypeShape.references_findings_ofBodies hdistinct' hwell,
          ← (TypeShape.findings_ofBodies_faults_eq_nil_iff hdistinct).mpr ⟨hdistinct', hwell⟩]
      have hentries : (extended ds es).catalogue.reshape e.name.text ((entry es d).shape.merge e.body) =
          ⟨entries ds (es ++ [.typeExtension e]), .conventional⟩ :=
        reshape_entries .conventional hn hd hname hkind hfit
      have hblocks : schemaBlocks (es ++ [.typeExtension e]) = schemaBlocks es := by
        rw [schemaBlocks_append]
        exact List.append_nil _
      rw [hfound, hentries, extended, extended, rootsAfter_append_of_not rfl, hblocks,
        List.flatMap_append, List.flatMap_singleton, ← List.append_assoc]
      rfl
  · -- Nothing of this name and kind is declared, so nothing is found in the catalogue.
    refine ⟨iff_of_false (faults_extend_ne_nil fun hk => htarget ?_) fun hf => htarget hf.target,
      fun hf => absurd hf.target htarget⟩
    exact (kindOf?_entries_eq_some_iff hn).mp hk

/-- A schema block or a schema extension, as far as the roots are concerned. -/
theorem bindRoots_extended (hes : ExtendsCleanly ds es) (at? : Option Span) (s : SchemaDefinition) :
    let D : Draft := { extended ds es with schemaAt := at? }
    ((D.bindRoots s).findings.faults = [] ↔
        ((rootBindings es ++ s.operations).map (·.operation)).Nodup) ∧
      (((rootBindings es ++ s.operations).map (·.operation)).Nodup →
        D.bindRoots s = (D.note ⟨[], s.operations.map (⟨·.type, .root⟩)⟩).withBindings
          (rootBindings es ++ s.operations)) := by
  intro D
  have hstart : { D with roots := some (D.roots.getD .none) } = D.withBindings (rootBindings es) := by
    show { D with roots := some ((rootsAfter es).getD .none) } = _
    rw [getD_rootsAfter]
    rfl
  rw [bindRoots, hstart]
  obtain ⟨hfaults, hdraft⟩ := foldl_bindRoot D (rootBindings es) s.operations hes.roots_once
  exact ⟨hfaults.trans (and_iff_right rfl), hdraft⟩

/-- A schema block brings no fault to light when it is the first and its bindings are new. -/
theorem defineSchema_extended (hes : ExtendsCleanly ds es) (s : SchemaDefinition) :
    (((extended ds es).defineSchema s).findings.faults = [] ↔ ExtendsCleanly ds (es ++ [.schema s])) ∧
      (ExtendsCleanly ds (es ++ [.schema s]) →
        (extended ds es).defineSchema s = extended ds (es ++ [.schema s])) := by
  rw [extendsCleanly_append_of_none_iff rfl, and_iff_right hes, schemaBlocks_append,
    List.length_append]
  -- The draft has kept the place of the first schema block, if there was one.
  cases hblocks : schemaBlocks es with
  | nil =>
    have hfirst : (extended ds es).defineSchema s =
        { extended ds es with schemaAt := some s.span }.bindRoots s := by
      rw [defineSchema, extended, hblocks]
      rfl
    obtain ⟨hfaults, hdraft⟩ := bindRoots_extended hes (some s.span) s
    rw [hfirst]
    refine ⟨hfaults.trans (and_iff_right (Nat.le_refl 1)).symm, fun hclean => ?_⟩
    rw [hdraft hclean.2, extended, extended, entries_append_of_none rfl, rootsAfter_append rfl,
      schemaBlocks_append, hblocks, List.flatMap_append, List.flatMap_singleton, ← List.append_assoc]
    rfl
  | cons first others =>
    have htwo : ¬ ((first :: others).length + (schemaBlocks [Definition.schema s]).length ≤ 1) := by
      have hone : (schemaBlocks [Definition.schema s]).length = 1 := rfl
      rw [List.length_cons, hone]
      omega
    have hsecond : (extended ds es).defineSchema s =
        (extended ds es).fault (.secondSchema s.span first.span) := by
      rw [defineSchema, extended, hblocks]
      rfl
    rw [hsecond]
    refine ⟨iff_of_false (faults_fault_ne_nil _ _) fun hclean => htwo hclean.1,
      fun hclean => absurd hclean.1 htwo⟩

/-- A schema extension brings no fault to light when its bindings are new. -/
theorem extendSchema_extended (hes : ExtendsCleanly ds es) (s : SchemaDefinition) :
    (((extended ds es).bindRoots s).findings.faults = [] ↔
        ExtendsCleanly ds (es ++ [.schemaExtension s])) ∧
      (ExtendsCleanly ds (es ++ [.schemaExtension s]) →
        (extended ds es).bindRoots s = extended ds (es ++ [.schemaExtension s])) := by
  have hblocks : schemaBlocks (es ++ [.schemaExtension s]) = schemaBlocks es := by
    rw [schemaBlocks_append]
    exact List.append_nil _
  obtain ⟨hfaults, hdraft⟩ := bindRoots_extended hes (extended ds es).schemaAt s
  rw [extendsCleanly_append_of_none_iff rfl, and_iff_right hes, hblocks, and_iff_right hes.schema_once]
  refine ⟨hfaults, fun hclean => (hdraft hclean).trans ?_⟩
  rw [extended, extended, entries_append_of_none rfl, rootsAfter_append rfl, hblocks,
    List.flatMap_append, List.flatMap_singleton, ← List.append_assoc]
  rfl

/-- A definition that the second round passes over. -/
theorem extended_append_of_passed {x : Definition} (hes : ExtendsCleanly ds es)
    (hx : x.typeExtension? = none) (hb : schemaBlocks [x] = []) (hr : x.isAboutRoots = false)
    (hbindings : x.rootBindings = []) (hrefs : x.laterReferences = []) :
    ExtendsCleanly ds (es ++ [x]) ∧ extended ds (es ++ [x]) = extended ds es := by
  constructor
  · rw [extendsCleanly_append_of_none_iff hx, schemaBlocks_append, hb, hbindings, List.append_nil,
      List.append_nil]
    exact ⟨hes, hes.schema_once, hes.roots_once⟩
  · rw [extended, extended, entries_append_of_none hx, rootsAfter_append_of_not hr, schemaBlocks_append, hb,
      List.append_nil, List.flatMap_append, List.flatMap_singleton, hrefs, List.append_nil]

/-- **The step.** At clean definitions and extensions, a definition brings no fault to light exactly
when the conditions hold with it, and the draft then is the one behind the longer list. -/
theorem apply_extended (hn : ((allTypes ds).map (·.name.text)).Nodup) (hes : ExtendsCleanly ds es)
    (x : Definition) :
    (((extended ds es).apply x).findings.faults = [] ↔ ExtendsCleanly ds (es ++ [x])) ∧
      (ExtendsCleanly ds (es ++ [x]) → (extended ds es).apply x = extended ds (es ++ [x])) := by
  cases x with
  | type d =>
    obtain ⟨hclean, hsame⟩ := extended_append_of_passed (x := .type d) hes rfl rfl rfl rfl rfl
    exact ⟨iff_of_true rfl hclean, fun _ => hsame.symm⟩
  | directive d =>
    obtain ⟨hclean, hsame⟩ := extended_append_of_passed (x := .directive d) hes rfl rfl rfl rfl rfl
    exact ⟨iff_of_true rfl hclean, fun _ => hsame.symm⟩
  | typeExtension e =>
    rw [extendsCleanly_append_typeExtension_iff, and_iff_right hes]
    exact extend_extended hn hes e
  | schema s => exact defineSchema_extended hes s
  | schemaExtension s => exact extendSchema_extended hes s

/-- After the first round, no extension has been gone through. -/
theorem extendsCleanly_nil (hds : EntersCleanly ds) : ExtendsCleanly ds [] := by
  refine ⟨Nat.zero_le 1, .nil, List.forall_mem_nil _, List.forall_mem_nil _, fun d hd => ?_⟩
  show TypeBody.JointlyDistinct d.body.kind [d.body]
  rcases List.mem_append.mp hd with hd | hd
  · rw [(isBuiltin_of_mem_builtinDefinitions hd).2]
    exact ⟨.nil, .nil, .nil, .nil, nofun⟩
  · exact hds.members_distinct d hd

/-- **The second round.** After a first round without faults, no fault is found exactly when the
conditions hold of all definitions gone through, and the draft is then known. -/
theorem foldl_apply (hds : EntersCleanly ds) (es : List Definition) :
    ((es.foldl apply (entered ds)).findings.faults = [] ↔ ExtendsCleanly ds es) ∧
      (ExtendsCleanly ds es → es.foldl apply (entered ds) = extended ds es) := by
  induction es using List.reverseRecOn with
  | nil => exact ⟨iff_of_true rfl (extendsCleanly_nil hds), fun _ => extended_nil.symm⟩
  | append_singleton es x ih =>
    rw [List.foldl_append, List.foldl_cons, List.foldl_nil]
    by_cases hes : ExtendsCleanly ds es
    · rw [ih.2 hes]
      exact apply_extended hds.names_distinct hes x
    · -- A fault was found before, and it stays.
      have hbefore : (es.foldl apply (entered ds)).findings.faults ≠ [] := fun hf => hes (ih.1.mp hf)
      have hafter (hf : ((es.foldl apply (entered ds)).apply x).findings.faults = []) : False := by
        have hprefix := prefix_faults_apply (es.foldl apply (entered ds)) x
        rw [hf] at hprefix
        exact hbefore (List.prefix_nil.mp hprefix)
      exact ⟨iff_of_false hafter fun hc => hes hc.of_append, fun hc => absurd hc.of_append hes⟩

end Draft

end ResolverContracts
