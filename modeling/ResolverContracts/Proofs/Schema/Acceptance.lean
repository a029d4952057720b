import ResolverContracts.Proofs.Schema.SecondRound
/-!
# Which documents are accepted

Lowering reports nothing about a document exactly when the document is a schema. The conditions of
the first round, those of the second and the references of the third are sorted by when they are
checked; the rules of `Definitions.Valid` are sorted by what they are about. Going from one list to
the other is the only work left here (`Definitions.valid_iff`), and it has two points. A built-in
scalar is a type like any other to the rounds, but has no definition in the document; and a
reference is checked once for every body, wherever the body stands.

The same two lists give the draft behind an accepted document, and with it the whole result
(`lower_eq_of_valid`).
-/

set_option autoImplicit false

namespace ResolverContracts

namespace Definitions

variable {ds : List Definition}

/-! ## References -/

/-- What the document refers to, in the order in which the rounds come across it. -/
def references (ds : List Definition) : List Reference :=
  (newTypes ds).flatMap (·.body.references) ++ ds.flatMap (·.laterReferences)

/-- All references are to declared types of a kind that is allowed there. -/
def Resolves (ds : List Definition) : Prop :=
  ∀ r ∈ references ds, ∃ k, Declares ds r.name.text k ∧ r.site.allows k = true

/-- A scalar declared again has a body without members. -/
theorem body_eq_scalar_of_kind {b : TypeBody} (h : b.kind = .scalar) : b = .scalar := by
  cases b with
  | scalar => rfl
  | _ => nomatch h

theorem mem_bodies_of_newTypes {d : TypeDefinition} (h : d ∈ newTypes ds) : d.body ∈ bodies ds :=
  List.mem_map_of_mem (List.mem_append_left _ (List.mem_filter.mp h).1)

theorem mem_bodies_of_typeExtensions {e : TypeDefinition} (h : e ∈ typeExtensions ds) :
    e.body ∈ bodies ds :=
  List.mem_map_of_mem (List.mem_append_right _ h)

/-- The bodies of a document are those of its new types and extensions, and the empty ones. -/
theorem mem_bodies_iff {b : TypeBody} (hb : b ≠ .scalar) :
    b ∈ bodies ds ↔ (∃ d ∈ newTypes ds, d.body = b) ∨ ∃ e ∈ typeExtensions ds, e.body = b := by
  constructor
  · intro h
    obtain ⟨d, hd, rfl⟩ := List.mem_map.mp h
    rcases List.mem_append.mp hd with hd | hd
    · have hnot : d.isRedeclaration ≠ true := fun hr =>
        hb (body_eq_scalar_of_kind (beq_iff_eq.mp (Bool.and_eq_true_iff.mp hr).1))
      exact .inl ⟨d, List.mem_filter.mpr ⟨hd, by simpa using hnot⟩, rfl⟩
    · exact .inr ⟨d, hd, rfl⟩
  · rintro (⟨d, hd, rfl⟩ | ⟨e, he, rfl⟩)
    · exact mem_bodies_of_newTypes hd
    · exact mem_bodies_of_typeExtensions he

/-- What the second round comes across at a definition comes from an extension or binds a root. -/
theorem mem_laterReferences_iff {x : Definition} {r : Reference} :
    r ∈ x.laterReferences ↔
      (∃ e, x.typeExtension? = some e ∧ r ∈ e.body.references) ∨
        ∃ b ∈ x.rootBindings, r = ⟨b.type, .root⟩ := by
  have hroots (operations : List RootBinding) :
      r ∈ operations.map (fun b => Reference.mk b.type .root) ↔
        ∃ b ∈ operations, r = ⟨b.type, .root⟩ := by
    rw [List.mem_map]
    exact exists_congr fun b => and_congr_right fun _ => eq_comm
  cases x with
  | typeExtension e =>
    simp [Definition.laterReferences, Definition.typeExtension?, Definition.rootBindings]
  | schema s =>
    simp only [Definition.typeExtension?, reduceCtorEq, false_and, exists_false, false_or]
    exact hroots s.operations
  | schemaExtension s =>
    simp only [Definition.typeExtension?, reduceCtorEq, false_and, exists_false, false_or]
    exact hroots s.operations
  | _ => simp [Definition.laterReferences, Definition.typeExtension?, Definition.rootBindings]

/-- What is referred to is what some body refers to, or the type of a root. -/
theorem mem_references_iff {r : Reference} :
    r ∈ references ds ↔
      (∃ b ∈ bodies ds, r ∈ b.references) ∨ ∃ b ∈ rootBindings ds, r = ⟨b.type, .root⟩ := by
  have hnew : r ∈ (newTypes ds).flatMap (·.body.references) ↔
      ∃ d ∈ newTypes ds, r ∈ d.body.references := List.mem_flatMap
  have hlater : r ∈ ds.flatMap (·.laterReferences) ↔
      (∃ e ∈ typeExtensions ds, r ∈ e.body.references) ∨
        ∃ b ∈ rootBindings ds, r = ⟨b.type, .root⟩ := by
    simp only [List.mem_flatMap, mem_laterReferences_iff, typeExtensions, List.mem_filterMap,
      rootBindings]
    constructor
    · rintro ⟨x, hx, ⟨e, he, hr⟩ | ⟨b, hb, hr⟩⟩
      · exact .inl ⟨e, ⟨x, hx, he⟩, hr⟩
      · exact .inr ⟨b, ⟨x, hx, hb⟩, hr⟩
    · rintro (⟨e, ⟨x, hx, he⟩, hr⟩ | ⟨b, ⟨x, hx, hb⟩, hr⟩)
      · exact ⟨x, hx, .inl ⟨e, he, hr⟩⟩
      · exact ⟨x, hx, .inr ⟨b, hb, hr⟩⟩
  rw [references, List.mem_append, hnew, hlater, ← or_assoc]
  refine or_congr_left ⟨?_, ?_⟩
  · rintro (⟨d, hd, hr⟩ | ⟨e, he, hr⟩)
    · exact ⟨d.body, mem_bodies_of_newTypes hd, hr⟩
    · exact ⟨e.body, mem_bodies_of_typeExtensions he, hr⟩
  · rintro ⟨b, hb, hr⟩
    -- A body that refers to something is not that of a scalar declared again.
    have hne : b ≠ .scalar := by
      rintro rfl
      exact absurd hr List.not_mem_nil
    rcases (mem_bodies_iff hne).mp hb with ⟨d, hd, rfl⟩ | ⟨e, he, rfl⟩
    · exact .inl ⟨d, hd, hr⟩
    · exact .inr ⟨e, he, hr⟩

/-- The references of a body have a property when those of its fields, arguments, input fields,
interfaces and members have it. -/
theorem forall_references_iff {b : TypeBody} {P : Reference → Prop} :
    (∀ r ∈ b.references, P r) ↔
      (∀ f ∈ b.fields, P ⟨f.type.leaf, .output⟩) ∧
      (∀ f ∈ b.fields, ∀ a ∈ f.arguments, P ⟨a.type.leaf, .input⟩) ∧
      (∀ i ∈ b.inputs, P ⟨i.type.leaf, .input⟩) ∧
      (∀ n ∈ b.implementsNames, P ⟨n, .implements⟩) ∧
      ∀ n ∈ b.members, P ⟨n, .unionMember⟩ := by
  simp only [TypeBody.references, List.forall_mem_append, List.forall_mem_flatMap,
    List.forall_mem_cons, List.forall_mem_map]
  constructor
  · rintro ⟨⟨⟨hf, hn⟩, hm⟩, hi⟩
    exact ⟨fun f hmem => (hf f hmem).1, fun f hmem => (hf f hmem).2, hi, hn, hm⟩
  · rintro ⟨hf, ha, hi, hn, hm⟩
    exact ⟨⟨⟨fun f hmem => ⟨hf f hmem, ha f hmem⟩, hn⟩, hm⟩, hi⟩

/-! ## From one list of conditions to the other -/

/-- The references resolve when the rules about references hold. -/
theorem resolves_iff :
    Resolves ds ↔
      (∀ b ∈ bodies ds,
        (∀ f ∈ b.fields, ∃ k, Declares ds f.type.leaf.text k ∧ k ≠ .inputObject) ∧
        (∀ f ∈ b.fields, ∀ a ∈ f.arguments,
          ∃ k, Declares ds a.type.leaf.text k ∧ (k = .scalar ∨ k = .enum ∨ k = .inputObject)) ∧
        (∀ i ∈ b.inputs,
          ∃ k, Declares ds i.type.leaf.text k ∧ (k = .scalar ∨ k = .enum ∨ k = .inputObject)) ∧
        (∀ n ∈ b.implementsNames, Declares ds n.text .interface) ∧
        ∀ n ∈ b.members, ∃ k, Declares ds n.text k ∧ k ≠ .interface ∧ k ≠ .inputObject) ∧
      ∀ r ∈ rootBindings ds, Declares ds r.type.text .object := by
  -- What each place allows, in the words of the rules.
  have houtput (k : Kind) : Site.output.allows k = true ↔ k ≠ .inputObject := by
    cases k <;> decide
  have hinput (k : Kind) :
      Site.input.allows k = true ↔ k = .scalar ∨ k = .enum ∨ k = .inputObject := by
    cases k <;> decide
  have hmember (k : Kind) : Site.unionMember.allows k = true ↔ k ≠ .interface ∧ k ≠ .inputObject := by
    cases k <;> decide
  have himplements (k : Kind) : Site.implements.allows k = true ↔ k = .interface := beq_iff_eq
  have hroot (k : Kind) : Site.root.allows k = true ↔ k = .object := beq_iff_eq
  have hall : Resolves ds ↔
      (∀ b ∈ bodies ds, ∀ r ∈ b.references,
        ∃ k, Declares ds r.name.text k ∧ r.site.allows k = true) ∧
      ∀ b ∈ rootBindings ds, ∃ k, Declares ds b.type.text k ∧ Site.root.allows k = true := by
    constructor
    · intro h
      refine ⟨fun b hb r hr => h r (mem_references_iff.mpr (.inl ⟨b, hb, hr⟩)), fun b hb => ?_⟩
      exact h ⟨b.type, .root⟩ (mem_references_iff.mpr (.inr ⟨b, hb, rfl⟩))
    · rintro ⟨hbodies, hroots⟩ r hr
      rcases mem_references_iff.mp hr with ⟨b, hb, hr⟩ | ⟨b, hb, rfl⟩
      · exact hbodies b hb r hr
      · exact hroots b hb
  rw [hall]
  simp only [forall_references_iff, houtput, hinput, hmember, himplements, hroot, exists_eq_right]

/-- The names of all types are distinct when those of the new types are and none is built in. -/
theorem nodup_allTypes_iff :
    ((allTypes ds).map (·.name.text)).Nodup ↔
      ((newTypes ds).map (·.name.text)).Nodup ∧
        ∀ d ∈ newTypes ds, isBuiltinScalar d.name.text = false := by
  have hbuiltin : builtinDefinitions.map (·.name.text) = builtinScalars := rfl
  have hnodup : builtinScalars.Nodup := by decide
  rw [allTypes, List.map_append, hbuiltin, List.nodup_append, and_iff_right hnodup]
  refine and_congr_right fun _ => ⟨fun h d hd => ?_, fun h a ha b hb he => ?_⟩
  · rw [← Bool.not_eq_true, isBuiltinScalar, List.contains_iff_mem]
    exact fun hmem => h _ hmem _ (List.mem_map_of_mem hd) rfl
  · obtain ⟨d, hd, rfl⟩ := List.mem_map.mp hb
    have hnot := h d hd
    rw [← Bool.not_eq_true, isBuiltinScalar, List.contains_iff_mem] at hnot
    exact hnot (he ▸ ha)

/-- The names of the types of a schema are distinct, the built-in ones included. -/
theorem Valid.nodup_allTypes (hv : Valid ds) : ((allTypes ds).map (·.name.text)).Nodup :=
  nodup_allTypes_iff.mpr ⟨hv.names_distinct, hv.names_not_builtin⟩

/-- A name is declared as one kind only. -/
theorem Declares.kind_unique {name : String} {k k' : Kind}
    (hn : ((allTypes ds).map (·.name.text)).Nodup) (h : Declares ds name k)
    (h' : Declares ds name k') : k = k' := by
  obtain ⟨d, hd, hname, rfl⟩ := declares_iff.mp h
  obtain ⟨d', hd', hname', rfl⟩ := declares_iff.mp h'
  rw [eq_of_key_eq hn hd hd' (hname.trans hname'.symm)]

/-- A built-in scalar has no members, whatever extends it, as long as extensions keep to kinds. -/
theorem jointlyDistinct_of_builtin {d : TypeDefinition}
    (hn : ((allTypes ds).map (·.name.text)).Nodup)
    (htargets : ∀ e ∈ typeExtensions ds, Declares ds e.name.text e.body.kind)
    (hd : d ∈ builtinDefinitions) : TypeBody.JointlyDistinct d.body.kind (bodiesOf ds d) := by
  obtain ⟨hbuiltin, hscalar⟩ := isBuiltin_of_mem_builtinDefinitions hd
  refine TypeBody.jointlyDistinct_of_scalar fun b hb => ?_
  rcases List.mem_cons.mp hb with rfl | hb
  · exact hscalar
  · obtain ⟨e, he, rfl⟩ := List.mem_map.mp hb
    obtain ⟨hmem, hname⟩ := List.mem_filter.mp he
    have hkind := htargets e hmem
    rw [beq_iff_eq.mp hname] at hkind
    exact body_eq_scalar_of_kind (hkind.kind_unique hn (.builtin hbuiltin))

/-- **Rules and rounds.** A document is valid when both rounds go through it without a fault and all
references resolve. -/
theorem valid_iff : Valid ds ↔ EntersCleanly ds ∧ ExtendsCleanly ds ds ∧ Resolves ds := by
  constructor
  · -- The rules of both rounds are instances of the rules about all bodies.
    intro h
    have hn := h.nodup_allTypes
    refine ⟨⟨hn, h.names_not_reserved, fun d hd => ?_, fun d hd => ?_⟩,
      ⟨h.schema_once, h.roots_once, h.targets, fun e he => ?_, fun d hd => ?_⟩,
      resolves_iff.mpr ⟨fun b hb => ?_, h.roots⟩⟩
    · exact h.well_formed _ (mem_bodies_of_newTypes hd)
    · exact (h.members_distinct d hd).of_append [d.body] _
    · exact h.well_formed _ (mem_bodies_of_typeExtensions he)
    · rcases List.mem_append.mp hd with hd | hd
      · exact jointlyDistinct_of_builtin hn h.targets hd
      · exact h.members_distinct d hd
    · exact ⟨h.outputs b hb, h.arguments b hb, h.inputs b hb, h.interfaces b hb, h.members b hb⟩
  · -- Every body was gone through, by the first round or by the second.
    rintro ⟨hds, hes, hrefs⟩
    obtain ⟨hdistinct, hbuiltin⟩ := nodup_allTypes_iff.mp hds.names_distinct
    obtain ⟨hresolve, hroots⟩ := resolves_iff.mp hrefs
    refine ⟨hes.schema_once, hes.roots_once, hroots, hdistinct, hbuiltin, hds.names_not_reserved,
      hes.targets, fun b hb => ?_, fun d hd => ?_, fun b hb => (hresolve b hb).1,
      fun b hb => (hresolve b hb).2.1, fun b hb => (hresolve b hb).2.2.1,
      fun b hb => (hresolve b hb).2.2.2.1, fun b hb => (hresolve b hb).2.2.2.2⟩
    · by_cases hscalar : b = .scalar
      · rw [hscalar]
        exact TypeBody.wellFormed_scalar
      · rcases (mem_bodies_iff hscalar).mp hb with ⟨d, hd, rfl⟩ | ⟨e, he, rfl⟩
        · exact hds.well_formed d hd
        · exact hes.well_formed e he
    · exact hes.members_distinct d (List.mem_append_right _ hd)

end Definitions

/-! ## The result of lowering -/

open Definitions

/-- Nothing is wrong with a reference to a declared type of an allowed kind. -/
theorem Reference.fault?_eq_none_iff {r : Reference} {c : Catalogue} :
    r.fault? c = none ↔ ∃ k, c.kindOf? r.name.text = some k ∧ r.site.allows k = true := by
  rw [Reference.fault?]
  split
  · rename_i h
    simp [h]
  · rename_i k h
    simp [h]

/-- The roots of a document: those bound, or else the conventional ones. -/
def Definitions.rootsOf (ds : List Definition) : Roots :=
  (rootsAfter ds).getD (Catalogue.mk (entries ds ds) .conventional).conventionalRoots

/-- The draft of a document whose definitions both rounds go through without a fault. -/
theorem Draft.ofDocument_eq {document : Document} (hds : EntersCleanly document.definitions)
    (hes : ExtendsCleanly document.definitions document.definitions) :
    Draft.ofDocument document = Draft.extended document.definitions document.definitions := by
  rw [ofDocument, (foldl_enter _).2 hds, (foldl_apply hds _).2 hes]

/-- The faults of the first round stay to the end of the second. -/
theorem Draft.prefix_faults_foldl_apply (es : List Definition) (D : Draft) :
    D.findings.faults <+: (es.foldl apply D).findings.faults := by
  induction es generalizing D with
  | nil => exact List.prefix_rfl
  | cons x es ih => exact (prefix_faults_apply D x).trans (ih (D.apply x))

/-- The first two rounds find no fault exactly when their conditions hold. -/
theorem Draft.faults_ofDocument_eq_nil_iff (document : Document) :
    (ofDocument document).findings.faults = [] ↔
      EntersCleanly document.definitions ∧
        ExtendsCleanly document.definitions document.definitions := by
  rw [ofDocument]
  by_cases hds : EntersCleanly document.definitions
  · rw [(foldl_enter _).2 hds, (foldl_apply hds _).1, and_iff_right hds]
  · refine iff_of_false (fun hf => hds ?_) fun hc => hds hc.1
    have hprefix := prefix_faults_foldl_apply document.definitions
      (document.definitions.foldl enter initial)
    rw [hf] at hprefix
    exact (foldl_enter _).1.mp (List.prefix_nil.mp hprefix)

/-- Lowering finds no fault exactly in valid documents. -/
theorem Document.faults_lower_eq_nil_iff (document : Document) :
    document.lower.faults = [] ↔ document.Valid := by
  rw [Document.Valid, valid_iff, ← and_assoc, ← Draft.faults_ofDocument_eq_nil_iff]
  show (Draft.ofDocument document).findings.faults ++ _ = [] ↔ _
  rw [List.append_eq_nil_iff, List.filterMap_eq_nil_iff]
  -- References are looked up in a catalogue that is known once the first rounds found no fault.
  refine and_congr_right fun hf => ?_
  obtain ⟨hds, hes⟩ := (Draft.faults_ofDocument_eq_nil_iff document).mp hf
  rw [Draft.ofDocument_eq hds hes]
  refine forall₂_congr fun r _ => ?_
  rw [Reference.fault?_eq_none_iff]
  refine exists_congr fun k => and_congr_left fun _ => ?_
  exact kindOf?_entries_eq_some_iff hds.names_distinct

/-- Every fault of a schema is an error. -/
theorem SchemaFault.severity_toDiagnostic (f : SchemaFault) : f.toDiagnostic.severity = .error := by
  cases f with
  | misplaced site name found => cases site <;> rfl
  | _ => rfl

/-- Errors are reported exactly about documents that are no schema. -/
theorem Document.hasErrors_lower_iff (document : Document) :
    document.lower.diagnostics.hasErrors = true ↔ ¬ document.Valid := by
  rw [← faults_lower_eq_nil_iff, Diagnostics.hasErrors, Lowered.diagnostics, List.any_map,
    List.any_eq_true]
  constructor
  · rintro ⟨f, hf, -⟩ hnil
    rw [hnil] at hf
    exact List.not_mem_nil hf
  · intro hne
    obtain ⟨f, hf⟩ := List.exists_mem_of_ne_nil _ hne
    exact ⟨f, hf, beq_iff_eq.mpr f.severity_toDiagnostic⟩

/-- The result of lowering a valid document. -/
theorem Document.lower_eq_of_valid {document : Document} (h : document.Valid) :
    document.lower =
      ⟨⟨entries document.definitions document.definitions, rootsOf document.definitions⟩, []⟩ := by
  obtain ⟨hds, hes, -⟩ := valid_iff.mp h
  have hfaults := (faults_lower_eq_nil_iff document).mpr h
  have hcatalogue : document.lower.catalogue =
      ⟨entries document.definitions document.definitions, rootsOf document.definitions⟩ := by
    rw [lower, Draft.ofDocument_eq hds hes]
    rfl
  rw [← hcatalogue, ← hfaults]

/-- **Which documents are accepted.** Lowering reports nothing about a document exactly when the
document is valid. -/
theorem Document.lower_reports_nothing_iff (document : Document) :
    document.lower.diagnostics.items = [] ↔ document.Valid := by
  rw [← faults_lower_eq_nil_iff]
  exact List.map_eq_nil_iff

end ResolverContracts
