import ResolverContracts.Proofs.Schema.Contents
/-!
# Schema extensions that bind nothing

What a schema extension without operations does, such as one that only applies a directive. It adds
no type, no reference and no fault, so lowering goes on behind it as if it were not there. Only the
roots feel it. The conventional roots are for documents that never speak of roots, and an extension
speaks of them even when it binds none. So a document whose only mention of roots is such an
extension is left without roots, and any other document loses nothing.

The argument is that opening the roots (`Draft.opened`) can wait. It commutes with every step of the
second round, so wherever in the document the extension stands, the draft at the end is the one
without it, opened.
-/

set_option autoImplicit false

namespace ResolverContracts

namespace Draft

/-- The draft with roots that count as bound, even if no operation is. -/
def opened (D : Draft) : Draft := { D with roots := some (D.roots.getD .none) }

/-! ## Opening can wait -/

theorem bindRoot_opened (D : Draft) (b : RootBinding) :
    D.opened.bindRoot b = (D.bindRoot b).opened := by
  -- Both sides look at the same roots, and a binding opens them in any case.
  show (if ((D.roots.getD .none).get b.operation).isSome = true then _ else _ : Draft) = _
  rw [bindRoot]
  by_cases h : ((D.roots.getD Roots.none).get b.operation).isSome = true
  · rw [if_pos h, if_pos h]
    rfl
  · rw [if_neg h, if_neg h]
    rfl

theorem foldl_bindRoot_opened (D : Draft) (bs : List RootBinding) :
    bs.foldl bindRoot D.opened = (bs.foldl bindRoot D).opened := by
  induction bs generalizing D with
  | nil => rfl
  | cons b bs ih => rw [List.foldl_cons, List.foldl_cons, bindRoot_opened, ih]

theorem bindRoots_opened (D : Draft) (s : SchemaDefinition) :
    D.opened.bindRoots s = (D.bindRoots s).opened := by
  show s.operations.foldl bindRoot D.opened.opened = (s.operations.foldl bindRoot D.opened).opened
  exact foldl_bindRoot_opened D.opened s.operations

/-- **The step.** Opening the roots before a definition is gone through is opening them after it. -/
theorem apply_opened (D : Draft) (x : Definition) : D.opened.apply x = (D.apply x).opened := by
  cases x with
  | type d => rfl
  | directive d => rfl
  | schemaExtension s => exact bindRoots_opened D s
  | typeExtension e =>
    -- An extension of a type looks at the catalogue only.
    have hsame : D.opened.catalogue = D.catalogue := rfl
    show D.opened.extend e = (D.extend e).opened
    rw [extend, extend, hsame]
    cases D.catalogue.get? e.name.text with
    | none => rfl
    | some target =>
      by_cases hkind : target.shape.kind = e.body.kind
      · simp only [if_pos hkind]
        rfl
      · simp only [if_neg hkind]
        rfl
  | schema s =>
    have hsame : D.opened.schemaAt = D.schemaAt := rfl
    show D.opened.defineSchema s = (D.defineSchema s).opened
    rw [defineSchema, defineSchema, hsame]
    cases D.schemaAt with
    | some first => rfl
    | none => exact bindRoots_opened { D with schemaAt := some s.span } s

theorem foldl_apply_opened (D : Draft) (ds : List Definition) :
    ds.foldl apply D.opened = (ds.foldl apply D).opened := by
  induction ds generalizing D with
  | nil => rfl
  | cons x ds ih => rw [List.foldl_cons, List.foldl_cons, apply_opened, ih]

/-! ## When roots are open

A second schema block is passed over, so it does not open the roots itself. That they are open all the
same is the invariant: where a schema block was seen, roots are open. -/

theorem isSome_roots_bindRoots (D : Draft) (s : SchemaDefinition) :
    (D.bindRoots s).roots.isSome = true := by
  -- Binding begins by opening the roots, so to have them opened before makes no difference.
  have hopened : D.bindRoots s = D.opened.bindRoots s := rfl
  rw [hopened, bindRoots_opened]
  rfl

theorem roots_extend (D : Draft) (e : TypeDefinition) :
    (D.extend e).roots = D.roots ∧ (D.extend e).schemaAt = D.schemaAt := by
  rw [extend]
  cases D.catalogue.get? e.name.text with
  | none => exact ⟨rfl, rfl⟩
  | some target =>
    by_cases hkind : target.shape.kind = e.body.kind
    · simp only [if_pos hkind]
      exact ⟨rfl, rfl⟩
    · simp only [if_neg hkind]
      exact ⟨rfl, rfl⟩

/-- The step: a definition opens the roots when it is about them, and the invariant is kept. -/
theorem isSome_roots_apply {D : Draft} (hD : D.schemaAt.isSome = true → D.roots.isSome = true)
    (x : Definition) :
    (D.apply x).roots.isSome = (D.roots.isSome || x.isAboutRoots) ∧
      ((D.apply x).schemaAt.isSome = true → (D.apply x).roots.isSome = true) := by
  cases x with
  | type d => exact ⟨(Bool.or_false _).symm, hD⟩
  | directive d => exact ⟨(Bool.or_false _).symm, hD⟩
  | typeExtension e =>
    obtain ⟨hroots, hschema⟩ := roots_extend D e
    show (D.extend e).roots.isSome = _ ∧ ((D.extend e).schemaAt.isSome = true →
      (D.extend e).roots.isSome = true)
    rw [hroots, hschema]
    exact ⟨(Bool.or_false _).symm, hD⟩
  -- Any block opens the roots, whatever it binds; the first schema block is no exception.
  | schemaExtension s =>
    have hopen := isSome_roots_bindRoots D s
    exact ⟨hopen.trans (Bool.or_true _).symm, fun _ => hopen⟩
  | schema s =>
    have hopen : (D.defineSchema s).roots.isSome = true := by
      rw [defineSchema]
      cases hat : D.schemaAt with
      | some first => exact hD (by rw [hat]; rfl)
      | none => exact isSome_roots_bindRoots { D with schemaAt := some s.span } s
    exact ⟨hopen.trans (Bool.or_true _).symm, fun _ => hopen⟩

/-- The run: roots are open when they were, or when some definition is about them. -/
theorem isSome_roots_foldl_apply {D : Draft} (hD : D.schemaAt.isSome = true → D.roots.isSome = true)
    (ds : List Definition) :
    (ds.foldl apply D).roots.isSome = (D.roots.isSome || ds.any (·.isAboutRoots)) := by
  induction ds generalizing D with
  | nil => exact (Bool.or_false _).symm
  | cons x ds ih =>
    obtain ⟨hroots, hkept⟩ := isSome_roots_apply hD x
    rw [List.foldl_cons, ih hkept, hroots, List.any_cons, Bool.or_assoc]

/-- The first round does not touch the roots. -/
theorem roots_foldl_enter (ds : List Definition) (D : Draft) :
    (ds.foldl enter D).roots = D.roots ∧ (ds.foldl enter D).schemaAt = D.schemaAt := by
  induction ds generalizing D with
  | nil => exact ⟨rfl, rfl⟩
  | cons x ds ih =>
    have hstep : (D.enter x).roots = D.roots ∧ (D.enter x).schemaAt = D.schemaAt := by
      cases x with
      | type d =>
        show (D.define d).roots = _ ∧ (D.define d).schemaAt = _
        rw [define_eq]
        split
        · exact ⟨rfl, rfl⟩
        · split
          · exact ⟨rfl, rfl⟩
          · exact ⟨rfl, rfl⟩
      | _ => exact ⟨rfl, rfl⟩
    obtain ⟨hroots, hschema⟩ := ih (D.enter x)
    rw [List.foldl_cons, hroots, hschema]
    exact hstep

/-- The draft of any document has open roots exactly when some definition is about roots. -/
theorem isSome_roots_ofDocument (document : Document) :
    (ofDocument document).roots.isSome = document.definitions.any (·.isAboutRoots) := by
  obtain ⟨hroots, hschema⟩ := roots_foldl_enter document.definitions initial
  have hinvariant : (document.definitions.foldl enter initial).schemaAt.isSome = true →
      (document.definitions.foldl enter initial).roots.isSome = true := by
    rw [hschema]
    exact nofun
  rw [ofDocument, isSome_roots_foldl_apply hinvariant, hroots]
  exact Bool.false_or _

/-- A schema extension that binds nothing opens the roots of the draft, and does nothing else. -/
theorem ofDocument_bareExtension (before after : List Definition) {s : SchemaDefinition}
    (span : Span) (h : s.operations = []) :
    ofDocument ⟨before ++ .schemaExtension s :: after, span⟩ =
      (ofDocument ⟨before ++ after, span⟩).opened := by
  have hbare (D : Draft) : D.apply (.schemaExtension s) = D.opened := by
    show s.operations.foldl bindRoot D.opened = D.opened
    rw [h, List.foldl_nil]
  -- The first round passes over it, the second one opens the roots in the middle.
  have henter (D : Draft) : D.enter (.schemaExtension s) = D := rfl
  simp only [ofDocument, List.foldl_append, List.foldl_cons, hbare, henter, foldl_apply_opened]

end Draft

/-! ## The catalogue -/

/-- There are no conventional roots when no object has a conventional name. -/
theorem Catalogue.conventionalRoots_eq_none_iff {c : Catalogue} :
    c.conventionalRoots = .none ↔
      ∀ o : Operation, c.kindOf? o.conventionalName ≠ some .object := by
  have hnone (o : Operation) : Roots.none.get o = none := by cases o <;> rfl
  constructor
  · intro h o hobject
    have hget : c.conventionalRoots.get o = some o.conventionalName :=
      get_conventionalRoots_eq_some_iff.mpr ⟨rfl, hobject⟩
    rw [h, hnone] at hget
    nomatch hget
  · intro h
    apply Roots.ext_get
    intro o
    rw [hnone, Option.eq_none_iff_forall_ne_some]
    intro name hget
    obtain ⟨rfl, hobject⟩ := get_conventionalRoots_eq_some_iff.mp hget
    exact h o hobject

/-- Both documents come down to one draft: without the extension conventional roots stand in where the
draft has none, and with it there are none then. Faults of references are a matter of the types. -/
theorem Document.exists_types_roots_bareExtension (before after : List Definition)
    {s : SchemaDefinition} (span : Span) (h : s.operations = []) :
    ∃ (types : List NamedType) (roots : Option Roots) (faults : List SchemaFault),
      roots.isSome = (before ++ after).any (·.isAboutRoots) ∧
      (Document.mk (before ++ .schemaExtension s :: after) span).lower =
        ⟨⟨types, roots.getD .none⟩, faults⟩ ∧
      (Document.mk (before ++ after) span).lower =
        ⟨⟨types, roots.getD (Catalogue.mk types .none).conventionalRoots⟩, faults⟩ := by
  have hdraft := Draft.ofDocument_bareExtension before after span h
  have hopen := Draft.isSome_roots_ofDocument ⟨before ++ after, span⟩
  generalize hD : Draft.ofDocument ⟨before ++ after, span⟩ = D at hdraft hopen
  refine ⟨D.catalogue.types, D.roots, D.findings.faults ++
    D.findings.references.filterMap (·.fault? ⟨D.catalogue.types, .none⟩), hopen, ?_, ?_⟩
  · rw [Document.lower, hdraft]
    rfl
  · rw [Document.lower, hD]
    rfl

/-- **A schema extension that binds nothing.** Wherever it stands, and whether or not the document is
valid, the types and the faults are those of the document without it. The roots are too if any other
definition is about roots. If none is, the document has no roots, and without the extension it would
have the conventional ones; so the catalogue is the same exactly when these are none either. -/
theorem Document.lower_bareExtension (before after : List Definition) (s : SchemaDefinition)
    (span : Span) (h : s.operations = []) :
    let extended := (Document.mk (before ++ .schemaExtension s :: after) span).lower
    let plain := (Document.mk (before ++ after) span).lower
    extended.catalogue.types = plain.catalogue.types ∧
      extended.faults = plain.faults ∧
      ((before ++ after).any (·.isAboutRoots) = true → extended.catalogue = plain.catalogue) ∧
      ((before ++ after).any (·.isAboutRoots) = false →
        extended.catalogue.roots = .none ∧
          plain.catalogue.roots = plain.catalogue.conventionalRoots) ∧
      (extended.catalogue = plain.catalogue ↔
        (before ++ after).any (·.isAboutRoots) = true ∨
          ∀ o : Operation, plain.catalogue.kindOf? o.conventionalName ≠ some .object) := by
  intro extended plain
  obtain ⟨types, roots, faults, hopen, hextended, hplain⟩ :=
    exists_types_roots_bareExtension before after span h
  have hextended : extended = _ := hextended
  have hplain : plain = _ := hplain
  have hconventional : plain.catalogue.conventionalRoots =
      (Catalogue.mk types .none).conventionalRoots := by
    rw [hplain]
    rfl
  rw [← Catalogue.conventionalRoots_eq_none_iff, hconventional, hextended, hplain, ← hopen]
  cases roots with
  | some roots => exact ⟨rfl, rfl, fun _ => rfl, nofun, iff_of_true rfl (.inl rfl)⟩
  | none =>
    -- Nothing speaks of roots. What the extension takes away is the conventional ones.
    refine ⟨rfl, rfl, nofun, fun _ => ⟨rfl, rfl⟩, ?_⟩
    constructor
    · intro hsame
      exact .inr (congrArg Catalogue.roots hsame).symm
    · rintro (hnot | hnone)
      · nomatch hnot
      · exact congrArg (Catalogue.mk types) hnone.symm

/-- A type with the name of the query root, one field in it. -/
def Definition.queryType : Definition :=
  .type ⟨none, ⟨"Query", default⟩, [],
    .object [] [⟨none, ⟨"a", default⟩, [], .named ⟨"Int", default⟩, [], default⟩], default⟩

/-- A schema extension that only applies a directive. -/
def SchemaDefinition.linking : SchemaDefinition :=
  ⟨none, [⟨⟨"link", default⟩, [⟨⟨"url", default⟩, .string "x" default, default⟩], default⟩], [],
    default⟩

/-- Behind such an extension the query type is an object like any other. In a document with a schema
block it stays the root. -/
theorem Document.lower_bareExtension_linking :
    SchemaDefinition.linking.operations = [] ∧
      (Document.mk [.schemaExtension .linking, .queryType] default).lower.catalogue.roots = .none ∧
      (Document.mk [.queryType] default).lower.catalogue.roots.query = some "Query" ∧
      (Document.mk [.queryType, .schemaExtension .linking,
          .schema ⟨none, [], [⟨.query, ⟨"Query", default⟩, default⟩], default⟩]
        default).lower.catalogue =
      (Document.mk [.queryType,
          .schema ⟨none, [], [⟨.query, ⟨"Query", default⟩, default⟩], default⟩]
        default).lower.catalogue := by
  have h : SchemaDefinition.linking.operations = [] := rfl
  obtain ⟨-, -, -, hlost, -⟩ := lower_bareExtension [] [.queryType] .linking default h
  obtain ⟨-, -, hsame, -, -⟩ := lower_bareExtension [.queryType]
    [.schema ⟨none, [], [⟨.query, ⟨"Query", default⟩, default⟩], default⟩] .linking default h
  exact ⟨h, (hlost rfl).1, by decide, hsame rfl⟩

/-- A schema extension that binds nothing can change the roots: it is not true that the catalogue is
always the one without it. -/
theorem Document.lower_bareExtension_changes_roots :
    ¬ ∀ (before after : List Definition) (s : SchemaDefinition) (span : Span), s.operations = [] →
      (Document.mk (before ++ .schemaExtension s :: after) span).lower.catalogue =
        (Document.mk (before ++ after) span).lower.catalogue := by
  intro h
  have hsame := h [] [.queryType] .linking default rfl
  have hroot : (Document.mk [.schemaExtension .linking, .queryType] default).lower.catalogue.roots ≠
      (Document.mk [.queryType] default).lower.catalogue.roots := by decide
  exact hroot (congrArg Catalogue.roots hsame)

end ResolverContracts
