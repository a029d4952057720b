import ResolverContracts.Schema.Merge
/-!
# From document to catalogue

A document is lowered in three rounds, so that the order of its definitions decides only the order
of the catalogue. The first round enters the types defined. The second one adds the extensions and
binds the roots. The third one looks every reference up that the first two came across.

The result is a catalogue for every document, together with the faults; it describes a schema only
where there are none.
-/

set_option autoImplicit false

namespace ResolverContracts

/-- A catalogue in the making. -/
structure Draft where
  catalogue : Catalogue
  findings : Findings
  /-- The roots bound so far, from the first schema block or schema extension on. -/
  roots : Option Roots
  /-- The place of the schema block. -/
  schemaAt : Option Span

namespace Draft

/-- Before the first definition. -/
def initial : Draft := ⟨.initial, .none, none, none⟩

/-- Adds to the findings. -/
def note (d : Draft) (found : Findings) : Draft := { d with findings := d.findings ++ found }

/-- Adds a fault. -/
def fault (d : Draft) (f : SchemaFault) : Draft := d.note ⟨[f], []⟩

/-! ## First round -/

/-- Enters a type. A built-in scalar may be declared again, which has no effect. -/
def define (d : Draft) (definition : TypeDefinition) : Draft :=
  let name := definition.name
  let d := d.note ⟨reservedFaults name, []⟩
  if definition.body.kind == .scalar && isBuiltinScalar name.text then d
  else
    let start := TypeShape.empty definition.body.kind
    match d.catalogue.insert? ⟨name.text, start.merge definition.body⟩ with
    | none => d.fault (.redefined name)
    | some catalogue =>
      { d with catalogue }.note (start.findings name.text definition.body)

/-- The first round at one definition. -/
def enter (d : Draft) : Definition → Draft
  | .type definition => d.define definition
  | _ => d

/-! ## Second round -/

/-- Adds an extension to its type. -/
def extend (d : Draft) (definition : TypeDefinition) : Draft :=
  let name := definition.name
  match d.catalogue.get? name.text with
  | none => d.fault (.noTarget name)
  | some target =>
    if target.shape.kind = definition.body.kind then
      let catalogue := d.catalogue.reshape name.text (target.shape.merge definition.body)
      { d with catalogue }.note (target.shape.findings target.name definition.body)
    else d.fault (.otherTarget name definition.body.kind target.shape.kind)

/-- Binds an operation, unless it is bound already. -/
def bindRoot (d : Draft) (binding : RootBinding) : Draft :=
  let roots := d.roots.getD .none
  if (roots.get binding.operation).isSome then d.fault (.rootRebound binding.operation binding.span)
  else
    { d with roots := some (roots.set binding.operation binding.type.text) }.note
      ⟨[], [⟨binding.type, .root⟩]⟩

/-- Binds the operations of a schema block or a schema extension. Even one that binds none says that
the roots are bound, and not conventional. -/
def bindRoots (d : Draft) (definition : SchemaDefinition) : Draft :=
  definition.operations.foldl bindRoot { d with roots := some (d.roots.getD .none) }

/-- Enters the schema block. Of several the first one counts. -/
def defineSchema (d : Draft) (definition : SchemaDefinition) : Draft :=
  match d.schemaAt with
  | some first => d.fault (.secondSchema definition.span first)
  | none => { d with schemaAt := some definition.span }.bindRoots definition

/-- The second round at one definition. -/
def apply (d : Draft) : Definition → Draft
  | .typeExtension definition => d.extend definition
  | .schema definition => d.defineSchema definition
  | .schemaExtension definition => d.bindRoots definition
  | .type _ | .directive _ => d

/-- The draft after the first two rounds. -/
def ofDocument (document : Document) : Draft :=
  let entered := document.definitions.foldl enter initial
  document.definitions.foldl apply entered

end Draft

/-! ## Third round -/

/-- The conventional roots, as far as there are objects of their names. -/
def Catalogue.conventionalRoots (c : Catalogue) : Roots :=
  let root (operation : Operation) : Option String :=
    let name := operation.conventionalName
    if c.kindOf? name = some .object then some name else none
  ⟨root .query, root .mutation, root .subscription⟩

/-- What is wrong with a reference, seen from the whole catalogue. -/
def Reference.fault? (r : Reference) (c : Catalogue) : Option SchemaFault :=
  match c.kindOf? r.name.text with
  | none => some (.unknown r.name)
  | some kind => if r.site.allows kind then none else some (.misplaced r.site r.name kind)

/-- The catalogue of a document, and the faults of the document as a schema. -/
structure Lowered where
  catalogue : Catalogue
  faults : List SchemaFault

/-- Lowers a document. -/
def Document.lower (document : Document) : Lowered :=
  let draft := Draft.ofDocument document
  let roots := draft.roots.getD draft.catalogue.conventionalRoots
  let catalogue := { draft.catalogue with roots }
  ⟨catalogue,
    draft.findings.faults ++ draft.findings.references.filterMap (·.fault? catalogue)⟩

/-- The faults as diagnostics. -/
def Lowered.diagnostics (l : Lowered) : Diagnostics := ⟨l.faults.map (·.toDiagnostic)⟩

end ResolverContracts
