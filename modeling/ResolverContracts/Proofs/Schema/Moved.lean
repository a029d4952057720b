import Mathlib.Data.List.Basic
import Mathlib.Data.List.Flatten
import ResolverContracts.Proofs.Document.Moved
import ResolverContracts.Schema.Load
/-!
# Schemas at other places

What a document means does not depend on where it stands: its catalogue has no places in it, and its
faults only carry them. So lowering a moved document gives the same catalogue and the faults moved
(`Document.lower_move`), and a text that is read alike elsewhere is accepted or refused alike
(`Parsed.load_move`).

The way there is that of the lowering itself: marked members, then types, then the rounds.
-/

set_option autoImplicit false

namespace ResolverContracts

variable (m : Nat → Nat)

/-! ## Faults and findings -/

/-- A fault of a schema at another place: the names in it move, and what is said of them stays. -/
def SchemaFault.move : SchemaFault → SchemaFault
  | reserved name => .reserved (name.move m)
  | redefined name => .redefined (name.move m)
  | noTarget name => .noTarget (name.move m)
  | otherTarget name extendedAs found => .otherTarget (name.move m) extendedAs found
  | repeated sort owner name => .repeated sort owner (name.move m)
  | secondSchema second first => .secondSchema (second.move m) (first.move m)
  | rootRebound operation span => .rootRebound operation (span.move m)
  | unknown name => .unknown (name.move m)
  | misplaced site name found => .misplaced site (name.move m) found

/-- The words for a fault are made of the texts of names, and the labels stand where the names do. -/
theorem SchemaFault.toDiagnostic_move (f : SchemaFault) :
    (f.move m).toDiagnostic = f.toDiagnostic.move m := by
  cases f with
  | misplaced site name found => cases site <;> rfl
  | _ => rfl

/-- All comparisons of names are comparisons of their texts. This is why nothing below depends on
places. -/
@[simp] theorem Name.text_move (name : Name) : (name.move m).text = name.text := rfl

/-- A reference from another place. -/
def Reference.move (r : Reference) : Reference := ⟨r.name.move m, r.site⟩

/-- What was found, at another place. -/
def Findings.move (found : Findings) : Findings :=
  ⟨found.faults.map (·.move m), found.references.map (·.move m)⟩

/-- Nothing found is nothing found anywhere. -/
@[simp] theorem Findings.move_none : Findings.none.move m = .none := rfl

/-- Findings are collected part by part, and so they move. -/
@[simp] theorem Findings.move_append (a b : Findings) : (a ++ b).move m = a.move m ++ b.move m :=
  congrArg₂ Findings.mk List.map_append List.map_append

/-- A schema with its faults at other places. The catalogue has no places. -/
def Lowered.move (l : Lowered) : Lowered := ⟨l.catalogue, l.faults.map (·.move m)⟩

/-- What is said of a schema that stands somewhere else. -/
theorem Lowered.diagnostics_move (l : Lowered) : (l.move m).diagnostics = l.diagnostics.move m := by
  simp only [diagnostics, move, Diagnostics.move, List.map_map]
  exact congrArg Diagnostics.mk (List.map_congr_left fun f _ => f.toDiagnostic_move m)

/-- The diagnostics of a refusal at other places. -/
def SchemaError.move (e : SchemaError) : SchemaError := ⟨e.diagnostics.move m⟩

/-- A place does not make a finding better or worse. -/
@[simp] theorem Diagnostics.hasErrors_move (ds : Diagnostics) :
    (ds.move m).hasErrors = ds.hasErrors := by
  simp [hasErrors, move, Function.comp_def, Diagnostic.move]

/-! ## Taken names -/

section Marked

variable {α : Type} (key : α → Name) (g : α → α)

/-- Which names are taken depends on the texts of the names. -/
theorem markTaken_map (hkey : ∀ x, key (g x) = (key x).move m) (taken : List String)
    (xs : List α) :
    markTaken key taken (xs.map g) = (markTaken key taken xs).map (Prod.map g id) := by
  induction xs generalizing taken with
  | nil => rfl
  | cons x xs ih =>
    simp only [List.map_cons, markTaken, ih, hkey, Name.move]
    rfl

/-- The items that are added are the same ones, moved. -/
theorem untaken_map (hkey : ∀ x, key (g x) = (key x).move m) (taken : List String) (xs : List α) :
    untaken key taken (xs.map g) = (untaken key taken xs).map g := by
  rw [untaken, markTaken_map m key g hkey, List.filterMap_map, untaken, List.map_filterMap]
  refine List.filterMap_congr fun x _ => ?_
  obtain ⟨x, _ | _⟩ := x <;> rfl

/-- So are the items that are faults, and each fault is at the name of its item. -/
theorem takenFaults_map (hkey : ∀ x, key (g x) = (key x).move m) (sort : MemberSort)
    (owner : String) (taken : List String) (xs : List α) :
    takenFaults sort owner key taken (xs.map g) =
      (takenFaults sort owner key taken xs).map (·.move m) := by
  rw [takenFaults, markTaken_map m key g hkey, List.filterMap_map, takenFaults, List.map_filterMap]
  refine List.filterMap_congr fun x _ => ?_
  obtain ⟨x, _ | _⟩ := x
  · rfl
  · exact congrArg (fun name => some (SchemaFault.repeated sort owner name)) (hkey x)

/-- Faults found at marked items move with the items. -/
theorem flatMap_markTaken_map (hkey : ∀ x, key (g x) = (key x).move m) (taken : List String)
    (xs : List α) {f : α × Bool → List SchemaFault}
    (hf : ∀ x, f (Prod.map g id x) = (f x).map (·.move m)) :
    (markTaken key taken (xs.map g)).flatMap f =
      ((markTaken key taken xs).flatMap f).map (·.move m) := by
  rw [markTaken_map m key g hkey, List.flatMap_map, List.map_flatMap]
  exact List.flatMap_congr fun x _ => hf x

end Marked

/-- Whether a name is kept for introspection shows in its text. -/
theorem reservedFaults_move (name : Name) :
    reservedFaults (name.move m) = (reservedFaults name).map (·.move m) := by
  by_cases h : isReservedName name.text = true <;>
    simp [reservedFaults, Name.move, h, SchemaFault.move]

/-! ## Members -/

/-- What the catalogue keeps of a type is its levels and its name. -/
@[simp] theorem TypeNode.toRef_move (t : TypeNode) : (t.move m).toRef = t.toRef := by
  induction t with
  | named name => rfl
  | list item span ih | nonNull item span ih => simp [move, toRef, ih]

/-- The name that a type comes down to moves with the type. -/
@[simp] theorem TypeNode.leaf_move (t : TypeNode) : (t.move m).leaf = t.leaf.move m := by
  induction t with
  | named name => rfl
  | list item span ih | nonNull item span ih => exact ih

/-- The catalogue gets the same arguments or input fields. -/
theorem addedInputs_move (present : List InputValue) (defs : List InputDefinition) :
    addedInputs present (defs.map (·.move m)) = addedInputs present defs := by
  rw [addedInputs, untaken_map m _ (InputDefinition.move m) fun _ => rfl, List.map_map, addedInputs]
  exact List.map_congr_left fun d _ => by simp [InputDefinition.move, Name.move]

/-- What is found among them: names that are reserved or repeated, and references of their types. -/
theorem inputFindings_move (sort : MemberSort) (owner : String) (present : List InputValue)
    (defs : List InputDefinition) :
    inputFindings sort owner present (defs.map (·.move m)) =
      (inputFindings sort owner present defs).move m := by
  refine congrArg₂ Findings.mk ?_ ?_
  · refine flatMap_markTaken_map m _ (InputDefinition.move m) (fun _ => rfl) _ _ fun x => ?_
    obtain ⟨d, _ | _⟩ := x <;>
      simp [InputDefinition.move, reservedFaults_move, SchemaFault.move]
  · simp only [inputFindings,
      untaken_map m InputDefinition.name (InputDefinition.move m) (fun _ => rfl), List.map_map]
    exact List.map_congr_left fun d _ => by simp [InputDefinition.move, Reference.move]

/-- The catalogue gets the same field. -/
@[simp] theorem FieldDefinition.toField_move (d : FieldDefinition) :
    (d.move m).toField = d.toField := by
  simp [toField, move, addedInputs_move, Name.move]

/-- The catalogue gets the same fields. -/
theorem addedFields_move (present : List Field) (defs : List FieldDefinition) :
    addedFields present (defs.map (·.move m)) = addedFields present defs := by
  rw [addedFields, untaken_map m _ (FieldDefinition.move m) fun _ => rfl, List.map_map, addedFields]
  exact List.map_congr_left fun d _ => by simp

/-- What is found among fields. Faults of the arguments are found for every field, references only for
the fields that are added. -/
theorem fieldFindings_move (owner : String) (present : List Field) (defs : List FieldDefinition) :
    fieldFindings owner present (defs.map (·.move m)) =
      (fieldFindings owner present defs).move m := by
  refine congrArg₂ Findings.mk ?_ ?_
  · refine flatMap_markTaken_map m _ (FieldDefinition.move m) (fun _ => rfl) _ _ fun x => ?_
    obtain ⟨d, _ | _⟩ := x <;>
      simp [FieldDefinition.move, reservedFaults_move, SchemaFault.move, inputFindings_move,
        Findings.move]
  · simp only [fieldFindings,
      untaken_map m FieldDefinition.name (FieldDefinition.move m) (fun _ => rfl),
      List.flatMap_map, List.map_flatMap]
    exact List.flatMap_congr fun d _ => by
      simp [FieldDefinition.move, Reference.move, inputFindings_move, Findings.move]

/-- The catalogue gets the same members, values or interfaces. -/
theorem addedNames_move (present : List String) (names : List Name) :
    addedNames present (names.map (·.move m)) = addedNames present names := by
  rw [addedNames, untaken_map m id (Name.move m) fun _ => rfl, List.map_map, addedNames]
  exact List.map_congr_left fun _ _ => rfl

/-- What is found among names: repeated ones, and references of the others. -/
theorem nameFindings_move (sort : MemberSort) (site : Site) (owner : String)
    (present : List String) (names : List Name) :
    nameFindings sort site owner present (names.map (·.move m)) =
      (nameFindings sort site owner present names).move m := by
  refine congrArg₂ Findings.mk (takenFaults_map m id _ (fun _ => rfl) ..) ?_
  rw [untaken_map m id (Name.move m) (fun _ => rfl), List.map_map, nameFindings, List.map_map]
  rfl

/-! ## Types -/

/-- The kind of a type is not a matter of places. -/
@[simp] theorem TypeBody.kind_move (b : TypeBody) : (b.move m).kind = b.kind := by cases b <;> rfl

/-- A type takes up the same members from a body that stands somewhere else. -/
@[simp] theorem TypeShape.merge_move (s : TypeShape) (b : TypeBody) :
    s.merge (b.move m) = s.merge b := by
  have hvalues (values : List EnumValueDefinition) :
      (values.map (·.move m)).map (·.name) = (values.map (·.name)).map (Name.move m) := by
    rw [List.map_map, List.map_map]
    rfl
  cases s <;> cases b <;>
    simp only [merge, TypeBody.move, addedFields_move, addedNames_move, addedInputs_move, hvalues]

/-- What is found when a body is taken up, by the kinds of the type and of the body. If they differ,
nothing is. -/
theorem TypeShape.findings_move (owner : String) (s : TypeShape) (b : TypeBody) :
    s.findings owner (b.move m) = (s.findings owner b).move m := by
  have hvalues (present : List String) (values : List EnumValueDefinition) :
      Findings.mk (takenFaults .value owner (·.name) present (values.map (·.move m))) [] =
        (Findings.mk (takenFaults .value owner (·.name) present values) []).move m :=
    congrArg (Findings.mk · [])
      (takenFaults_map m EnumValueDefinition.name (EnumValueDefinition.move m) (fun _ => rfl) ..)
  cases s <;> cases b <;>
    simp only [findings, TypeBody.move, fieldFindings_move, nameFindings_move, inputFindings_move,
      Findings.move_append, Findings.move_none, hvalues]

/-! ## Rounds -/

/-- A draft of a schema from a document that stands somewhere else. The first schema block is kept with
its place, for the fault of a second one. -/
def Draft.move (d : Draft) : Draft :=
  ⟨d.catalogue, d.findings.move m, d.roots, d.schemaAt.map (·.move m)⟩

namespace Draft

theorem catalogue_move (d : Draft) : (d.move m).catalogue = d.catalogue := rfl

/-- Findings are written down behind the others. -/
theorem note_move (d : Draft) (found : Findings) :
    (d.move m).note (found.move m) = (d.note found).move m := by
  simp [note, move]

/-- One fault is a finding as well. -/
theorem fault_move (d : Draft) (f : SchemaFault) :
    (d.move m).fault (f.move m) = (d.fault f).move m :=
  note_move m d ⟨[f], []⟩

/-- A type is entered or refused by its name, whose text stays. -/
theorem define_move (d : Draft) (definition : TypeDefinition) :
    (d.move m).define (definition.move m) = (d.define definition).move m := by
  have hnote : (d.move m).note ⟨reservedFaults (definition.name.move m), []⟩ =
      (d.note ⟨reservedFaults definition.name, []⟩).move m := by
    rw [reservedFaults_move]
    exact note_move m d ⟨_, []⟩
  simp only [define, TypeDefinition.move, hnote, TypeBody.kind_move, Name.text_move,
    TypeShape.merge_move, TypeShape.findings_move]
  generalize d.note _ = d
  split
  · rfl
  · rw [catalogue_move]
    cases d.catalogue.insert? _ with
    | none => exact fault_move m d (.redefined definition.name)
    | some catalogue => exact note_move m { d with catalogue } _

/-- Whether there is a type to extend, and of which kind, is asked of the catalogue. -/
theorem extend_move (d : Draft) (definition : TypeDefinition) :
    (d.move m).extend (definition.move m) = (d.extend definition).move m := by
  simp only [extend, TypeDefinition.move, TypeBody.kind_move, Name.text_move,
    TypeShape.merge_move, TypeShape.findings_move]
  rw [catalogue_move]
  cases d.catalogue.get? definition.name.text with
  | none => exact fault_move m d (.noTarget definition.name)
  | some target =>
    by_cases hkind : target.shape.kind = definition.body.kind
    · simp only [hkind, if_true]
      exact note_move m { d with catalogue := _ } _
    · simp only [hkind, if_false]
      exact fault_move m d (.otherTarget definition.name _ _)

/-- An operation is bound or refused by what is bound already. -/
theorem bindRoot_move (d : Draft) (binding : RootBinding) :
    (d.move m).bindRoot (binding.move m) = (d.bindRoot binding).move m := by
  have hroots : (d.move m).roots = d.roots := rfl
  have hoperation : (binding.move m).operation = binding.operation := rfl
  simp only [bindRoot, hroots, hoperation]
  split
  · exact fault_move m d (.rootRebound binding.operation binding.span)
  · exact note_move m
      { d with roots := some ((d.roots.getD .none).set binding.operation binding.type.text) }
      ⟨[], [⟨binding.type, .root⟩]⟩

/-- Operations are bound one after the other. -/
theorem bindRoots_move (d : Draft) (definition : SchemaDefinition) :
    (d.move m).bindRoots (definition.move m) = (d.bindRoots definition).move m := by
  simp only [bindRoots, SchemaDefinition.move, List.foldl_map]
  exact (List.foldl_hom (move m) fun d b => bindRoot_move m d b :
    definition.operations.foldl (fun d b => d.bindRoot (b.move m))
      (Draft.move m { d with roots := some (d.roots.getD .none) }) = _)

/-- A second schema block is refused with both places. -/
theorem defineSchema_move (d : Draft) (definition : SchemaDefinition) :
    (d.move m).defineSchema (definition.move m) = (d.defineSchema definition).move m := by
  obtain ⟨catalogue, findings, roots, schemaAt⟩ := d
  cases schemaAt with
  | none => exact bindRoots_move m ⟨catalogue, findings, roots, some definition.span⟩ definition
  | some first => exact fault_move m _ (.secondSchema definition.span first)

/-- In the first round only types matter. -/
theorem enter_move (d : Draft) (definition : Definition) :
    (d.move m).enter (definition.move m) = (d.enter definition).move m := by
  cases definition with
  | type definition => exact d.define_move m definition
  | _ => rfl

/-- In the second round it is extensions and schema blocks. -/
theorem apply_move (d : Draft) (definition : Definition) :
    (d.move m).apply (definition.move m) = (d.apply definition).move m := by
  cases definition with
  | typeExtension definition => exact d.extend_move m definition
  | schema definition => exact d.defineSchema_move m definition
  | schemaExtension definition => exact d.bindRoots_move m definition
  | _ => rfl

/-- Both rounds go through the definitions in order, and moving them moves each step. -/
theorem ofDocument_move (document : Document) :
    ofDocument (document.move m) = (ofDocument document).move m := by
  have henter : document.definitions.foldl (fun d x => d.enter (x.move m)) (initial.move m) =
      (document.definitions.foldl enter initial).move m :=
    List.foldl_hom (move m) fun d x => enter_move m d x
  simp only [ofDocument, Document.move, List.foldl_map]
  -- The draft that the rounds start from has no places in it.
  change document.definitions.foldl (fun d x => d.apply (x.move m))
    (document.definitions.foldl (fun d x => d.enter (x.move m)) (initial.move m)) = _
  rw [henter]
  exact List.foldl_hom (move m) fun d x => apply_move m d x

end Draft

/-- Whether a reference is right is asked of the catalogue, by the text of the name. -/
theorem Reference.fault?_move (r : Reference) (c : Catalogue) :
    (r.move m).fault? c = (r.fault? c).map (·.move m) := by
  simp only [fault?, move, Name.text_move]
  cases c.kindOf? r.name.text with
  | none => rfl
  | some kind => by_cases h : r.site.allows kind = true <;> simp [h, SchemaFault.move]

/-- **A document means the same everywhere.** -/
theorem Document.lower_move (document : Document) :
    (document.move m).lower = document.lower.move m := by
  simp only [lower, Draft.ofDocument_move, Lowered.move]
  refine congrArg₂ Lowered.mk rfl ?_
  simp only [Draft.move, Findings.move, List.map_append, List.filterMap_map, List.map_filterMap]
  refine congrArg₂ (· ++ ·) rfl (List.filterMap_congr fun r _ => ?_)
  exact r.fault?_move m _

/-! ## Loading -/

/-- The catalogue of what was read. -/
def Parsed.load (p : Parsed) : Except SchemaError Catalogue :=
  if p.diagnostics.hasErrors then .error ⟨p.diagnostics⟩
  else if p.document.lower.diagnostics.hasErrors then .error ⟨p.document.lower.diagnostics⟩
  else .ok p.document.lower.catalogue

/-- A text is loaded by what is read of it. -/
theorem Catalogue.load_eq (text : String) : load text = (Document.parse text).load := rfl

/-- **A schema is one everywhere.** -/
theorem Parsed.load_move (p : Parsed) : (p.move m).load = p.load.mapError (·.move m) := by
  have hdocument : (p.move m).document = p.document.move m := rfl
  simp only [load, hdocument, p.diagnostics_move, Document.lower_move, Lowered.diagnostics_move,
    Diagnostics.hasErrors_move]
  split
  · rfl
  split <;> rfl

end ResolverContracts
