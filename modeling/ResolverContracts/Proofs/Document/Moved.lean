import ResolverContracts.Document.Parse
import ResolverContracts.Proofs.Document.Unplaced
/-!
# Documents at other places

`x.move m` is `x` with every place in it taken to another one by `m`: a shift when more text comes in
front, or any other change of the places. Nothing but places changes, so a move that leaves them
where they are changes nothing at all (`Definition.move_id`), and without its places a document is the
same before and after every move (`Document.unplaced_move`).

A fault and its diagnostic move alike (`Fault.toDiagnostic_move`).
-/

set_option autoImplicit false

namespace ResolverContracts

variable (m : Nat → Nat)

/-! ## Spans, tokens and findings -/

/-- Both ends of a span move. -/
def Span.move (s : Span) : Span := ⟨m s.start, m s.stop⟩

/-- A token somewhere else: what it is and how it is written stay. -/
def Token.move (t : Token) : Token := ⟨t.kind, t.text, t.span.move m⟩

/-- A reader decides by the kinds of tokens, so it does the same at other places. -/
@[simp] theorem Token.kind_move (t : Token) : (t.move m).kind = t.kind := rfl

/-- What is kept of a token besides its place is its text. -/
@[simp] theorem Token.text_move (t : Token) : (t.move m).text = t.text := rfl

/-- A fault at another place is the same fault. -/
def Fault.move (f : Fault) : Fault := ⟨f.cause, f.found, f.span.move m⟩

/-- A label points somewhere else and says the same. -/
def Label.move (l : Label) : Label := ⟨l.span.move m, l.text⟩

/-- The places of a diagnostic are those of its labels. -/
def Diagnostic.move (d : Diagnostic) : Diagnostic := { d with labels := d.labels.map (·.move m) }

/-- Diagnostics keep their order. -/
def Diagnostics.move (ds : Diagnostics) : Diagnostics := ⟨ds.items.map (·.move m)⟩

/-- The tokens of a text that stands somewhere else. -/
def Lexed.move (l : Lexed) : Lexed := ⟨l.tokens.map (·.move m), m l.stop⟩

/-! ## Parts of documents -/

/-- A name somewhere else. -/
def Name.move (n : Name) : Name := ⟨n.text, n.span.move m⟩

/-- A description somewhere else. -/
def Description.move (d : Description) : Description := ⟨d.text, d.span.move m⟩

mutual

/-- A constant somewhere else, with everything in it. -/
def Value.move : Value → Value
  | .int n span => .int n (span.move m)
  | .float literal span => .float literal (span.move m)
  | .string contents span => .string contents (span.move m)
  | .bool b span => .bool b (span.move m)
  | .null span => .null (span.move m)
  | .enum name => .enum (name.move m)
  | .list items span => .list (Value.moveItems items) (span.move m)
  | .object fields span => .object (Value.moveFields fields) (span.move m)

/-- The constants of a list. -/
def Value.moveItems : List Value → List Value
  | [] => []
  | v :: vs => v.move :: Value.moveItems vs

/-- The fields of an object constant. -/
def Value.moveFields : List (Name × Value) → List (Name × Value)
  | [] => []
  | (name, v) :: fs => (name.move m, v.move) :: Value.moveFields fs

end

/-- A field of an object constant at another place. -/
def Value.moveField (f : Name × Value) : Name × Value := (f.1.move m, f.2.move m)

/-- The recursion over the items is a map. It is spelled out in `Value.move` only so that it is seen to
end. -/
@[simp] theorem Value.moveItems_eq (vs : List Value) :
    Value.moveItems m vs = vs.map (Value.move m) := by
  induction vs with
  | nil => rfl
  | cons v vs ih => rw [Value.moveItems, ih, List.map_cons]

/-- So is the recursion over the fields. -/
@[simp] theorem Value.moveFields_eq (fs : List (Name × Value)) :
    Value.moveFields m fs = fs.map (Value.moveField m) := by
  induction fs with
  | nil => rfl
  | cons f fs ih =>
    obtain ⟨name, v⟩ := f
    rw [Value.moveFields, ih, List.map_cons, Value.moveField]

/-- An argument somewhere else. -/
def Argument.move (a : Argument) : Argument := ⟨a.name.move m, a.value.move m, a.span.move m⟩

/-- The use of a directive somewhere else. -/
def Directive.move (d : Directive) : Directive :=
  ⟨d.name.move m, d.arguments.map (·.move m), d.span.move m⟩

/-- A type somewhere else. A name has no place besides its own. -/
def TypeNode.move : TypeNode → TypeNode
  | named name => .named (name.move m)
  | list item span => .list item.move (span.move m)
  | nonNull item span => .nonNull item.move (span.move m)

/-- An argument or input field that is defined somewhere else. -/
def InputDefinition.move (d : InputDefinition) : InputDefinition where
  description := d.description.map (·.move m)
  name := d.name.move m
  type := d.type.move m
  default := d.default.map (·.move m)
  directives := d.directives.map (·.move m)
  span := d.span.move m

/-- A field that is defined somewhere else. -/
def FieldDefinition.move (d : FieldDefinition) : FieldDefinition where
  description := d.description.map (·.move m)
  name := d.name.move m
  arguments := d.arguments.map (·.move m)
  type := d.type.move m
  directives := d.directives.map (·.move m)
  span := d.span.move m

/-- An enum value that is defined somewhere else. -/
def EnumValueDefinition.move (d : EnumValueDefinition) : EnumValueDefinition where
  description := d.description.map (·.move m)
  name := d.name.move m
  directives := d.directives.map (·.move m)
  span := d.span.move m

/-- What a type is made of, somewhere else. -/
def TypeBody.move : TypeBody → TypeBody
  | scalar => .scalar
  | object implements fields => .object (implements.map (·.move m)) (fields.map (·.move m))
  | interface implements fields => .interface (implements.map (·.move m)) (fields.map (·.move m))
  | union members => .union (members.map (·.move m))
  | enum values => .enum (values.map (·.move m))
  | inputObject fields => .inputObject (fields.map (·.move m))

/-- A type that is defined somewhere else. -/
def TypeDefinition.move (d : TypeDefinition) : TypeDefinition where
  description := d.description.map (·.move m)
  name := d.name.move m
  directives := d.directives.map (·.move m)
  body := d.body.move m
  span := d.span.move m

/-- An operation that is bound somewhere else. -/
def RootBinding.move (b : RootBinding) : RootBinding := ⟨b.operation, b.type.move m, b.span.move m⟩

/-- A schema block somewhere else. -/
def SchemaDefinition.move (d : SchemaDefinition) : SchemaDefinition where
  description := d.description.map (·.move m)
  directives := d.directives.map (·.move m)
  operations := d.operations.map (·.move m)
  span := d.span.move m

/-- A directive that is defined somewhere else. Its locations are words without places. -/
def DirectiveDefinition.move (d : DirectiveDefinition) : DirectiveDefinition where
  description := d.description.map (·.move m)
  name := d.name.move m
  arguments := d.arguments.map (·.move m)
  repeatable := d.repeatable
  locations := d.locations
  span := d.span.move m

/-- A definition somewhere else. -/
def Definition.move : Definition → Definition
  | schema d => .schema (d.move m)
  | schemaExtension d => .schemaExtension (d.move m)
  | type d => .type (d.move m)
  | typeExtension d => .typeExtension (d.move m)
  | directive d => .directive (d.move m)

/-- A document somewhere else. -/
def Document.move (d : Document) : Document := ⟨d.definitions.map (·.move m), d.span.move m⟩

/-- What was read of a text that stands somewhere else. -/
def Parsed.move (p : Parsed) : Parsed := ⟨p.document.move m, p.faults.map (·.move m)⟩

/-! ## Faults in words -/

/-- The words for a fault do not depend on its place: they are made of the cause and of the token found,
and the place is where the label stands. -/
theorem Fault.toDiagnostic_move (f : Fault) : (f.move m).toDiagnostic = f.toDiagnostic.move m := by
  obtain ⟨cause, found, span⟩ := f
  cases cause <;> by_cases h : found = .endOfText <;> simp [toDiagnostic, move, h] <;> rfl

/-- What is said of a text that stands somewhere else is what is said of the text, there. -/
theorem Parsed.diagnostics_move (p : Parsed) : (p.move m).diagnostics = p.diagnostics.move m := by
  simp only [diagnostics, move, Diagnostics.move, List.map_map]
  exact congrArg Diagnostics.mk (List.map_congr_left fun f _ => f.toDiagnostic_move m)

/-! ## Constants -/

/-- Induction over constants: lists and objects hold theirs as lists of parts. -/
theorem Value.induction_on {P : Value → Prop} (v : Value)
    (hscalar : ∀ v, (∀ items span, v ≠ .list items span) → (∀ fields span, v ≠ .object fields span) →
      P v)
    (hlist : ∀ items span, (∀ v ∈ items, P v) → P (.list items span))
    (hobject : ∀ fields span, (∀ f ∈ fields, P f.2) → P (.object fields span)) : P v := by
  cases v with
  | list items span => exact hlist items span fun v hv => induction_on v hscalar hlist hobject
  | object fields span => exact hobject fields span fun f hf => induction_on f.2 hscalar hlist hobject
  | _ => exact hscalar _ nofun nofun
termination_by sizeOf v
decreasing_by
  · have := List.sizeOf_lt_of_mem hv
    simp only [Value.list.sizeOf_spec]
    omega
  · have := List.sizeOf_lt_of_mem hf
    have : sizeOf f = 1 + sizeOf f.1 + sizeOf f.2 := rfl
    simp only [Value.object.sizeOf_spec]
    omega

/-! ## Places that stay -/

/-- Everything else below is made of spans, so it comes down to this. -/
@[simp] theorem Span.move_id (s : Span) : s.move id = s := rfl

@[simp] theorem Name.move_id (n : Name) : n.move id = n := rfl

@[simp] theorem Description.move_id (d : Description) : d.move id = d := rfl

/-- For a constant, by induction: its parts keep their places, so their lists do. -/
@[simp] theorem Value.move_id (v : Value) : v.move id = v := by
  induction v using Value.induction_on with
  | hscalar v hlist hobject =>
    cases v with
    | list items span => exact absurd rfl (hlist items span)
    | object fields span => exact absurd rfl (hobject fields span)
    | enum name => simp [Value.move]
    | _ => rfl
  | hlist items span ih =>
    have hitems : items.map (Value.move id) = items :=
      (List.map_congr_left (g := id) ih).trans (List.map_id items)
    simp [Value.move, hitems]
  | hobject fields span ih =>
    have hfields : fields.map (Value.moveField id) = fields :=
      (List.map_congr_left (g := id) fun f hf => Prod.ext f.1.move_id (ih f hf)).trans
        (List.map_id fields)
    simp [Value.move, hfields]

/-- An argument has the places of its name and its value, and its own. -/
@[simp] theorem Argument.move_id (a : Argument) : a.move id = a := by simp [move]

/-- A directive has the places of its arguments as well, which are in a list. -/
@[simp] theorem Directive.move_id (d : Directive) : d.move id = d := by simp [move]

/-- For a type, level by level. -/
@[simp] theorem TypeNode.move_id (t : TypeNode) : t.move id = t := by
  induction t with
  | named name => simp [move]
  | list item span ih | nonNull item span ih => simp [move, ih]

/-- The default is the one part that may be missing besides the description. -/
@[simp] theorem InputDefinition.move_id (d : InputDefinition) : d.move id = d := by simp [move]

/-- A field has places in its arguments, its type and its directives. -/
@[simp] theorem FieldDefinition.move_id (d : FieldDefinition) : d.move id = d := by simp [move]

@[simp] theorem EnumValueDefinition.move_id (d : EnumValueDefinition) : d.move id = d := by
  simp [move]

/-- For each kind of type, all lists in it are as they were. -/
@[simp] theorem TypeBody.move_id (b : TypeBody) : b.move id = b := by cases b <;> simp [move]

@[simp] theorem TypeDefinition.move_id (d : TypeDefinition) : d.move id = d := by simp [move]

@[simp] theorem RootBinding.move_id (b : RootBinding) : b.move id = b := by simp [move]

@[simp] theorem SchemaDefinition.move_id (d : SchemaDefinition) : d.move id = d := by simp [move]

@[simp] theorem DirectiveDefinition.move_id (d : DirectiveDefinition) : d.move id = d := by
  simp [move]

/-- A definition that is moved by nothing is the same definition, whatever it defines. -/
@[simp] theorem Definition.move_id (d : Definition) : d.move id = d := by cases d <;> simp [move]

/-! ## Places that do not matter -/

@[simp] theorem Name.unplaced_move (n : Name) : (n.move m).unplaced = n.unplaced := rfl

@[simp] theorem Description.unplaced_move (d : Description) : (d.move m).unplaced = d.unplaced := rfl

/-- For a constant, by induction: without their places, its parts are the same before and after. -/
@[simp] theorem Value.unplaced_move (v : Value) : (v.move m).unplaced = v.unplaced := by
  induction v using Value.induction_on with
  | hscalar v hlist hobject =>
    cases v with
    | list items span => exact absurd rfl (hlist items span)
    | object fields span => exact absurd rfl (hobject fields span)
    | enum name => simp [Value.move, Value.unplaced]
    | _ => rfl
  | hlist items span ih =>
    have hitems : (items.map (Value.move m)).map Value.unplaced = items.map Value.unplaced := by
      rw [List.map_map]
      exact List.map_congr_left ih
    simp only [Value.move, Value.unplaced, Value.moveItems_eq, Value.unplacedItems_eq, hitems]
  | hobject fields span ih =>
    have hfields : (fields.map (Value.moveField m)).map Value.unplacedField =
        fields.map Value.unplacedField := by
      rw [List.map_map]
      exact List.map_congr_left fun f hf => Prod.ext (f.1.unplaced_move m) (ih f hf)
    simp only [Value.move, Value.unplaced, Value.moveFields_eq, Value.unplacedFields_eq, hfields]

/-- An argument keeps its name and its value. -/
@[simp] theorem Argument.unplaced_move (a : Argument) : (a.move m).unplaced = a.unplaced := by
  simp [move, unplaced]

/-- A directive keeps its arguments, in their order. -/
@[simp] theorem Directive.unplaced_move (d : Directive) : (d.move m).unplaced = d.unplaced := by
  simp [move, unplaced]

/-- For a type, level by level. -/
@[simp] theorem TypeNode.unplaced_move (t : TypeNode) : (t.move m).unplaced = t.unplaced := by
  induction t with
  | named name => simp [move, unplaced]
  | list item span ih | nonNull item span ih => simp [move, unplaced, ih]

/-- An input field keeps its default, if it has one. -/
@[simp] theorem InputDefinition.unplaced_move (d : InputDefinition) :
    (d.move m).unplaced = d.unplaced := by
  simp [move, unplaced, Function.comp_def]

/-- A field keeps its arguments, its type and its directives. -/
@[simp] theorem FieldDefinition.unplaced_move (d : FieldDefinition) :
    (d.move m).unplaced = d.unplaced := by
  simp [move, unplaced, Function.comp_def]

@[simp] theorem EnumValueDefinition.unplaced_move (d : EnumValueDefinition) :
    (d.move m).unplaced = d.unplaced := by
  simp [move, unplaced, Function.comp_def]

/-- For each kind of type: the places in it are those of its members. -/
@[simp] theorem TypeBody.unplaced_move (b : TypeBody) : (b.move m).unplaced = b.unplaced := by
  cases b <;> simp [move, unplaced]

/-- A type keeps its name, its directives and its body. -/
@[simp] theorem TypeDefinition.unplaced_move (d : TypeDefinition) :
    (d.move m).unplaced = d.unplaced := by
  simp [move, unplaced, Function.comp_def]

@[simp] theorem RootBinding.unplaced_move (b : RootBinding) : (b.move m).unplaced = b.unplaced := by
  simp [move, unplaced]

/-- A schema block keeps the operations that it binds. -/
@[simp] theorem SchemaDefinition.unplaced_move (d : SchemaDefinition) :
    (d.move m).unplaced = d.unplaced := by
  simp [move, unplaced, Function.comp_def]

/-- The locations of a directive have no places, so they stay as they are even with the places. -/
@[simp] theorem DirectiveDefinition.unplaced_move (d : DirectiveDefinition) :
    (d.move m).unplaced = d.unplaced := by
  simp [move, unplaced, Function.comp_def]

/-- A definition says the same at every place. -/
@[simp] theorem Definition.unplaced_move (d : Definition) : (d.move m).unplaced = d.unplaced := by
  cases d <;> simp [move, unplaced]

/-- **Places do not matter.** A document says the same wherever it stands. -/
@[simp] theorem Document.unplaced_move (d : Document) : (d.move m).unplaced = d.unplaced := by
  simp [move, unplaced]

end ResolverContracts
