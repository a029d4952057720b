import ResolverContracts.Document.Parse
import ResolverContracts.Proofs.Document.Answers
import ResolverContracts.Proofs.Schema.Validity
/-!
# Non-null marks

No document that was read from a text has a non-null mark directly on a non-null mark. The reader of a
type takes one exclamation mark behind a name or a bracket and no second one; a second one is left
ahead, and is a fault or the start of something else. So the marks are in order whether or not the
text had faults.

The fact is carried from types to fields, to bodies and to definitions, one reader after the other.
-/

set_option autoImplicit false

namespace ResolverContracts

/-! ## Marks in order -/

namespace TypeNode

/-- Whether the outermost level is marked as non-null. -/
def isNonNull : TypeNode → Bool
  | nonNull _ _ => true
  | _ => false

/-- Nowhere is a non-null mark directly on a non-null mark. -/
def SingleMarks : TypeNode → Prop
  | named _ => True
  | list item _ => item.SingleMarks
  | nonNull item _ => item.isNonNull = false ∧ item.SingleMarks

end TypeNode

/-- The marks of a field and of its arguments are in order. -/
def FieldDefinition.SingleMarks (d : FieldDefinition) : Prop :=
  d.type.SingleMarks ∧ ∀ a ∈ d.arguments, a.type.SingleMarks

/-- The marks of all fields, arguments and input fields are in order. -/
def TypeBody.SingleMarks (b : TypeBody) : Prop :=
  (∀ f ∈ b.fields, f.SingleMarks) ∧ ∀ i ∈ b.inputs, i.type.SingleMarks

/-- The body of a type definition or of an extension. -/
def Definition.body? : Definition → Option TypeBody
  | type d | typeExtension d => some d.body
  | _ => none

/-! ## Readers of types -/

open Reader

/-- What has no mark yet may get one. -/
theorem ensures_closeType {start : Nat} {type : TypeNode} (hmark : type.isNonNull = false)
    (h : type.SingleMarks) : (closeType start type).Ensures (·.SingleMarks) := by
  refine .behind fun closed => .ite (fun _ => ?_) fun _ => .pure h
  exact .behind fun span => .pure ⟨hmark, h⟩

/-- A bracketed type has no mark before it is closed, and neither has a name. -/
theorem ensures_readType : Ensures readType (·.SingleMarks) := by
  intro c
  show (readType c).1.1.SingleMarks
  fun_induction readType c with
  | case1 c start hk hlt ih =>
    refine Ensures.andThen (.behind fun _ => .behind fun span => ?_)
    exact ensures_closeType rfl ih
  | case2 c start hk => exact Ensures.andThen (ensures_closeType rfl trivial)

/-! ## Readers of fields -/

theorem ensures_readInputDefinition : readInputDefinition.Ensures (·.type.SingleMarks) := by
  refine .behind fun description => .behind fun start => .behind fun name => .behind fun _ => ?_
  refine Ensures.bind ensures_readType fun type htype => ?_
  refine .behind fun hasDefault => .ite (fun _ => ?_) fun _ => ?_
  · exact .behind fun default => .behind fun directives => .behind fun span => .pure htype
  · exact .behind fun default => .behind fun directives => .behind fun span => .pure htype

theorem ensures_readFieldDefinition : readFieldDefinition.Ensures (·.SingleMarks) := by
  refine .behind fun description => .behind fun start => .behind fun name => ?_
  refine (ensures_optionalItems ensures_readInputDefinition).bind fun arguments harguments => ?_
  refine .behind fun _ => Ensures.bind ensures_readType fun type htype => ?_
  exact .behind fun directives => .behind fun span => .pure ⟨htype, harguments⟩

/-! ## Readers of definitions -/

/-- The definition of an object or an interface, whose body has the fields as its own. -/
theorem ensures_readFieldedType {description : Option Description} {start : Nat}
    {body : List Name → List FieldDefinition → TypeBody}
    (hbody : ∀ names fields, (∀ f ∈ fields, f.SingleMarks) → (body names fields).SingleMarks) :
    (readFieldedType description start body).Ensures (·.body.SingleMarks) := by
  refine .behind fun name => .behind fun implements => .behind fun directives => ?_
  refine (ensures_optionalItems ensures_readFieldDefinition).bind fun fields hfields => ?_
  exact .behind fun span => .pure (hbody implements fields hfields)

theorem ensures_readPlainType {description : Option Description} {start : Nat}
    {body : Reader TypeBody} (hbody : body.Ensures (·.SingleMarks)) :
    (readPlainType description start body).Ensures (·.body.SingleMarks) := by
  refine .behind fun name => .behind fun directives => hbody.bind fun body hmarks => ?_
  exact .behind fun span => .pure hmarks

theorem ensures_readTypeDefinition (description : Option Description) :
    (readTypeDefinition description).Ensures fun d => ∀ t ∈ d, t.body.SingleMarks := by
  have hsome {r : Reader TypeDefinition} (hr : r.Ensures (·.body.SingleMarks)) :
      (some <$> r).Ensures fun d => ∀ t ∈ d, t.body.SingleMarks := by
    refine .map ?_
    intro c t ht
    obtain rfl : (r.run c).1 = t := Option.some.inj ht
    exact hr c
  refine .behind fun token => ?_
  split
  · refine .behind fun _ => hsome (ensures_readFieldedType fun names fields h => ?_)
    exact ⟨h, List.forall_mem_nil _⟩
  · refine .behind fun _ => hsome (ensures_readFieldedType fun names fields h => ?_)
    exact ⟨h, List.forall_mem_nil _⟩
  · refine .behind fun _ => hsome (ensures_readPlainType (.map fun c => ?_))
    exact ⟨List.forall_mem_nil _, List.forall_mem_nil _⟩
  · refine .behind fun _ => hsome (ensures_readPlainType (.map fun c => ?_))
    exact ⟨List.forall_mem_nil _, List.forall_mem_nil _⟩
  · refine .behind fun _ => hsome (ensures_readPlainType (.map fun c => ?_))
    exact ⟨List.forall_mem_nil _, ensures_optionalItems ensures_readInputDefinition c⟩
  · refine .behind fun _ => hsome (ensures_readPlainType (.pure ?_))
    exact ⟨List.forall_mem_nil _, List.forall_mem_nil _⟩
  · exact .behind fun _ => .pure nofun

/-! ## Readers of definitions at the top -/

/-- The marks of a definition are in order: those of its body, if it has one. -/
def Definition.SingleMarks (x : Definition) : Prop := ∀ b ∈ x.body?, b.SingleMarks

theorem Definition.singleMarks_of_none {x : Definition} (h : x.body? = none) : x.SingleMarks := by
  intro b hb
  rw [h] at hb
  exact nomatch hb

/-- Whatever a type definition is made to be, its body stays. -/
theorem ensures_readTypeDefinition_map (description : Option Description)
    {f : TypeDefinition → Definition} (hf : ∀ d, (f d).body? = some d.body) :
    Ensures (do return (← readTypeDefinition description).map f)
      fun x => ∀ y ∈ x, y.SingleMarks := by
  refine (ensures_readTypeDefinition description).bind fun d hd => .pure ?_
  intro y hy b hb
  obtain ⟨t, ht, rfl⟩ := Option.map_eq_some_iff.mp hy
  rw [hf t] at hb
  obtain rfl : t.body = b := Option.some.inj hb
  exact hd t ht

theorem ensures_readExtension (start : Nat) :
    (readExtension start).Ensures fun x => ∀ y ∈ x, y.SingleMarks := by
  refine .behind fun token => .ite (fun _ => .behind fun d => .pure ?_) fun _ => ?_
  · rintro y ⟨⟩
    exact Definition.singleMarks_of_none rfl
  · exact ensures_readTypeDefinition_map none fun _ => rfl

/-- A definition with a body has it from the reader of type definitions; the others have none. -/
theorem ensures_readDefinition : readDefinition.Ensures fun x => ∀ y ∈ x, y.SingleMarks := by
  have hnobody {y : Definition} (h : y.body? = none) : ∀ z ∈ some y, z.SingleMarks := by
    rintro z ⟨⟩
    exact Definition.singleMarks_of_none h
  refine .behind fun description => .behind fun token => ?_
  have htype := ensures_readTypeDefinition_map description (f := .type) fun _ => rfl
  have hexecutable : Ensures (do
      report .executable
      (skipTo .braceOpen : Reader Unit)
      (skipBlock 0 : Reader Unit)
      return none) fun x : Option Definition => ∀ y ∈ x, y.SingleMarks :=
    .behind fun _ => .behind fun _ => .behind fun _ => .pure nofun
  -- The cases are the words a definition can start with, in the order of the reader.
  split
  · exact .behind fun d => .pure (hnobody rfl)
  · exact htype
  · exact htype
  · exact htype
  · exact htype
  · exact htype
  · exact htype
  · exact .behind fun d => .pure (hnobody rfl)
  · refine .ite (fun _ => ?_) fun _ => ?_
    · exact .behind fun _ => .behind fun _ => ensures_readExtension _
    · exact .behind fun _ => ensures_readExtension _
  · exact hexecutable
  · exact hexecutable
  · exact hexecutable
  · exact hexecutable
  · exact hexecutable
  · exact .behind fun _ => .pure nofun

/-! ## Documents -/

/-- A body belongs to a definition. -/
theorem Definitions.exists_of_mem_bodies {ds : List Definition} {b : TypeBody}
    (h : b ∈ bodies ds) : ∃ x ∈ ds, x.body? = some b := by
  obtain ⟨d, hd, rfl⟩ := List.mem_map.mp h
  rcases List.mem_append.mp hd with hd | hd
  · obtain ⟨x, hx, hxd⟩ := List.mem_filterMap.mp hd
    obtain rfl := Definition.eq_of_typeDefinition? hxd
    exact ⟨_, hx, rfl⟩
  · obtain ⟨x, hx, hxd⟩ := List.mem_filterMap.mp hd
    obtain rfl := Definition.eq_of_typeExtension? hxd
    exact ⟨_, hx, rfl⟩

/-- **Marks of a document.** Whatever the text, its document has no mark directly on a mark. -/
theorem Document.singleMarks_parse (text : String) :
    ∀ b ∈ Definitions.bodies (parse text).document.definitions, b.SingleMarks := by
  intro b hb
  obtain ⟨x, hx, hxb⟩ := Definitions.exists_of_mem_bodies hb
  obtain ⟨y, hy, hyx⟩ := List.mem_filterMap.mp hx
  exact ensures_itemsUntil ensures_readDefinition _ y hy x hyx b hxb

end ResolverContracts
