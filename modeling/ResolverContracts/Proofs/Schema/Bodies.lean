import Mathlib.Data.List.Induction
import ResolverContracts.Document.Names
import ResolverContracts.Proofs.Schema.Freshness
/-!
# A type from its bodies

A type is written in pieces: the body of its definition and the bodies of its extensions. This file
says what the pieces add up to, without a word about the order in which they are merged:
`TypeShape.ofBodies` puts the members of all bodies one behind the other, and
`TypeBody.JointlyDistinct` says that no name occurs twice in the result.

The three facts at the end tie this to merging. A body merged into the sum of the bodies before it
brings no fault to light exactly when the names stay distinct and the body is well formed by itself;
the result is then the sum of one body more, and the references are those the body writes.
-/

set_option autoImplicit false

namespace ResolverContracts

@[simp] theorem Findings.faults_append (a b : Findings) : (a ++ b).faults = a.faults ++ b.faults :=
  rfl

/-! ## What a body writes -/

namespace TypeBody

/-- The fields of an object or an interface. -/
def fields : TypeBody → List FieldDefinition
  | object _ fields | interface _ fields => fields
  | _ => []

/-- The fields of an input object. -/
def inputs : TypeBody → List InputDefinition
  | inputObject fields => fields
  | _ => []

/-- The values of an enum. -/
def values : TypeBody → List EnumValueDefinition
  | enum values => values
  | _ => []

/-- The members of a union. -/
def members : TypeBody → List Name
  | union members => members
  | _ => []

/-- The types that a body refers to, each with the place it is referred to from. -/
def references (b : TypeBody) : List Reference :=
  (b.fields.flatMap fun d =>
      ⟨d.type.leaf, .output⟩ :: d.arguments.map fun a => ⟨a.type.leaf, .input⟩) ++
    b.implementsNames.map (⟨·, .implements⟩) ++
    b.members.map (⟨·, .unionMember⟩) ++
    b.inputs.map fun d => ⟨d.type.leaf, .input⟩

/-- What a body has to satisfy by itself. No field, argument or input field has a name kept for
introspection, and the arguments of a field have different names. The interfaces of an interface are
not kept in the catalogue, so only those of one body are compared with each other. -/
structure WellFormed (b : TypeBody) : Prop where
  field_names : ∀ d ∈ b.fields, isReservedName d.name.text = false
  argument_names : ∀ d ∈ b.fields, ∀ a ∈ d.arguments, isReservedName a.name.text = false
  arguments_distinct : ∀ d ∈ b.fields, (d.arguments.map (·.name.text)).Nodup
  input_names : ∀ d ∈ b.inputs, isReservedName d.name.text = false
  interfaces_distinct : b.kind = .interface → (b.implementsNames.map (·.text)).Nodup

/-- What the bodies of one type have to satisfy together: members of one sort have different names. -/
structure JointlyDistinct (kind : Kind) (bodies : List TypeBody) : Prop where
  fields : ((bodies.flatMap (·.fields)).map (·.name.text)).Nodup
  inputs : ((bodies.flatMap (·.inputs)).map (·.name.text)).Nodup
  values : ((bodies.flatMap (·.values)).map (·.name.text)).Nodup
  members : ((bodies.flatMap (·.members)).map (·.text)).Nodup
  interfaces : kind = .object → ((bodies.flatMap (·.implementsNames)).map (·.text)).Nodup

end TypeBody

/-! ## The sum of bodies -/

/-- An argument or input field as it is written. -/
def InputDefinition.written (d : InputDefinition) : InputValue := ⟨d.name.text, d.type.toRef⟩

/-- A field as it is written, with all its arguments. -/
def FieldDefinition.written (d : FieldDefinition) : Field :=
  ⟨d.name.text, d.type.toRef, d.arguments.map (·.written)⟩

/-- The type of a kind that has the members of all bodies, in order. -/
def TypeShape.ofBodies (kind : Kind) (bodies : List TypeBody) : TypeShape :=
  match kind with
  | .scalar => .scalar
  | .object =>
    .object ⟨(bodies.flatMap (·.fields)).map (·.written),
      (bodies.flatMap (·.implementsNames)).map (·.text)⟩
  | .interface => .interface ((bodies.flatMap (·.fields)).map (·.written))
  | .union => .union ((bodies.flatMap (·.members)).map (·.text))
  | .enum => .enum ((bodies.flatMap (·.values)).map (·.name.text))
  | .inputObject => .inputObject ((bodies.flatMap (·.inputs)).map (·.written))

@[simp] theorem TypeShape.kind_ofBodies (kind : Kind) (bodies : List TypeBody) :
    (TypeShape.ofBodies kind bodies).kind = kind := by
  cases kind <;> rfl

/-- The sum of no bodies is the type with nothing in it. -/
theorem TypeShape.ofBodies_nil (kind : Kind) : TypeShape.ofBodies kind [] = .empty kind := by
  cases kind <;> rfl

/-! ## One body more -/

section Append

variable {kind : Kind} {bodies : List TypeBody} {b : TypeBody}

/-- No bodies, no names. -/
theorem TypeBody.jointlyDistinct_nil : TypeBody.JointlyDistinct kind [] :=
  ⟨.nil, .nil, .nil, .nil, fun _ => .nil⟩

/-- Distinctness of one body more, one sort of members after the other. -/
theorem TypeBody.jointlyDistinct_append_iff :
    TypeBody.JointlyDistinct kind (bodies ++ [b]) ↔
      TypeBody.JointlyDistinct kind bodies ∧
      Fresh (·.name) ((bodies.flatMap (·.fields)).map (·.name.text)) b.fields ∧
      Fresh (·.name) ((bodies.flatMap (·.inputs)).map (·.name.text)) b.inputs ∧
      Fresh (·.name) ((bodies.flatMap (·.values)).map (·.name.text)) b.values ∧
      Fresh id ((bodies.flatMap (·.members)).map (·.text)) b.members ∧
      (kind = .object →
        Fresh id ((bodies.flatMap (·.implementsNames)).map (·.text)) b.implementsNames) := by
  -- The one argument there is; below it is used for each sort of members.
  have hsplit {α : Type} (parts : TypeBody → List α) (key : α → Name) :
      (((bodies ++ [b]).flatMap parts).map fun x => (key x).text).Nodup ↔
        ((bodies.flatMap parts).map fun x => (key x).text).Nodup ∧
          Fresh key ((bodies.flatMap parts).map fun x => (key x).text) (parts b) := by
    rw [List.flatMap_append, List.flatMap_singleton, List.map_append]
    exact nodup_append_iff_fresh
  have hf := hsplit (·.fields) (·.name)
  have hi := hsplit (·.inputs) (·.name)
  have hv := hsplit (·.values) (·.name)
  have hm := hsplit (·.members) id
  have hn := hsplit (·.implementsNames) id
  constructor
  · rintro ⟨h1, h2, h3, h4, h5⟩
    exact ⟨⟨(hf.mp h1).1, (hi.mp h2).1, (hv.mp h3).1, (hm.mp h4).1, fun h => (hn.mp (h5 h)).1⟩,
      (hf.mp h1).2, (hi.mp h2).2, (hv.mp h3).2, (hm.mp h4).2, fun h => (hn.mp (h5 h)).2⟩
  · rintro ⟨⟨h1, h2, h3, h4, h5⟩, f1, f2, f3, f4, f5⟩
    exact ⟨hf.mpr ⟨h1, f1⟩, hi.mpr ⟨h2, f2⟩, hv.mpr ⟨h3, f3⟩, hm.mpr ⟨h4, f4⟩,
      fun h => hn.mpr ⟨h5 h, f5 h⟩⟩

/-- The first bodies are distinct among each other. -/
theorem TypeBody.JointlyDistinct.of_append (bodies others : List TypeBody)
    (h : TypeBody.JointlyDistinct kind (bodies ++ others)) :
    TypeBody.JointlyDistinct kind bodies := by
  induction others using List.reverseRecOn with
  | nil => rwa [List.append_nil] at h
  | append_singleton others b ih =>
    rw [← List.append_assoc] at h
    exact ih (jointlyDistinct_append_iff.mp h).1

/-- Bodies of scalars have no members at all. -/
theorem TypeBody.jointlyDistinct_of_scalar (h : ∀ b ∈ bodies, b = .scalar) :
    TypeBody.JointlyDistinct kind bodies := by
  have hnone {α : Type} (parts : TypeBody → List α) (hp : parts .scalar = []) :
      bodies.flatMap parts = [] := by
    rw [List.flatMap_eq_nil_iff]
    intro b hb
    rw [h b hb, hp]
  refine ⟨?_, ?_, ?_, ?_, fun _ => ?_⟩ <;> rw [hnone _ rfl] <;> exact .nil

/-- A body without members is well formed. -/
theorem TypeBody.wellFormed_scalar : TypeBody.scalar.WellFormed :=
  ⟨List.forall_mem_nil _, List.forall_mem_nil _, List.forall_mem_nil _, List.forall_mem_nil _, nofun⟩

end Append

/-! ## Merging one body more -/

section Merge

variable {bodies : List TypeBody} {b : TypeBody} {owner : String}

/-- A body is well formed by itself when its fields, its input fields and its interfaces are. The
parts are in the words of the findings. -/
theorem TypeBody.wellFormed_iff :
    b.WellFormed ↔
      (∀ d ∈ b.fields, isReservedName d.name.text = false ∧ InputsFree [] d.arguments) ∧
      (∀ d ∈ b.inputs, isReservedName d.name.text = false) ∧
      (b.kind = .interface → Fresh id [] b.implementsNames) := by
  constructor
  · rintro ⟨hf, ha, hd, hi, hn⟩
    refine ⟨fun d hmem => ⟨hf d hmem, ha d hmem, fresh_nil_iff.mpr (hd d hmem)⟩, hi, ?_⟩
    exact fun hk => fresh_nil_iff.mpr (hn hk)
  · rintro ⟨hf, hi, hn⟩
    exact ⟨fun d hmem => (hf d hmem).1, fun d hmem => (hf d hmem).2.1,
      fun d hmem => fresh_nil_iff.mp (hf d hmem).2.2, hi, fun hk => fresh_nil_iff.mp (hn hk)⟩

/-- Fields are free among written ones when their names are fresh and each is sound by itself. -/
theorem fieldsFree_written_iff {present defs : List FieldDefinition} :
    FieldsFree (present.map (·.written)) defs ↔
      (∀ d ∈ defs, isReservedName d.name.text = false ∧ InputsFree [] d.arguments) ∧
        Fresh (·.name) (present.map (·.name.text)) defs := by
  rw [FieldsFree, List.map_map]
  rfl

/-- Input fields are free among written ones when their names are fresh and none is reserved. -/
theorem inputsFree_written_iff {present defs : List InputDefinition} :
    InputsFree (present.map (·.written)) defs ↔
      (∀ d ∈ defs, isReservedName d.name.text = false) ∧
        Fresh (·.name) (present.map (·.name.text)) defs := by
  rw [InputsFree, List.map_map]
  rfl

/-- **No fault.** Merged into the sum of the bodies before it, a body brings no fault to light exactly
when all names stay distinct and the body is well formed by itself. The cases are the kinds; in each
of them the sorts of members that the kind lacks are empty, and freshness of nothing is true. -/
theorem TypeShape.findings_ofBodies_faults_eq_nil_iff
    (hd : TypeBody.JointlyDistinct b.kind bodies) :
    ((TypeShape.ofBodies b.kind bodies).findings owner b).faults = [] ↔
      TypeBody.JointlyDistinct b.kind (bodies ++ [b]) ∧ b.WellFormed := by
  have hnone {α : Type} (key : α → Name) (taken : List String) : Fresh key taken [] :=
    ⟨.nil, by simp⟩
  rw [TypeBody.jointlyDistinct_append_iff, TypeBody.wellFormed_iff]
  -- A body has members of one or two sorts. About the others there is nothing to show on either side.
  cases b with
  | scalar =>
    refine iff_of_true rfl ⟨⟨hd, ?_⟩, ?_, ?_, nofun⟩
    · exact ⟨hnone _ _, hnone _ _, hnone _ _, hnone _ _, nofun⟩
    · exact List.forall_mem_nil _
    · exact List.forall_mem_nil _
  | object implements fields =>
    show (fieldFindings owner _ fields ++ nameFindings _ _ owner _ implements).faults = [] ↔ _
    rw [Findings.faults_append, List.append_eq_nil_iff, fieldFindings_faults_eq_nil_iff,
      fieldsFree_written_iff, nameFindings_faults_eq_nil_iff]
    constructor
    · rintro ⟨⟨hw, hf⟩, hn⟩
      exact ⟨⟨hd, hf, hnone _ _, hnone _ _, hnone _ _, fun _ => hn⟩, hw,
        List.forall_mem_nil _, nofun⟩
    · rintro ⟨⟨-, hf, -, -, -, hn⟩, hw, -, -⟩
      exact ⟨⟨hw, hf⟩, hn rfl⟩
  | interface implements fields =>
    show (fieldFindings owner _ fields ++ nameFindings _ _ owner [] implements).faults = [] ↔ _
    rw [Findings.faults_append, List.append_eq_nil_iff, fieldFindings_faults_eq_nil_iff,
      fieldsFree_written_iff, nameFindings_faults_eq_nil_iff]
    constructor
    · rintro ⟨⟨hw, hf⟩, hn⟩
      exact ⟨⟨hd, hf, hnone _ _, hnone _ _, hnone _ _, nofun⟩, hw,
        List.forall_mem_nil _, fun _ => hn⟩
    · rintro ⟨⟨-, hf, -, -, -, -⟩, hw, -, hn⟩
      exact ⟨⟨hw, hf⟩, hn rfl⟩
  | union members =>
    show (nameFindings _ _ owner _ members).faults = [] ↔ _
    rw [nameFindings_faults_eq_nil_iff]
    constructor
    · intro hm
      exact ⟨⟨hd, hnone _ _, hnone _ _, hnone _ _, hm, nofun⟩,
        List.forall_mem_nil _,
        List.forall_mem_nil _, nofun⟩
    · rintro ⟨⟨-, -, -, -, hm, -⟩, -⟩
      exact hm
  | enum values =>
    show takenFaults _ owner (·.name) _ values = [] ↔ _
    rw [takenFaults_eq_nil_iff]
    constructor
    · intro hv
      exact ⟨⟨hd, hnone _ _, hnone _ _, hv, hnone _ _, nofun⟩,
        List.forall_mem_nil _,
        List.forall_mem_nil _, nofun⟩
    · rintro ⟨⟨-, -, -, hv, -, -⟩, -⟩
      exact hv
  | inputObject fields =>
    show (inputFindings _ owner _ fields).faults = [] ↔ _
    rw [inputFindings_faults_eq_nil_iff, inputsFree_written_iff]
    constructor
    · rintro ⟨hw, hf⟩
      exact ⟨⟨hd, hnone _ _, hf, hnone _ _, hnone _ _, nofun⟩,
        List.forall_mem_nil _, hw, nofun⟩
    · rintro ⟨⟨-, -, hf, -, -, -⟩, -, hw, -⟩
      exact ⟨hw, hf⟩

/-- **The sum.** Where no fault comes to light, a body merged into the sum of the bodies before it
gives the sum of one body more. -/
theorem TypeShape.merge_ofBodies (hd : TypeBody.JointlyDistinct b.kind (bodies ++ [b]))
    (hw : b.WellFormed) :
    (TypeShape.ofBodies b.kind bodies).merge b = TypeShape.ofBodies b.kind (bodies ++ [b]) := by
  obtain ⟨-, hf, hi, hv, hm, hn⟩ := TypeBody.jointlyDistinct_append_iff.mp hd
  have hsnoc {α : Type} (parts : TypeBody → List α) :
      (bodies ++ [b]).flatMap parts = bodies.flatMap parts ++ parts b := by
    rw [List.flatMap_append, List.flatMap_singleton]
  -- One equation for each sort of members; a kind then needs those of its own sorts.
  have hfields : (bodies.flatMap (·.fields)).map (·.written) ++
      addedFields ((bodies.flatMap (·.fields)).map (·.written)) b.fields =
        ((bodies ++ [b]).flatMap (·.fields)).map (·.written) := by
    rw [hsnoc, List.map_append, addedFields_of_free
      (fieldsFree_written_iff.mpr ⟨(TypeBody.wellFormed_iff.mp hw).1, hf⟩)]
    rfl
  have hinputs : (bodies.flatMap (·.inputs)).map (·.written) ++
      addedInputs ((bodies.flatMap (·.inputs)).map (·.written)) b.inputs =
        ((bodies ++ [b]).flatMap (·.inputs)).map (·.written) := by
    rw [hsnoc, List.map_append, addedInputs_of_fresh
      (inputsFree_written_iff.mpr ⟨hw.input_names, hi⟩).2]
    rfl
  have hvalues : (bodies.flatMap (·.values)).map (·.name.text) ++
      addedNames ((bodies.flatMap (·.values)).map (·.name.text)) (b.values.map (·.name)) =
        ((bodies ++ [b]).flatMap (·.values)).map (·.name.text) := by
    rw [hsnoc, List.map_append, addedNames_of_fresh (fresh_map_iff.mpr hv), List.map_map]
    rfl
  have hmembers : (bodies.flatMap (·.members)).map (·.text) ++
      addedNames ((bodies.flatMap (·.members)).map (·.text)) b.members =
        ((bodies ++ [b]).flatMap (·.members)).map (·.text) := by
    rw [hsnoc, List.map_append, addedNames_of_fresh hm]
  cases b with
  | scalar => rfl
  | object implements fields =>
    have hinterfaces : (bodies.flatMap (·.implementsNames)).map (·.text) ++
        addedNames ((bodies.flatMap (·.implementsNames)).map (·.text)) implements =
          ((bodies ++ [TypeBody.object implements fields]).flatMap (·.implementsNames)).map (·.text) := by
      rw [hsnoc, List.map_append]
      exact congrArg (_ ++ ·) (addedNames_of_fresh (hn rfl))
    exact congrArg TypeShape.object (congrArg₂ ObjectType.mk hfields hinterfaces)
  | interface implements fields => exact congrArg TypeShape.interface hfields
  | union members => exact congrArg TypeShape.union hmembers
  | enum values => exact congrArg TypeShape.enum hvalues
  | inputObject fields => exact congrArg TypeShape.inputObject hinputs

/-- The references that come to light with such a body are those it writes. -/
theorem TypeShape.references_findings_ofBodies
    (hd : TypeBody.JointlyDistinct b.kind (bodies ++ [b])) (hw : b.WellFormed) :
    ((TypeShape.ofBodies b.kind bodies).findings owner b).references = b.references := by
  obtain ⟨-, hf, hi, -, hm, hn⟩ := TypeBody.jointlyDistinct_append_iff.mp hd
  obtain ⟨hfree, -, hself⟩ := TypeBody.wellFormed_iff.mp hw
  have hfields := fieldFindings_references_of_free owner
    (fieldsFree_written_iff.mpr ⟨hfree, hf⟩)
  have hinputs := inputFindings_references_of_fresh .field owner
    (inputsFree_written_iff.mpr ⟨hw.input_names, hi⟩).2
  -- The findings leave out what is taken already, and here nothing is.
  cases b with
  | scalar => rfl
  | object implements fields =>
    show (fieldFindings owner _ (TypeBody.object implements fields).fields).references ++
      (nameFindings _ _ owner _ implements).references = _ ++ _ ++ [] ++ []
    rw [List.append_nil, List.append_nil]
    exact congrArg₂ (· ++ ·) hfields (nameFindings_references_of_fresh _ _ owner (hn rfl))
  | interface implements fields =>
    show (fieldFindings owner _ (TypeBody.interface implements fields).fields).references ++
      (nameFindings _ _ owner _ implements).references = _ ++ _ ++ [] ++ []
    rw [List.append_nil, List.append_nil]
    exact congrArg₂ (· ++ ·) hfields (nameFindings_references_of_fresh _ _ owner (hself rfl))
  | union members =>
    show (nameFindings _ _ owner _ members).references = [] ++ [] ++ _ ++ []
    rw [List.append_nil]
    exact nameFindings_references_of_fresh _ _ owner hm
  | enum values => rfl
  | inputObject fields => exact hinputs

/-! ## The first body -/

theorem TypeShape.findings_empty_faults_eq_nil_iff (owner : String) (b : TypeBody) :
    ((TypeShape.empty b.kind).findings owner b).faults = [] ↔
      TypeBody.JointlyDistinct b.kind [b] ∧ b.WellFormed := by
  rw [← ofBodies_nil]
  exact findings_ofBodies_faults_eq_nil_iff TypeBody.jointlyDistinct_nil

theorem TypeShape.merge_empty (hd : TypeBody.JointlyDistinct b.kind [b]) (hw : b.WellFormed) :
    (TypeShape.empty b.kind).merge b = TypeShape.ofBodies b.kind [b] := by
  rw [← ofBodies_nil]
  exact merge_ofBodies hd hw

/-- What comes to light with a first body that has no fault. -/
theorem TypeShape.findings_empty (owner : String) (hd : TypeBody.JointlyDistinct b.kind [b])
    (hw : b.WellFormed) : (TypeShape.empty b.kind).findings owner b = ⟨[], b.references⟩ := by
  have hfaults := (findings_empty_faults_eq_nil_iff owner b).mpr ⟨hd, hw⟩
  have hreferences : ((TypeShape.empty b.kind).findings owner b).references = b.references := by
    rw [← ofBodies_nil]
    exact references_findings_ofBodies hd hw
  rw [← hfaults, ← hreferences]

end Merge

end ResolverContracts
