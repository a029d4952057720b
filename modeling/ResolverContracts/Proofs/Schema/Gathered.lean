import ResolverContracts.Proofs.Schema.Bodies
import ResolverContracts.Proofs.Schema.Taken
/-!
# A type from any bodies

What bodies add up to when names repeat in them. `TypeShape.ofBodies` has all members of its bodies and is
right only where no name comes twice; `TypeShape.gathered` keeps of each name the first member, and
`TypeBody.repetitions` has a fault for each of the others.

Lowering adds one body at a time. `TypeShape.merge_gathered` and `TypeShape.repetitions_append_subset` say
what one body more adds to the members and to the faults. They hold of every body that has the kind of the
type, and nothing else about merging is needed to follow lowering through a document with faults.
-/

set_option autoImplicit false

namespace ResolverContracts

/-! ## What bodies gather -/

/-- The type of a kind that has the members of all bodies, of each name the first one. -/
def TypeShape.gathered (kind : Kind) (bodies : List TypeBody) : TypeShape :=
  match kind with
  | .scalar => .scalar
  | .object =>
    .object ⟨addedFields [] (bodies.flatMap (·.fields)),
      addedNames [] (bodies.flatMap (·.implementsNames))⟩
  | .interface => .interface (addedFields [] (bodies.flatMap (·.fields)))
  | .union => .union (addedNames [] (bodies.flatMap (·.members)))
  | .enum => .enum (addedNames [] ((bodies.flatMap (·.values)).map (·.name)))
  | .inputObject => .inputObject (addedInputs [] (bodies.flatMap (·.inputs)))

@[simp] theorem TypeShape.kind_gathered (kind : Kind) (bodies : List TypeBody) :
    (TypeShape.gathered kind bodies).kind = kind := by
  cases kind <;> rfl

/-- No bodies gather nothing. -/
theorem TypeShape.gathered_nil (kind : Kind) : TypeShape.gathered kind [] = .empty kind := by
  cases kind <;> rfl

/-- A fault for each field whose name is taken, and for each argument that comes again in a field that
is kept. -/
def fieldRepetitions (owner : String) (taken : List String) (defs : List FieldDefinition) :
    List SchemaFault :=
  takenFaults .field owner (·.name) taken defs ++
    (untaken (·.name) taken defs).flatMap fun d => takenFaults .argument owner (·.name) [] d.arguments

/-- The faults of the members of all bodies that are not the first of their names. The interfaces of an
interface are not kept, so that they are not compared over several bodies. -/
def TypeBody.repetitions (owner : String) (kind : Kind) (bodies : List TypeBody) : List SchemaFault :=
  match kind with
  | .scalar => []
  | .object =>
    fieldRepetitions owner [] (bodies.flatMap (·.fields)) ++
      takenFaults .interface owner id [] (bodies.flatMap (·.implementsNames))
  | .interface => fieldRepetitions owner [] (bodies.flatMap (·.fields))
  | .union => takenFaults .member owner id [] (bodies.flatMap (·.members))
  | .enum => takenFaults .value owner (·.name) [] (bodies.flatMap (·.values))
  | .inputObject => takenFaults .field owner (·.name) [] (bodies.flatMap (·.inputs))

/-! ## One body more -/

section Members

variable {owner : String}

theorem map_name_addedFields (defs : List FieldDefinition) :
    (addedFields [] defs).map (·.name) = (untaken (·.name) [] defs).map (·.name.text) := by
  rw [addedFields, List.map_map]
  rfl

theorem map_name_addedInputs (defs : List InputDefinition) :
    (addedInputs [] defs).map (·.name) = (untaken (·.name) [] defs).map (·.name.text) := by
  rw [addedInputs, List.map_map]
  rfl

/-- Fields of a later body are added to those of the earlier ones. This is what makes an extension the
same as one long body. -/
theorem addedFields_append (xs ys : List FieldDefinition) :
    addedFields [] (xs ++ ys) = addedFields [] xs ++ addedFields (addedFields [] xs) ys := by
  rw [addedFields, List.map_nil, untaken_append, List.map_append, List.nil_append,
    ← map_name_addedFields]
  rfl

theorem addedInputs_append (xs ys : List InputDefinition) :
    addedInputs [] (xs ++ ys) = addedInputs [] xs ++ addedInputs (addedInputs [] xs) ys := by
  rw [addedInputs, List.map_nil, untaken_append, List.map_append, List.nil_append,
    ← map_name_addedInputs]
  rfl

theorem addedNames_append (xs ys : List Name) :
    addedNames [] (xs ++ ys) = addedNames [] xs ++ addedNames (addedNames [] xs) ys := by
  rw [addedNames, untaken_append, List.map_append, List.nil_append]
  rfl

/-- A repetition in the second part is found there, once the names of the first are known. -/
theorem fieldRepetitions_append (xs ys : List FieldDefinition) :
    fieldRepetitions owner [] (xs ++ ys) ⊆ fieldRepetitions owner [] xs ++
      fieldRepetitions owner ((addedFields [] xs).map (·.name)) ys := by
  rw [map_name_addedFields, fieldRepetitions, fieldRepetitions, fieldRepetitions, takenFaults_append,
    untaken_append, List.flatMap_append, List.nil_append]
  intro fault h
  simp only [List.mem_append] at h ⊢
  tauto

theorem takenFaults_subset_inputFindings (sort : MemberSort) (present : List InputValue)
    (defs : List InputDefinition) :
    takenFaults sort owner (·.name) (present.map (·.name)) defs ⊆
      (inputFindings sort owner present defs).faults := by
  intro fault h
  obtain ⟨⟨d, mark⟩, hm, hfault⟩ := List.mem_filterMap.mp h
  refine List.mem_flatMap.mpr ⟨(d, mark), hm, List.mem_append_right _ ?_⟩
  cases mark with
  | false => cases hfault
  | true => exact List.mem_singleton.mpr (Option.some.inj hfault).symm

/-- What is noted about fields has the repetitions, those of the fields and those of the arguments. -/
theorem fieldRepetitions_subset_fieldFindings (present : List Field) (defs : List FieldDefinition) :
    fieldRepetitions owner (present.map (·.name)) defs ⊆
      (fieldFindings owner present defs).faults := by
  intro fault h
  rcases List.mem_append.mp h with h | h
  · obtain ⟨⟨d, mark⟩, hm, hfault⟩ := List.mem_filterMap.mp h
    refine List.mem_flatMap.mpr ⟨(d, mark), hm, List.mem_append_right _ ?_⟩
    cases mark with
    | false => cases hfault
    | true => exact List.mem_singleton.mpr (Option.some.inj hfault).symm
  · obtain ⟨d, hd, hfault⟩ := List.mem_flatMap.mp h
    obtain ⟨⟨d', mark⟩, hm, hd⟩ := List.mem_filterMap.mp hd
    refine List.mem_flatMap.mpr ⟨(d', mark), hm, List.mem_append_right _ ?_⟩
    cases mark with
    | true => cases hd
    | false =>
      obtain rfl := Option.some.inj hd
      exact takenFaults_subset_inputFindings .argument [] _ hfault

end Members

section Append

variable {bodies : List TypeBody} {b : TypeBody}

/-- **The members of one body more.** A body of the kind of the type, merged into what others gather, gives
what they gather with it. -/
theorem TypeShape.merge_gathered :
    (TypeShape.gathered b.kind bodies).merge b = TypeShape.gathered b.kind (bodies ++ [b]) := by
  have hsnoc {α : Type} (parts : TypeBody → List α) :
      (bodies ++ [b]).flatMap parts = bodies.flatMap parts ++ parts b := by
    rw [List.flatMap_append, List.flatMap_singleton]
  -- Members are added from the left, so a body more is an addition more.
  cases b with
  | scalar => rfl
  | object implements fields =>
    refine congrArg TypeShape.object (congrArg₂ ObjectType.mk ?_ ?_)
    · rw [hsnoc, addedFields_append]
      rfl
    · rw [hsnoc, addedNames_append]
      rfl
  | interface implements fields =>
    refine congrArg TypeShape.interface ?_
    rw [hsnoc, addedFields_append]
    rfl
  | union members =>
    refine congrArg TypeShape.union ?_
    rw [hsnoc, addedNames_append]
    rfl
  | enum values =>
    refine congrArg TypeShape.enum ?_
    rw [hsnoc, List.map_append, addedNames_append]
    rfl
  | inputObject fields =>
    refine congrArg TypeShape.inputObject ?_
    rw [hsnoc, addedInputs_append]
    rfl

/-- **The faults of one body more.** Each repetition among the bodies is one among those before or is noted
when the last of them is merged. -/
theorem TypeShape.repetitions_append_subset (owner : String) (bodies : List TypeBody) (b : TypeBody) :
    TypeBody.repetitions owner b.kind (bodies ++ [b]) ⊆ TypeBody.repetitions owner b.kind bodies ++
      ((TypeShape.gathered b.kind bodies).findings owner b).faults := by
  have hsnoc {α : Type} (parts : TypeBody → List α) :
      (bodies ++ [b]).flatMap parts = bodies.flatMap parts ++ parts b := by
    rw [List.flatMap_append, List.flatMap_singleton]
  have hbehind {xs ys zs : List SchemaFault} (h : ys ⊆ zs) : xs ++ ys ⊆ xs ++ zs :=
    List.append_subset_of_subset_of_subset (List.subset_append_left _ _)
      (List.subset_append_of_subset_right _ h)
  have hfields : fieldRepetitions owner [] ((bodies ++ [b]).flatMap (·.fields)) ⊆
      fieldRepetitions owner [] (bodies.flatMap (·.fields)) ++
        (fieldFindings owner (addedFields [] (bodies.flatMap (·.fields))) b.fields).faults := by
    rw [hsnoc]
    refine List.Subset.trans (fieldRepetitions_append _ _) (hbehind ?_)
    exact fieldRepetitions_subset_fieldFindings _ _
  have hnames (sort : MemberSort) (parts : TypeBody → List Name) :
      takenFaults sort owner id [] ((bodies ++ [b]).flatMap parts) =
        takenFaults sort owner id [] (bodies.flatMap parts) ++
          takenFaults sort owner id (addedNames [] (bodies.flatMap parts)) (parts b) := by
    rw [hsnoc, takenFaults_append]
    rfl
  cases b with
  | scalar => exact List.nil_subset _
  | object implements fields =>
    show fieldRepetitions _ _ _ ++ takenFaults _ _ _ _ _ ⊆ (_ ++ _) ++ (_ ++ _)
    rw [hnames]
    intro fault h
    simp only [List.mem_append] at h ⊢
    rcases h with h | h | h
    · rcases List.mem_append.mp (hfields h) with h | h
      · exact .inl (.inl h)
      · exact .inr (.inl h)
    · exact .inl (.inr h)
    · exact .inr (.inr h)
  | interface implements fields =>
    exact List.Subset.trans hfields (hbehind (List.subset_append_left _ _))
  | union members =>
    show takenFaults _ _ _ _ _ ⊆ _
    rw [hnames]
    exact List.Subset.refl _
  | enum values =>
    show takenFaults _ _ _ _ _ ⊆ takenFaults _ _ _ _ _ ++ takenFaults _ _ _ (addedNames [] _) values
    rw [hsnoc, takenFaults_append, addedNames, untaken_id_map, List.map_map]
    exact List.Subset.refl _
  | inputObject fields =>
    show takenFaults _ _ _ _ _ ⊆ takenFaults _ _ _ _ _ ++ _
    rw [hsnoc, takenFaults_append, List.nil_append, ← map_name_addedInputs]
    exact hbehind (takenFaults_subset_inputFindings .field _ _)

end Append

end ResolverContracts
