import ResolverContracts.Contract.Resolution
import ResolverContracts.Proofs.Contract.Successes
/-!
# What type expressions are built from

A type expression is built from primitives, names, the empty record and parameters, put together by
lists, unions and marks. Its leaves are what is at the bottom. Resolution adds lists and marks to the
type of a name and nothing else, so the leaves of the type of a reference are those of the name at the
bottom of the reference (`Project.leaves_mapType`), and whatever a module can refer to is decided by
the few functions that answer names.
-/

set_option autoImplicit false

namespace ResolverContracts

namespace TypeExpr

mutual

/-- The types at the bottom of a type, from the left, repetitions kept. -/
def leaves : TypeExpr → List TypeExpr
  | primitive type => [primitive type]
  | named ref => [named ref]
  | emptyRecord => [emptyRecord]
  | parameter name => [parameter name]
  | list element _ _ => element.leaves
  | nullable inner => inner.leaves
  | union members => leavesOfMembers members

/-- The leaves of types, one after the other. -/
def leavesOfMembers : List TypeExpr → List TypeExpr
  | [] => []
  | type :: types => type.leaves ++ leavesOfMembers types

end

theorem leavesOfMembers_eq_flatMap (types : List TypeExpr) :
    leavesOfMembers types = types.flatMap leaves := by
  induction types with
  | nil => rfl
  | cons type types ih => simp only [leavesOfMembers, ih, List.flatMap_cons]

/-- The names in a type that are left to the module itself. -/
def locals (t : TypeExpr) : List String :=
  t.leaves.filterMap fun
    | named (.declared name) => some name
    | _ => none

/-- The parameters in a type. -/
def parameters (t : TypeExpr) : List String :=
  t.leaves.filterMap fun
    | parameter name => some name
    | _ => none

/-- A union of one type is that type, so the leaves of a union are those of its members anyway. -/
theorem leaves_unionOf (types : List TypeExpr) : (unionOf types).leaves = types.flatMap leaves := by
  match types with
  | [type] => exact (List.flatMap_singleton leaves type).symm
  | [] => rfl
  | first :: second :: rest => exact leavesOfMembers_eq_flatMap (first :: second :: rest)

theorem mem_locals_unionOf {types : List TypeExpr} {name : String} :
    name ∈ (unionOf types).locals ↔ ∃ t ∈ types, name ∈ t.locals := by
  rw [locals, leaves_unionOf, List.filterMap_flatMap, List.mem_flatMap]
  rfl

theorem mem_parameters_unionOf {types : List TypeExpr} {name : String} :
    name ∈ (unionOf types).parameters ↔ ∃ t ∈ types, name ∈ t.parameters := by
  rw [parameters, leaves_unionOf, List.filterMap_flatMap, List.mem_flatMap]
  rfl

mutual

/-- The symbols that a type needs are those among its leaves. The recursion is that of both. -/
theorem mem_externals_iff {target : External} : ∀ t : TypeExpr,
    target ∈ t.externals ↔ .named (.external target) ∈ t.leaves
  | named (.external _) => by simp [externals, leaves]
  | named (.declared _) => by simp [externals, leaves]
  | primitive _ => by simp [externals, leaves]
  | emptyRecord => by simp [externals, leaves]
  | .parameter _ => by simp [externals, leaves]
  | list element _ _ => mem_externals_iff element
  | nullable inner => mem_externals_iff inner
  | union members => mem_externalsOfMembers_iff members

theorem mem_externalsOfMembers_iff {target : External} : ∀ types : List TypeExpr,
    target ∈ externalsOfMembers types ↔ .named (.external target) ∈ leavesOfMembers types
  | [] => by simp [externalsOfMembers, leavesOfMembers]
  | type :: types => by
    rw [externalsOfMembers, leavesOfMembers, List.mem_append, List.mem_append,
      mem_externals_iff type, mem_externalsOfMembers_iff types]

end

end TypeExpr

/-- A mark has no leaves of its own. -/
@[simp] theorem Level.leaves_toType (l : Level) : l.toType.leaves = l.type.leaves := by
  rw [toType]
  split
  · rfl
  · rfl

namespace Project

variable {p : Project} {access : Access} {r : TypeRef}

/-- What stands for an object, a union or a mapped interface is a single leaf. -/
theorem mapComposite_cases (p : Project) (name : String) :
    (p.catalogue.roots.isQueryOrMutation name = true ∧ p.mapComposite name = .emptyRecord) ∨
      (∃ s, p.overrides.mappers.get? name = some s ∧ p.mapComposite name = .external s name) ∨
      (p.isMapped name = false ∧ p.catalogue.roots.isQueryOrMutation name = false ∧
        p.mapComposite name = .declared name) := by
  rw [mapComposite]
  by_cases hroot : p.catalogue.roots.isQueryOrMutation name = true
  · rw [if_pos hroot]
    exact .inl ⟨hroot, rfl⟩
  · rw [if_neg hroot]
    cases hget : p.overrides.mappers.get? name with
    | some s => exact .inr (.inl ⟨s, rfl, rfl⟩)
    | none =>
      have hmapped : p.isMapped name = false := by
        rw [isMapped, SymbolMap.contains_eq_isSome, hget]
        rfl
      exact .inr (.inr ⟨hmapped, by simpa using hroot, rfl⟩)

/-- What stands for a scalar is a single leaf. -/
theorem mapScalar_cases (p : Project) (name : String) :
    (isBuiltinScalar name = true ∧ ∃ type, p.mapScalar name = .primitive type) ∨
      (isBuiltinScalar name = false ∧ ∃ s, p.overrides.scalars.get? name = some s ∧
        p.mapScalar name = .external s name) ∨
      (isBuiltinScalar name = false ∧ p.overrides.scalars.get? name = none ∧
        p.mapScalar name = .declared name) := by
  rw [mapScalar]
  by_cases hstring : name = "String" ∨ name = "ID"
  · rw [if_pos hstring]
    exact .inl ⟨by rcases hstring with rfl | rfl <;> decide, _, rfl⟩
  rw [if_neg hstring]
  by_cases hnumber : name = "Int" ∨ name = "Float"
  · rw [if_pos hnumber]
    exact .inl ⟨by rcases hnumber with rfl | rfl <;> decide, _, rfl⟩
  rw [if_neg hnumber]
  by_cases hboolean : name = "Boolean"
  · rw [if_pos hboolean]
    exact .inl ⟨by rw [hboolean]; decide, _, rfl⟩
  rw [if_neg hboolean]
  -- What is left are the scalars that are not built in.
  have hbuiltin : isBuiltinScalar name = false := by
    simp only [isBuiltinScalar, builtinScalars, List.contains_eq_mem, List.mem_cons,
      List.not_mem_nil, or_false]
    grind
  cases hget : p.overrides.scalars.get? name with
  | some s => exact .inr (.inl ⟨hbuiltin, s, rfl, rfl⟩)
  | none => exact .inr (.inr ⟨hbuiltin, rfl, rfl⟩)

/-- The type of a level has the leaves of the name at the bottom. The induction is on the levels; a
list and a mark are put around the type of the level below. -/
theorem leaves_mapLevel {level : Level} (h : p.mapLevel access r = .ok level) :
    ∃ u, p.mapNamed r.leaf = .ok u ∧ level.type.leaves = u.leaves := by
  -- A list and a mark add levels above the bottom, and leaves are at the bottom.
  induction r generalizing level with
  | named name =>
    rw [mapLevel, bind_eq_ok_iff] at h
    obtain ⟨u, hu, h⟩ := h
    obtain rfl : ⟨true, u⟩ = level := Except.ok.inj h
    exact ⟨u, hu, rfl⟩
  | list item ih =>
    rw [mapLevel, bind_eq_ok_iff] at h
    obtain ⟨element, hitem, h⟩ := h
    obtain rfl := Except.ok.inj h
    obtain ⟨u, hu, hleaves⟩ := ih hitem
    exact ⟨u, hu, (Level.leaves_toType element).trans hleaves⟩
  | nonNull item ih =>
    rw [mapLevel] at h
    by_cases hmark : item.isNonNull = true
    · rw [if_pos hmark] at h
      nomatch h
    · rw [if_neg hmark, bind_eq_ok_iff] at h
      obtain ⟨inner, hitem, h⟩ := h
      obtain rfl := Except.ok.inj h
      obtain ⟨u, hu, hleaves⟩ := ih hitem
      exact ⟨u, hu, hleaves⟩

/-- **Leaves of a reference.** Whatever lists and marks a reference has, and whatever may be done with
the lists, the leaves of its type are those of its name. -/
theorem leaves_mapType {t : TypeExpr} (h : p.mapType access r = .ok t) :
    ∃ u, p.mapNamed r.leaf = .ok u ∧ t.leaves = u.leaves := by
  obtain ⟨level, hlevel, rfl⟩ := map_eq_ok_iff.mp h
  obtain ⟨u, hu, hleaves⟩ := leaves_mapLevel hlevel
  exact ⟨u, hu, (Level.leaves_toType level).trans hleaves⟩

end Project

end ResolverContracts
