import ResolverContracts.Proofs.Contract.Leaves
import ResolverContracts.Proofs.Contract.References
/-!
# Levels of a reference

A reference is a name under levels of lists, and so is its type. What may be missing is said the other
way round in the two: a level of a reference is marked when something must be there, and a level of a
type when nothing may be. Resolution turns marks round one level above the place where they stand,
and looks back at the reference to choose how a list is spelled.

Here both are laid out level by level, from the outside, and compared. `Project.Expresses` says what
each level of a type has to be, from the reference alone, and `Project.mapType_answers` that this is
what resolution answers, or which of the two things is wrong with the reference.
-/

set_option autoImplicit false

namespace ResolverContracts

/-! ## References level by level -/

namespace TypeRef

/-- The reference and all references inside it, from the outside. -/
def chain : TypeRef → List TypeRef
  | named name => [named name]
  | list item => list item :: item.chain
  | nonNull item => nonNull item :: item.chain

/-- Whether this is a non-null mark directly on a non-null mark. -/
def isDoubled : TypeRef → Bool
  | nonNull item => item.isNonNull
  | _ => false

/-- The outermost place where a mark is directly on a mark. -/
def doubled? (r : TypeRef) : Option TypeRef := r.chain.find? (·.isDoubled)

/-- For each level of lists, and for the name, whether it is marked. -/
def marks : TypeRef → List Bool
  | named _ => [false]
  | list item => false :: item.marks
  | nonNull item => true :: item.marks.tail

/-- The items of the lists. -/
def items : TypeRef → List TypeRef
  | named _ => []
  | list item => item :: item.items
  | nonNull item => item.items

/-- The name that a reference is, but for a mark. -/
def name? : TypeRef → Option String
  | named name | nonNull (named name) => some name
  | _ => none

/-- Inside a list the marks start anew. -/
theorem doubled?_list (item : TypeRef) : (list item).doubled? = item.doubled? :=
  List.find?_cons_of_neg Bool.false_ne_true

/-- A mark is doubled where another one stands directly inside it. -/
theorem doubled?_nonNull (item : TypeRef) :
    (nonNull item).doubled? = if item.isNonNull then some (nonNull item) else item.doubled? := by
  rw [doubled?, chain, List.find?_cons]
  show (match item.isNonNull with
    | true => _
    | false => _) = _
  cases item.isNonNull with
  | true => rfl
  | false => rfl

/-- The marks of a reference are in order if none of them is on another. -/
theorem doubled?_eq_none_iff {r : TypeRef} : r.doubled? = none ↔ r.SingleMarks := by
  induction r with
  | named name => exact iff_of_true rfl trivial
  | list item ih => rw [doubled?_list, ih, SingleMarks]
  | nonNull item ih =>
    rw [doubled?_nonNull, SingleMarks, ← ih]
    cases item.isNonNull with
    | true => simp
    | false => simp

theorem marks_eq_cons (r : TypeRef) : r.marks = r.isNonNull :: r.marks.tail := by
  cases r with
  | _ => rfl

/-- The levels of a reference and the name at its bottom are all there is to it, as long as its marks
are in order. -/
theorem eq_of_marks {r r' : TypeRef} (h : r.SingleMarks) (h' : r'.SingleMarks)
    (hmarks : r.marks = r'.marks) (hleaf : r.leaf = r'.leaf) : r = r' := by
  -- Along both at once. Where one has a mark the other has, and what is under a mark has none.
  induction r generalizing r' with
  | named name =>
    cases r' with
    | named name' => exact congrArg named hleaf
    | list item' =>
      rw [marks, marks, marks_eq_cons item'] at hmarks
      nomatch (List.cons.inj hmarks).2
    | nonNull item' => nomatch (List.cons.inj hmarks).1
  | list item ih =>
    cases r' with
    | named name' =>
      rw [marks, marks, marks_eq_cons item] at hmarks
      nomatch (List.cons.inj hmarks).2
    | list item' => exact congrArg list (ih h h' (List.cons.inj hmarks).2 hleaf)
    | nonNull item' => nomatch (List.cons.inj hmarks).1
  | nonNull item ih =>
    cases r' with
    | named name' => nomatch (List.cons.inj hmarks).1
    | list item' => nomatch (List.cons.inj hmarks).1
    | nonNull item' =>
      refine congrArg nonNull (ih h.2 h'.2 ?_ hleaf)
      rw [marks_eq_cons item, marks_eq_cons item', h.1, h'.1, (List.cons.inj hmarks).2]

end TypeRef

/-! ## Types level by level -/

namespace TypeExpr

/-- For each level of lists, and for what is at the bottom, how often nothing is allowed. -/
def nullables : TypeExpr → List Nat
  | nullable inner => inner.nullables.modifyHead (· + 1)
  | list element _ _ => 0 :: element.nullables
  | _ => [0]

/-- The lists, with their spelling and with what may be done with them. -/
def lists : TypeExpr → List (ListForm × Access)
  | nullable inner => inner.lists
  | list element form access => (form, access) :: element.lists
  | _ => []

/-- What is under all lists. -/
def bottom : TypeExpr → TypeExpr
  | nullable inner => inner.bottom
  | list element _ _ => element.bottom
  | t => t

/-- The type with lists for another use. -/
def withAccess (access : Access) : TypeExpr → TypeExpr
  | nullable inner => nullable (inner.withAccess access)
  | list element form _ => list (element.withAccess access) form access
  | t => t

/-- Whether this is a type without parts. -/
def isLeaf : TypeExpr → Bool
  | nullable _ | list _ _ _ | union _ => false
  | _ => true

/-- Whether this is a single level. -/
def isFlat : TypeExpr → Bool
  | nullable _ | list _ _ _ => false
  | _ => true

section Flat

variable {t : TypeExpr}

theorem nullables_of_isFlat (h : t.isFlat = true) : t.nullables = [0] := by
  cases t with
  | nullable inner => nomatch h
  | list element form access => nomatch h
  | _ => rfl

theorem lists_of_isFlat (h : t.isFlat = true) : t.lists = [] := by
  cases t with
  | nullable inner => nomatch h
  | list element form access => nomatch h
  | _ => rfl

theorem bottom_of_isFlat (h : t.isFlat = true) : t.bottom = t := by
  cases t with
  | nullable inner => nomatch h
  | list element form access => nomatch h
  | _ => rfl

theorem withAccess_of_isFlat (h : t.isFlat = true) (access : Access) : t.withAccess access = t := by
  cases t with
  | nullable inner => nomatch h
  | list element form access => nomatch h
  | _ => rfl

theorem isNullable_of_isFlat (h : t.isFlat = true) : t.isNullable = false := by
  cases t with
  | nullable inner => nomatch h
  | _ => rfl

theorem isFlat_of_isLeaf (h : t.isLeaf = true) : t.isFlat = true := by
  cases t with
  | nullable inner => nomatch h
  | list element form access => nomatch h
  | _ => rfl

/-- A union of types without levels has none, as one that is a single type is that type. -/
theorem isFlat_unionOf {types : List TypeExpr} (h : ∀ t ∈ types, t.isFlat = true) :
    (unionOf types).isFlat = true := by
  match types with
  | [] => rfl
  | [type] => exact h type (List.mem_singleton_self type)
  | _ :: _ :: _ => rfl

end Flat

theorem leaves_bottom : ∀ t : TypeExpr, t.bottom.leaves = t.leaves
  | nullable inner => leaves_bottom inner
  | list element _ _ => leaves_bottom element
  | primitive _ => rfl
  | named _ => rfl
  | emptyRecord => rfl
  | .parameter _ => rfl
  | union _ => rfl

theorem eq_of_modifyHead_succ {ns ms : List Nat}
    (h : ns.modifyHead (· + 1) = ms.modifyHead (· + 1)) : ns = ms := by
  cases ns with
  | nil =>
    cases ms with
    | nil => rfl
    | cons m ms => nomatch h
  | cons n ns =>
    cases ms with
    | nil => nomatch h
    | cons m ms =>
      obtain ⟨hhead, rfl⟩ := List.cons.inj h
      rw [Nat.succ.inj hhead]

theorem nullables_nullable_ne (inner : TypeExpr) (ns : List Nat) :
    (nullable inner).nullables ≠ 0 :: ns := by
  rw [nullables]
  cases inner.nullables with
  | nil => nofun
  | cons n _ => exact fun h => nomatch (List.cons.inj h).1

/-- The levels of a type and what is at its bottom are all there is to it. -/
theorem eq_of_levels : ∀ {t u : TypeExpr}, t.nullables = u.nullables → t.lists = u.lists →
    t.bottom = u.bottom → t = u := by
  intro t u hnullables hlists hbottom
  -- The counts of both tell at each level whether it may be nothing, so the constructors agree.
  cases t with
  | nullable inner =>
    cases u with
    | nullable inner' =>
      refine congrArg nullable (eq_of_levels ?_ hlists hbottom)
      exact eq_of_modifyHead_succ hnullables
    | _ => exact absurd hnullables (nullables_nullable_ne inner _)
  | list element form access =>
    cases u with
    | nullable inner' => exact absurd hnullables.symm (nullables_nullable_ne inner' _)
    | list element' form' access' =>
      obtain ⟨hhead, htail⟩ := List.cons.inj hlists
      obtain ⟨rfl, rfl⟩ := Prod.mk.inj hhead
      rw [eq_of_levels (List.cons.inj hnullables).2 htail hbottom]
    | _ => nomatch hlists
  | _ =>
    cases u with
    | nullable inner' => exact absurd hnullables.symm (nullables_nullable_ne inner' _)
    | list element' form' access' => nomatch hlists
    | _ => exact hbottom

end TypeExpr

namespace Project

variable {p : Project} {access : Access} {r : TypeRef}

/-! ## What the levels have to be -/

/-- The items whose lists are spelled with angle brackets: they may be missing, or are a name that is
an interface or stands for several types. -/
def PrefersGeneric (p : Project) (item : TypeRef) : Prop :=
  item.isNonNull = false ∨ ∃ name, item.name? = some name ∧
    (p.catalogue.kindOf? name = some .interface ∨
      ∃ members, p.mapNamed name = .ok (.union members) ∧ 1 < members.length)

/-- A type has the levels of a reference. Nothing is allowed just where the reference has no mark, and
only once; every list is for the use that is asked for, and spelled as its item prefers; and at the
bottom is the type of the name. -/
structure Expresses (p : Project) (access : Access) (r : TypeRef) (t : TypeExpr) : Prop where
  nullables : t.nullables = r.marks.map fun marked => if marked then 0 else 1
  lists : List.Forall₂ (fun item list => (list.1 = .generic ↔ p.PrefersGeneric item) ∧
    list.2 = access) r.items t.lists
  bottom : p.mapNamed r.leaf = .ok t.bottom

/-- What is asked for has one answer. -/
theorem Expresses.unique {t u : TypeExpr} (ht : p.Expresses access r t)
    (hu : p.Expresses access r u) : t = u := by
  refine TypeExpr.eq_of_levels (ht.nullables.trans hu.nullables.symm) ?_
    (Except.ok.inj (ht.bottom.symm.trans hu.bottom))
  refine List.right_unique_forall₂' ?_ ht.lists hu.lists
  rintro item ⟨form, _⟩ ⟨form', _⟩ ⟨hform, rfl⟩ ⟨hform', rfl⟩
  -- There are two spellings, so it is enough to know which lists have the one.
  cases form with
  | generic =>
    obtain rfl : form' = .generic := hform'.mpr (hform.mp rfl)
    rfl
  | suffix =>
    cases form' with
    | generic => nomatch hform.mpr (hform'.mp rfl)
    | suffix => rfl

/-! ## What resolution answers

The type of a name has no levels of its own: it is one type without parts, or a union of some. -/

theorem isLeaf_mapComposite (name : String) : (p.mapComposite name).isLeaf = true := by
  rcases mapComposite_cases p name with ⟨-, h⟩ | ⟨s, -, h⟩ | ⟨-, -, h⟩
  · rw [h]
    rfl
  · rw [h]
    rfl
  · rw [h]
    rfl

theorem exists_unionOf_of_isLeaf {t : TypeExpr} (h : t.isLeaf = true) :
    ∃ types, types ≠ [] ∧ t = .unionOf types ∧ ∀ t ∈ types, t.isLeaf = true := by
  refine ⟨[t], List.cons_ne_nil _ _, rfl, fun u hu => ?_⟩
  obtain rfl := List.mem_singleton.mp hu
  exact h

/-- The cases are the kinds of types. -/
theorem exists_unionOf_of_mapNamed {name : String} {u : TypeExpr} (h : p.mapNamed name = .ok u) :
    ∃ types, types ≠ [] ∧ u = .unionOf types ∧ ∀ t ∈ types, t.isLeaf = true := by
  rw [mapNamed] at h
  -- In the order of the kinds; only an interface gives more than one type.
  split at h
  · obtain rfl := Except.ok.inj h
    refine exists_unionOf_of_isLeaf ?_
    rcases mapScalar_cases p name with ⟨-, type, h⟩ | ⟨-, s, -, h⟩ | ⟨-, -, h⟩
    · rw [h]
      rfl
    · rw [h]
      rfl
    · rw [h]
      rfl
  · obtain rfl := Except.ok.inj h
    refine exists_unionOf_of_isLeaf ?_
    rw [mapEnum]
    split
    · rfl
    · rfl
  · obtain rfl := Except.ok.inj h
    exact exists_unionOf_of_isLeaf (isLeaf_mapComposite name)
  · obtain rfl := Except.ok.inj h
    exact exists_unionOf_of_isLeaf (isLeaf_mapComposite name)
  · obtain rfl := Except.ok.inj h
    rw [mapInterface]
    split
    · exact exists_unionOf_of_isLeaf (isLeaf_mapComposite name)
    · refine ⟨_, List.append_ne_nil_of_right_ne_nil _ (List.cons_ne_nil _ _), rfl, fun t ht => ?_⟩
      rcases List.mem_append.mp ht with ht | ht
      · obtain ⟨o, -, rfl⟩ := List.mem_map.mp ht
        exact isLeaf_mapComposite o
      · obtain rfl := List.mem_singleton.mp ht
        rfl
  · obtain rfl := Except.ok.inj h
    exact exists_unionOf_of_isLeaf rfl
  · cases h

/-- A name resolves to a type without levels; all levels come from the reference. -/
theorem isFlat_mapNamed {name : String} {u : TypeExpr} (h : p.mapNamed name = .ok u) :
    u.isFlat = true := by
  obtain ⟨types, -, rfl, hleaf⟩ := exists_unionOf_of_mapNamed h
  exact TypeExpr.isFlat_unionOf fun t ht => TypeExpr.isFlat_of_isLeaf (hleaf t ht)

/-- Only a name can stand for several types, and a mark does not change for what. -/
theorem isMultiUnion_iff {item : TypeRef} {element : Level} (h : p.mapLevel access item = .ok element) :
    element.type.isMultiUnion = true ↔ ∃ name, item.name? = some name ∧
      ∃ members, p.mapNamed name = .ok (.union members) ∧ 1 < members.length := by
  have hnamed {name : String} {element : Level} (h : p.mapLevel access (.named name) = .ok element) :
      element.type.isMultiUnion = true ↔
        ∃ members, p.mapNamed name = .ok (.union members) ∧ 1 < members.length := by
    rw [mapLevel, bind_eq_ok_iff] at h
    obtain ⟨u, hu, h⟩ := h
    obtain rfl : ⟨true, u⟩ = element := Except.ok.inj h
    rw [hu]
    cases u with
    | union members => simp [TypeExpr.isMultiUnion]
    | _ => simp [TypeExpr.isMultiUnion]
  have hlist {inner : TypeRef} {element : Level} (h : p.mapLevel access (.list inner) = .ok element) :
      element.type.isMultiUnion = false := by
    rw [mapLevel, bind_eq_ok_iff] at h
    obtain ⟨_, -, h⟩ := h
    obtain rfl := Except.ok.inj h
    rfl
  -- At most one mark stands behind the name: a second one is an error.
  cases item with
  | named name => simpa [TypeRef.name?] using hnamed h
  | list inner => simp [TypeRef.name?, hlist h]
  | nonNull inner =>
    rw [mapLevel] at h
    by_cases hmark : inner.isNonNull = true
    · rw [if_pos hmark] at h
      cases h
    rw [if_neg hmark, bind_eq_ok_iff] at h
    obtain ⟨level, hlevel, h⟩ := h
    obtain rfl := Except.ok.inj h
    cases inner with
    | named name => simpa [TypeRef.name?] using hnamed hlevel
    | list inner => simp [TypeRef.name?, hlist hlevel]
    | nonNull inner => exact absurd rfl hmark

theorem namesInterface_iff {item : TypeRef} : p.namesInterface item = true ↔
    ∃ name, item.name? = some name ∧ p.catalogue.kindOf? name = some .interface := by
  match item with
  | .named name => simp [namesInterface, TypeRef.name?]
  | .nonNull (.named name) => simp [namesInterface, TypeRef.name?]
  | .list _ => simp [namesInterface, TypeRef.name?]
  | .nonNull (.list _) => simp [namesInterface, TypeRef.name?]
  | .nonNull (.nonNull _) => simp [namesInterface, TypeRef.name?]

/-- What resolution looks at for the spelling of a list is there in the reference. -/
theorem listForm_eq_generic_iff {item : TypeRef} {element : Level}
    (h : p.mapLevel access item = .ok element) (hnullable : element.nullable = !item.isNonNull) :
    p.listForm item element = .generic ↔ p.PrefersGeneric item := by
  have hform : p.listForm item element = .generic ↔ element.nullable = true ∨
      p.namesInterface item = true ∨ element.type.isMultiUnion = true := by
    rw [listForm]
    grind
  rw [hform, hnullable, namesInterface_iff, isMultiUnion_iff h, PrefersGeneric, Bool.not_eq_true']
  constructor
  · rintro (hmark | ⟨name, hname, hkind⟩ | ⟨name, hname, hmembers⟩)
    · exact .inl hmark
    · exact .inr ⟨name, hname, .inl hkind⟩
    · exact .inr ⟨name, hname, .inr hmembers⟩
  · rintro (hmark | ⟨name, hname, hkind | hmembers⟩)
    · exact .inl hmark
    · exact .inr (.inl ⟨name, hname, hkind⟩)
    · exact .inr (.inr ⟨name, hname, hmembers⟩)

/-- A level as it is answered, with the outermost mark still apart. -/
structure ExpressesLevel (p : Project) (access : Access) (r : TypeRef) (level : Level) : Prop where
  nullable : level.nullable = !r.isNonNull
  nullables : level.type.nullables = 0 :: r.marks.tail.map fun marked => if marked then 0 else 1
  lists : List.Forall₂ (fun item list => (list.1 = .generic ↔ p.PrefersGeneric item) ∧
    list.2 = access) r.items level.type.lists
  bottom : p.mapNamed r.leaf = .ok level.type.bottom

/-- Marking the outermost level turns the counts of the level into those of its type. -/
theorem ExpressesLevel.toType {level : Level} (h : p.ExpressesLevel access r level) :
    p.Expresses access r level.toType := by
  have hmarks : r.marks.map (fun marked => if marked then 0 else 1) =
      (if r.isNonNull then 0 else 1) :: r.marks.tail.map fun marked => if marked then 0 else 1 := by
    rw [r.marks_eq_cons]
    rfl
  rw [Level.toType, h.nullable]
  cases hmark : r.isNonNull with
  | false =>
    refine ⟨?_, h.lists, h.bottom⟩
    rw [hmarks, hmark]
    exact congrArg (List.modifyHead (· + 1)) h.nullables
  | true =>
    refine ⟨?_, h.lists, h.bottom⟩
    rw [hmarks, hmark]
    exact h.nullables

/-- **Levels.** The induction is on the levels of the reference. A name has one level; a list puts a
level around that of its item, with the mark that was still apart; and a mark changes only what is
apart. -/
theorem expressesLevel_of_mapLevel {level : Level} (h : p.mapLevel access r = .ok level) :
    p.ExpressesLevel access r level := by
  -- Each constructor of a reference adds the level that the specification asks for there.
  induction r generalizing level with
  | named name =>
    rw [mapLevel, bind_eq_ok_iff] at h
    obtain ⟨u, hu, h⟩ := h
    obtain rfl : ⟨true, u⟩ = level := Except.ok.inj h
    have hflat := isFlat_mapNamed hu
    refine ⟨rfl, TypeExpr.nullables_of_isFlat hflat, ?_, ?_⟩
    · rw [TypeExpr.lists_of_isFlat hflat]
      exact .nil
    · rw [TypeExpr.bottom_of_isFlat hflat]
      exact hu
  | list item ih =>
    rw [mapLevel, bind_eq_ok_iff] at h
    obtain ⟨element, hitem, h⟩ := h
    obtain rfl := Except.ok.inj h
    have helement := (ih hitem).toType
    refine ⟨rfl, congrArg (0 :: ·) helement.nullables, ?_, helement.bottom⟩
    exact .cons ⟨listForm_eq_generic_iff hitem (ih hitem).nullable, rfl⟩ helement.lists
  | nonNull item ih =>
    rw [mapLevel] at h
    by_cases hmark : item.isNonNull = true
    · rw [if_pos hmark] at h
      cases h
    · rw [if_neg hmark, bind_eq_ok_iff] at h
      obtain ⟨inner, hitem, h⟩ := h
      obtain rfl := Except.ok.inj h
      exact ⟨rfl, (ih hitem).nullables, (ih hitem).lists, (ih hitem).bottom⟩

/-- Resolution answers with a type that the specification allows. That there is no other is
`Expresses.unique`. -/
theorem expresses_of_mapType {t : TypeExpr} (h : p.mapType access r = .ok t) :
    p.Expresses access r t := by
  obtain ⟨level, hlevel, rfl⟩ := map_eq_ok_iff.mp h
  exact (expressesLevel_of_mapLevel hlevel).toType

end Project

end ResolverContracts
