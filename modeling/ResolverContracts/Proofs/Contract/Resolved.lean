import Mathlib.Data.Bool.Basic
import ResolverContracts.Proofs.Contract.Levels
/-!
# Answers to references

Resolution goes down the levels of a reference to the name at its bottom, and can stop on the way.
`Project.mapType_cases` lists the three ways in which it ends, each with a condition on the reference
that excludes the other two, and `Project.mapType_answers` puts together what is known from that: which
references fail and on what, and that the others have one type, from which they can be told again.
-/

set_option autoImplicit false

namespace ResolverContracts

namespace Project

variable {p : Project} {access : Access} {r : TypeRef}

/-! ## What goes wrong

A doubled mark is met on the way to the name, so it is what is reported even if there is no type of the
name. -/

/-- The first doubled mark from the outside is the one that is reported. -/
theorem mapLevel_of_doubled {s : TypeRef} (h : r.doubled? = some s) :
    p.mapLevel access r = .error (.nestedNonNull s) := by
  induction r with
  | named name => nomatch h
  | list item ih =>
    rw [TypeRef.doubled?_list] at h
    rw [mapLevel, ih h]
    rfl
  | nonNull item ih =>
    rw [TypeRef.doubled?_nonNull] at h
    rw [mapLevel]
    by_cases hmark : item.isNonNull = true
    · rw [if_pos hmark] at h ⊢
      rw [Option.some.inj h]
    · rw [if_neg hmark] at h ⊢
      rw [ih h]
      rfl

/-- With no mark doubled, the only thing that can go wrong is the name at the bottom. -/
theorem mapLevel_of_unknown (hmarks : r.SingleMarks) (h : p.catalogue.kindOf? r.leaf = none) :
    p.mapLevel access r = .error (.unknownType r.leaf) := by
  induction r with
  | named name =>
    have hname : p.mapNamed name = .error (.unknownType name) := by
      rw [mapNamed, show p.catalogue.kindOf? name = none from h]
    rw [mapLevel, hname]
    rfl
  | list item ih =>
    rw [mapLevel, ih hmarks h]
    rfl
  | nonNull item ih =>
    rw [mapLevel, if_neg (by simp [hmarks.1]), ih hmarks.2 h]
    rfl

/-- The three ways in which resolution ends. Each goes with a condition on the reference, and the
conditions exclude each other, so it is known which way it is. -/
theorem mapType_cases (p : Project) (access : Access) (r : TypeRef) :
    (∃ s, r.doubled? = some s ∧ p.mapType access r = .error (.nestedNonNull s)) ∨
      (r.doubled? = none ∧ p.catalogue.kindOf? r.leaf = none ∧
        p.mapType access r = .error (.unknownType r.leaf)) ∨
      (r.doubled? = none ∧ (p.catalogue.kindOf? r.leaf).isSome = true ∧
        ∃ t, p.mapType access r = .ok t ∧ p.Expresses access r t) := by
  cases hdoubled : r.doubled? with
  | some s =>
    refine .inl ⟨s, rfl, ?_⟩
    rw [mapType, mapLevel_of_doubled hdoubled]
    rfl
  | none =>
    have hmarks := TypeRef.doubled?_eq_none_iff.mp hdoubled
    cases hkind : p.catalogue.kindOf? r.leaf with
    | none =>
      refine .inr (.inl ⟨rfl, rfl, ?_⟩)
      rw [mapType, mapLevel_of_unknown hmarks hkind]
      rfl
    | some kind =>
      obtain ⟨level, hlevel⟩ := exists_mapLevel access hmarks (by rw [hkind]; rfl)
      have htype : p.mapType access r = .ok level.toType := by
        rw [mapType, hlevel]
        rfl
      exact .inr (.inr ⟨rfl, rfl, _, htype, expresses_of_mapType htype⟩)

theorem mapType_eq_ok_iff {t : TypeExpr} :
    p.mapType access r = .ok t ↔ r.doubled? = none ∧ p.Expresses access r t := by
  constructor
  · intro h
    refine ⟨?_, expresses_of_mapType h⟩
    rcases p.mapType_cases access r with ⟨s, -, hs⟩ | ⟨-, -, hs⟩ | ⟨hmarks, -⟩
    · cases h.symm.trans hs
    · cases h.symm.trans hs
    · exact hmarks
  · rintro ⟨hmarks, ht⟩
    rcases p.mapType_cases access r with ⟨s, hs, -⟩ | ⟨-, hunknown, -⟩ | ⟨-, -, u, hu, hexpresses⟩
    · cases hmarks.symm.trans hs
    · -- There is a type of the name, as there is one at the bottom.
      have hbottom := ht.bottom
      rw [mapNamed, hunknown] at hbottom
      cases hbottom
    · rw [hu, hexpresses.unique ht]

/-- References of one name with one type are the same: their levels are those of the type. -/
theorem eq_of_mapType {access' : Access} {r' : TypeRef} {t : TypeExpr} (hleaf : r'.leaf = r.leaf)
    (h : p.mapType access r = .ok t) (h' : p.mapType access' r' = .ok t) : r' = r := by
  obtain ⟨hmarks, ht⟩ := mapType_eq_ok_iff.mp h
  obtain ⟨hmarks', ht'⟩ := mapType_eq_ok_iff.mp h'
  refine TypeRef.eq_of_marks (TypeRef.doubled?_eq_none_iff.mp hmarks')
    (TypeRef.doubled?_eq_none_iff.mp hmarks) ?_ hleaf
  exact List.map_injective_iff.mpr (Bool.injective_iff.mpr (by decide))
    (ht'.nullables.symm.trans ht.nullables)

/-! ## Lists for another use -/

theorem isMultiUnion_withAccess (t : TypeExpr) (access : Access) :
    (t.withAccess access).isMultiUnion = t.isMultiUnion := by
  cases t with
  | _ => rfl

/-- What may be done with the lists is carried through the levels and decides nothing. -/
theorem mapLevel_withAccess (access access' : Access) (r : TypeRef) :
    p.mapLevel access' r =
      (p.mapLevel access r).map fun level => ⟨level.nullable, level.type.withAccess access'⟩ := by
  induction r with
  | named name =>
    rw [mapLevel, mapLevel]
    cases hname : p.mapNamed name with
    | error e => rfl
    | ok u =>
      have hu : u.withAccess access' = u := TypeExpr.withAccess_of_isFlat (isFlat_mapNamed hname) _
      exact congrArg (fun t => Except.ok (Level.mk true t)) hu.symm
  | list item ih =>
    rw [mapLevel, mapLevel, ih]
    cases p.mapLevel access item with
    | error e => rfl
    | ok element =>
      have hform : p.listForm item ⟨element.nullable, element.type.withAccess access'⟩ =
          p.listForm item element := by
        rw [listForm, listForm, isMultiUnion_withAccess]
      have helement : (Level.mk element.nullable (element.type.withAccess access')).toType =
          element.toType.withAccess access' := by
        rw [Level.toType, Level.toType]
        cases element.nullable with
        | _ => rfl
      show Except.ok (Level.mk true (.list _ _ access')) = .ok _
      rw [hform, helement]
      rfl
  | nonNull item ih =>
    rw [mapLevel, mapLevel]
    by_cases hmark : item.isNonNull = true
    · rw [if_pos hmark, if_pos hmark]
      rfl
    · rw [if_neg hmark, if_neg hmark, ih]
      cases p.mapLevel access item with
      | _ => rfl

/-- Access is a matter of the lists alone: one answer is the other with its lists written anew. -/
theorem mapType_withAccess (access access' : Access) (r : TypeRef) :
    p.mapType access' r = (p.mapType access r).map (·.withAccess access') := by
  rw [mapType, mapType, mapLevel_withAccess access access']
  cases p.mapLevel access r with
  | error e => rfl
  | ok level =>
    show Except.ok (Level.toType _) = .ok (level.toType.withAccess access')
    rw [Level.toType, Level.toType]
    cases level.nullable with
    | _ => rfl

/-- **Answers to references.** Resolution of a reference fails at the outermost doubled mark if there is
one, and reports it as it is written; else on the name at the bottom if no type has it; and otherwise
it answers the one type that has the levels of the reference, with the type of the name at the bottom.
So a reference is known from its name and its type, and what may be done with the lists is all that
changes from one use to another. -/
theorem mapType_answers (p : Project) (access : Access) (r : TypeRef) :
    (∀ s, p.mapType access r = .error (.nestedNonNull s) ↔ r.doubled? = some s) ∧
      (∀ s, r.doubled? = some s → (p.mapType access r).mapError (·.message) =
        .error ("`" ++ s.display ++ "` wraps a non-null type in another non-null")) ∧
      (∀ name, p.mapType access r = .error (.unknownType name) ↔
        r.doubled? = none ∧ p.catalogue.kindOf? r.leaf = none ∧ name = r.leaf) ∧
      (∀ t, p.mapType access r = .ok t ↔ r.doubled? = none ∧ p.Expresses access r t) ∧
      ((∃ t, p.mapType access r = .ok t) ↔
        r.doubled? = none ∧ (p.catalogue.kindOf? r.leaf).isSome = true) ∧
      (∀ access' r' t, r'.leaf = r.leaf → p.mapType access r = .ok t →
        p.mapType access' r' = .ok t → r' = r) ∧
      ∀ access', p.mapType access' r = (p.mapType access r).map (·.withAccess access') := by
  have hcases := p.mapType_cases access r
  refine ⟨fun s => ?_, fun s hs => ?_, fun name => ?_, fun t => mapType_eq_ok_iff, ?_,
    fun access' r' t => eq_of_mapType, fun access' => p.mapType_withAccess access access' r⟩
  · rcases hcases with ⟨s', hs', h⟩ | ⟨hmarks, -, h⟩ | ⟨hmarks, -, t, h, -⟩
    · rw [h, hs', Except.error.injEq, TypeError.nestedNonNull.injEq, Option.some.injEq]
    · simp [h, hmarks]
    · simp [h, hmarks]
  · rw [mapType, mapLevel_of_doubled hs]
    rfl
  · rcases hcases with ⟨s', hs', h⟩ | ⟨hmarks, hunknown, h⟩ | ⟨-, hknown, t, h, -⟩
    · simp [h, hs']
    · simp [h, hmarks, hunknown, eq_comm]
    · rw [Option.isSome_iff_ne_none] at hknown
      simp [h, hknown]
  · rcases hcases with ⟨s', hs', h⟩ | ⟨-, hunknown, h⟩ | ⟨hmarks, hknown, t, h, -⟩
    · simp [h, hs']
    · simp [h, hunknown]
    · exact iff_of_true ⟨t, h⟩ ⟨hmarks, hknown⟩

end Project

end ResolverContracts
