import ResolverContracts.Proofs.Contract.Framing
/-!
# Expressions of the user in lists

A user can give a whole type expression for a scalar or for a composite type, such as
`string | number`. It is written as it is, and to the writer it is a type without parts. So it goes
directly in front of the brackets of a list, where a union of several types would go into parentheses
or be spelled with angle brackets, and brackets bind tighter than most of what an expression can have
at its top.

This happens in the lists whose items are marked, unless the type is an interface
(`Project.expression_in_lists`). Everywhere else the expression is all there is between two brackets,
so that the list is one of the whole expression, whatever it is.
-/

set_option autoImplicit false

namespace ResolverContracts

/-! ## Places in tokens -/

namespace TypeToken

/-- What can stand between an element and the bracket behind it: nothing, or that nothing is allowed. -/
inductive IsMarks : List TypeToken → Prop
  | none : IsMarks []
  | nullable : IsMarks [bar, null, bar, undefined]

/-- Brackets with an element in between. -/
inductive IsPair : TypeToken → TypeToken → Prop
  | parens : IsPair openParen closeParen
  | list (access : Access) : IsPair (openList access) closeList

/-- A text is directly in front of the brackets of a list, or behind the word that goes with them. -/
def Exposed (text : String) (ts : List TypeToken) : Prop :=
  ∃ front back, ts = front ++ atom text :: back ∧
    (front.getLast? = some readonly ∨ back.head? = some brackets)

/-- A text is the element between parentheses or angle brackets. -/
def Enclosed (text : String) (ts : List TypeToken) : Prop :=
  ∃ front opening marks closing back,
    ts = front ++ opening :: atom text :: (marks ++ closing :: back) ∧
      IsPair opening closing ∧ IsMarks marks

end TypeToken

namespace TypeExpr

open TypeToken

variable {t : TypeExpr} {text : String}

/-! ## Places in a frame -/

theorem head?_back_of_isExposed : ∀ t : TypeExpr, t.isExposed = true → t.back.head? = some brackets
  | nullable inner, h => by simp [back, head?_back_of_isExposed inner h]
  | list element .generic _, h => by simp [back, head?_back_of_isExposed element h]
  | list element .suffix _, h => by
    rcases Bool.or_eq_true_iff.mp h with h | h
    · obtain ⟨hflat, hparens⟩ := Bool.and_eq_true_iff.mp h
      simp [back, back_of_isFlat hflat, (Bool.not_eq_true' _).mp hparens]
    · simp [back, head?_back_of_isExposed element h]

/-- The frame has a pair of brackets directly around its middle, but for what may be between. -/
def Encloses (t : TypeExpr) : Prop :=
  ∃ before opening marks closing behind, t.front = before ++ [opening] ∧
    t.back = marks ++ closing :: behind ∧ IsPair opening closing ∧ IsMarks marks

/-- More levels around change nothing in the middle. -/
theorem Encloses.around {u : TypeExpr} (h : t.Encloses) {before behind : List TypeToken}
    (hfront : u.front = before ++ t.front) (hback : u.back = t.back ++ behind) : u.Encloses := by
  obtain ⟨before', opening, marks, closing, behind', hfront', hback', hpair, hmarks⟩ := h
  refine ⟨before ++ before', opening, marks, closing, behind' ++ behind, ?_, ?_, hpair, hmarks⟩
  · rw [hfront, hfront', List.append_assoc]
  · rw [hback, hback', List.append_assoc, List.cons_append]

theorem isExposed_of_isFlat (h : t.isFlat = true) : t.isExposed = false := by
  cases t with
  | nullable inner => nomatch h
  | list element form access => nomatch h
  | _ => rfl

/-- A type without parts is no union. -/
theorem isMultiUnion_of_isLeaf (h : t.isLeaf = true) : t.isMultiUnion = false := by
  cases t with
  | union members => nomatch h
  | _ => rfl

theorem needsParens_of_isLeaf (h : t.isLeaf = true) : t.needsParens = false := by
  cases t with
  | list element form access => nomatch h
  | union members => nomatch h
  | nullable inner => nomatch h
  | _ => rfl

theorem isFlat_of_lists_eq_nil (hlists : t.lists = []) (h : t.isNullable = false) :
    t.isFlat = true := by
  cases t with
  | nullable inner => nomatch h
  | list element form access => nomatch hlists
  | _ => rfl

/-- The innermost list encloses its element with its own brackets, or with parentheses if it can be
missing and brackets follow. -/
theorem WellMarked.encloses_innermost {element : TypeExpr} {form : ListForm} {access : Access}
    (h : element.WellMarked) (hlists : element.lists = [])
    (hbottom : element.bottom.needsParens = false)
    (hexposed : (TypeExpr.list element form access).isExposed = false) :
    (TypeExpr.list element form access).Encloses := by
  -- Below the innermost list there is the bottom, or the bottom that may be nothing.
  cases h with
  | flat hflat =>
    cases form with
    | generic =>
      refine ⟨[], openList access, [], closeList, [], ?_, ?_, .list access, .none⟩
      · simp [front, front_of_isFlat hflat]
      · simp [back, back_of_isFlat hflat]
    | suffix =>
      rw [bottom_of_isFlat hflat] at hbottom
      simp [isExposed, hflat, hbottom] at hexposed
  | list => cases hlists
  | @nullable inner _ hinner =>
    have hflat := isFlat_of_lists_eq_nil (t := inner) hlists hinner
    cases form with
    | generic =>
      refine ⟨[], openList access, _, closeList, [], ?_, ?_, .list access, .nullable⟩
      · simp [front, front_of_isFlat hflat]
      · simp [back, back_of_isFlat hflat]
    | suffix =>
      refine ⟨if access = .readonly then [readonly] else [], openParen, _, closeParen, [brackets],
        ?_, ?_, .parens, .nullable⟩
      · cases access with
        | _ => simp [front, front_of_isFlat hflat, needsParens]
      · simp [back, back_of_isFlat hflat, needsParens]

/-- What is at the bottom under lists is in front of brackets, or enclosed. -/
theorem WellMarked.encloses (ht : t.WellMarked) (hbottom : t.bottom.needsParens = false)
    (hlists : t.lists ≠ []) (hexposed : t.isExposed = false) : t.Encloses := by
  induction ht with
  | @flat t h => exact absurd (lists_of_isFlat h) hlists
  | @list element form access h ih =>
    by_cases helement : element.lists = []
    · exact h.encloses_innermost helement hbottom hexposed
    cases form with
    | generic => exact (ih hbottom helement hexposed).around List.singleton_append.symm rfl
    | suffix =>
      have hinner := ih hbottom helement (Bool.or_eq_false_iff.mp hexposed).2
      exact hinner.around rfl (List.append_assoc ..)
  | @nullable inner h hinner ih =>
    exact (ih hbottom hlists hexposed).around (List.nil_append _).symm rfl

/-- A text at the bottom is exposed just where brackets are directly behind. -/
theorem WellMarked.exposed_iff (ht : t.WellMarked) (hbottom : t.bottom.needsParens = false) :
    Exposed text (t.frame [atom text]) ↔ t.isExposed = true := by
  have hfront : atom text ∉ t.front := fun h => nomatch opens_of_mem_front t _ h
  have hback : atom text ∉ t.back := fun h => nomatch isSign_of_mem_back t _ h
  constructor
  · rintro ⟨front, back, hframe, hplace⟩
    obtain ⟨rfl, -, rfl⟩ := (List.append_cons_inj_of_notMem hfront hback).mp hframe
    -- If the bottom is not exposed, its neighbours are a pair that encloses it, or there is no list.
    by_contra hexposed
    rw [Bool.not_eq_true] at hexposed
    by_cases hlists : t.lists = []
    · cases ht with
      | flat h => simp [front_of_isFlat h, back_of_isFlat h] at hplace
      | list => cases hlists
      | @nullable inner h hinner =>
        have hflat := isFlat_of_lists_eq_nil (t := inner) hlists hinner
        simp [front, back, front_of_isFlat hflat, back_of_isFlat hflat] at hplace
    · obtain ⟨before, opening, marks, closing, behind, hfront, hback, hpair, hmarks⟩ :=
        ht.encloses hbottom hlists hexposed
      rw [hfront, hback] at hplace
      cases hpair with
      | _ =>
        cases hmarks with
        | _ => simp at hplace
  · intro h
    exact ⟨t.front, t.back, rfl, .inr (head?_back_of_isExposed t h)⟩

end TypeExpr

namespace Project

variable {p : Project} {access : Access} {r : TypeRef} {t : TypeExpr} {name text : String}

/-! ## Names that stand for expressions -/

/-- The user gives a type expression for a scalar or for a composite type. -/
inductive IsExpression (p : Project) (name text : String) : Prop
  | scalar (hkind : p.catalogue.kindOf? name = some .scalar) (hbuiltin : isBuiltinScalar name = false)
    (hsymbol : p.overrides.scalars.get? name = some (.verbatim text))
  | composite (hkind : p.catalogue.kindOf? name = some .object ∨
      p.catalogue.kindOf? name = some .interface ∨ p.catalogue.kindOf? name = some .union)
    (hroot : p.catalogue.roots.isQueryOrMutation name = false)
    (hsymbol : p.overrides.mappers.get? name = some (.verbatim text))

theorem IsExpression.mapNamed_eq (h : p.IsExpression name text) :
    p.mapNamed name = .ok (.external (.verbatim text) name) := by
  cases h with
  | scalar hkind hbuiltin hsymbol =>
    rw [mapNamed, hkind]
    rcases p.mapScalar_cases name with ⟨h, -⟩ | ⟨-, s, hs, h⟩ | ⟨-, hs, -⟩
    · cases hbuiltin.symm.trans h
    · obtain rfl := Option.some.inj (hsymbol.symm.trans hs)
      rw [h]
    · cases hsymbol.symm.trans hs
  | composite hkind hroot hsymbol =>
    have hcomposite : p.mapComposite name = .external (.verbatim text) name := by
      rcases p.mapComposite_cases name with ⟨h, -⟩ | ⟨s, hs, h⟩ | ⟨h, -⟩
      · cases hroot.symm.trans h
      · obtain rfl := Option.some.inj (hsymbol.symm.trans hs)
        exact h
      · rw [isMapped, SymbolMap.contains_eq_isSome, hsymbol] at h
        cases h
    have hmapped : p.isMapped name = true := by
      rw [isMapped, SymbolMap.contains_eq_isSome, hsymbol]
      rfl
    rcases hkind with hkind | hkind | hkind
    · rw [mapNamed, hkind, ← hcomposite]
    · rw [mapNamed, hkind, ← hcomposite]
      show Except.ok (p.mapInterface name) = _
      rw [mapInterface, if_pos hmapped]
    · rw [mapNamed, hkind, ← hcomposite]

/-! ## Where they are written -/

/-- An element is a single level just if its reference is a marked name. -/
theorem isFlat_toType_iff {level : Level} (h : p.mapLevel access r = .ok level) :
    level.toType.isFlat = true ↔ r = .nonNull (.named r.leaf) := by
  cases r with
  | named n =>
    obtain ⟨u, -, h⟩ := bind_eq_ok_iff.mp h
    obtain rfl := Except.ok.inj h
    simp [Level.toType, TypeExpr.isFlat]
  | list item =>
    obtain ⟨element, -, h⟩ := bind_eq_ok_iff.mp h
    obtain rfl := Except.ok.inj h
    simp [Level.toType, TypeExpr.isFlat]
  | nonNull item =>
    rw [mapLevel] at h
    split at h
    · cases h
    · obtain ⟨inner, hinner, h⟩ := bind_eq_ok_iff.mp h
      obtain rfl := Except.ok.inj h
      cases item with
      | named n =>
        obtain ⟨u, hu, hinner⟩ := bind_eq_ok_iff.mp hinner
        obtain rfl := Except.ok.inj hinner
        exact iff_of_true (isFlat_mapNamed hu) rfl
      | list item =>
        obtain ⟨element, -, hinner⟩ := bind_eq_ok_iff.mp hinner
        obtain rfl := Except.ok.inj hinner
        simp [Level.toType, TypeExpr.isFlat]
      | nonNull item => contradiction

/-- The bottom is in front of brackets if the innermost list has marked items and is spelled with
brackets, and it is spelled so for all single types but interfaces. -/
theorem isExposed_iff {u : TypeExpr} (hleaf : p.mapNamed r.leaf = .ok u) (hu : u.isLeaf = true)
    {level : Level} (h : p.mapLevel access r = .ok level) :
    level.type.isExposed = true ↔ p.catalogue.kindOf? r.leaf ≠ some .interface ∧
      .nonNull (.named r.leaf) ∈ r.items := by
  induction r generalizing level with
  | named n =>
    obtain ⟨u', hu', h⟩ := bind_eq_ok_iff.mp h
    obtain rfl := Except.ok.inj h
    have hexposed := TypeExpr.isExposed_of_isFlat (isFlat_mapNamed hu')
    simp [hexposed, TypeRef.items]
  | list item ih =>
    obtain ⟨element, hitem, h⟩ := bind_eq_ok_iff.mp h
    obtain rfl := Except.ok.inj h
    by_cases hmarked : item = .nonNull (.named item.leaf)
    · obtain ⟨n, rfl⟩ : ∃ n, item = .nonNull (.named n) := ⟨_, hmarked⟩
      have hinner : p.mapLevel access (.nonNull (.named n)) = .ok ⟨false, u⟩ := by
        have hn : p.mapNamed n = .ok u := hleaf
        simp [mapLevel, TypeRef.isNonNull, hn]
      obtain rfl := Except.ok.inj (hinner.symm.trans hitem)
      have hform : p.listForm (.nonNull (.named n)) ⟨false, u⟩ =
          if p.catalogue.kindOf? n = some .interface then .generic else .suffix := by
        simp [listForm, namesInterface, TypeExpr.isMultiUnion_of_isLeaf hu]
      rw [hform]
      have hflat := TypeExpr.isFlat_of_isLeaf hu
      by_cases hkind : p.catalogue.kindOf? n = some .interface
      · simp [hkind, Level.toType, TypeExpr.isExposed, TypeExpr.isExposed_of_isFlat hflat,
          TypeRef.leaf]
      · simp [hkind, Level.toType, TypeExpr.isExposed, hflat, TypeExpr.needsParens_of_isLeaf hu,
          TypeRef.leaf, TypeRef.items]
    · have hflat := Bool.eq_false_iff.mpr (mt (isFlat_toType_iff hitem).mp hmarked)
      have hexposed : ∀ form, (TypeExpr.list element.toType form access).isExposed =
          element.type.isExposed := by
        intro form
        cases form with
        | _ => simp [TypeExpr.isExposed, hflat, Level.isExposed_toType]
      rw [hexposed, ih hleaf hitem, TypeRef.items, List.mem_cons, TypeRef.leaf]
      simp [Ne.symm hmarked]
  | nonNull item ih =>
    rw [mapLevel] at h
    split at h
    · cases h
    · obtain ⟨inner, hinner, h⟩ := bind_eq_ok_iff.mp h
      obtain rfl := Except.ok.inj h
      have hexposed := ih hleaf hinner
      exact hexposed

/-- **Expressions in lists.** An expression of the user is one atom of the written type. It is in front
of the brackets of a list if the items of the list are marked and its name is not that of an interface;
and in all other lists it is enclosed. Then the list is one of whatever the expression is read as, and
where the expression is in front of brackets this is so if it binds as tight as they do. -/
theorem expression_in_lists (hname : p.IsExpression r.leaf text) {t : TypeExpr}
    (h : p.mapType access r = .ok t) :
    t.leaves = [.external (.verbatim text) r.leaf] ∧ t.tokens = t.frame [.atom text] ∧
      (TypeToken.Exposed text t.tokens ↔ p.catalogue.kindOf? r.leaf ≠ some .interface ∧
        .nonNull (.named r.leaf) ∈ r.items) ∧
      (r.items ≠ [] → ¬ TypeToken.Exposed text t.tokens → TypeToken.Enclosed text t.tokens) ∧
      ∀ ts types, TypeReader.Lists ts types → types ≠ [] →
        (TypeToken.Exposed text t.tokens → TypeReader.Fills ts (.unionOf types)) →
        TypeReader.read (t.frame ts) = some (t.withBottom (.unionOf types)) := by
  have hmarked := wellMarked_of_mapType h
  have hexpresses := expresses_of_mapType h
  obtain ⟨level, hlevel, rfl⟩ := map_eq_ok_iff.mp h
  have hbottom : level.toType.bottom = .external (.verbatim text) r.leaf :=
    Except.ok.inj (hexpresses.bottom.symm.trans hname.mapNamed_eq)
  have hparens : level.toType.bottom.needsParens = false := by
    rw [hbottom]
    rfl
  have htokens : level.toType.tokens = level.toType.frame [.atom text] := by
    rw [TypeExpr.tokens_eq_frame, hbottom]
    rfl
  have hexposed : TypeToken.Exposed text level.toType.tokens ↔ level.toType.isExposed = true := by
    rw [htokens]
    exact hmarked.exposed_iff hparens
  refine ⟨?_, htokens, ?_, fun hlists hplace => ?_, fun ts types hts hne hfills => ?_⟩
  · rw [← TypeExpr.leaves_bottom, hbottom]
    rfl
  · rw [hexposed, Level.isExposed_toType]
    exact isExposed_iff hname.mapNamed_eq rfl hlevel
  · have hne : level.toType.lists ≠ [] := fun h =>
      hlists (List.forall₂_nil_right_iff.mp (h ▸ hexpresses.lists))
    obtain ⟨before, opening, marks, closing, behind, hfront, hback, hpair, hmarks⟩ :=
      hmarked.encloses hparens hne (Bool.eq_false_iff.mpr (mt hexposed.mpr hplace))
    refine ⟨before, opening, marks, closing, behind, ?_, hpair, hmarks⟩
    rw [htokens, TypeExpr.frame, hfront, hback, List.append_assoc]
    rfl
  · exact hmarked.read_frame hts hne fun h => hfills (hexposed.mpr h)

/-- Money is a text or a number. -/
def moneyProject : Project where
  catalogue := ⟨builtinScalars.map (⟨·, .scalar⟩) ++ [⟨"Money", .scalar⟩], .none⟩
  overrides := { Overrides.default with scalars := ⟨[("Money", .verbatim "string | number")]⟩ }

/-- The expression as it is read. -/
def moneyTokens : List TypeToken := [.atom "string", .bar, .atom "number"]

theorem isExpression_money : moneyProject.IsExpression "Money" "string | number" :=
  .scalar (by decide) (by decide) (by decide)

theorem lists_moneyTokens : TypeReader.Lists moneyTokens [.declared "string", .declared "number"] :=
  (TypeReader.fills_atom "string").lists.bar (TypeReader.fills_atom "number")

/-- A list of money that may be missing is a list of all that money can be. -/
theorem expression_in_lists_moneyProject :
    ∃ t, moneyProject.mapType .readonly (.list (.named "Money")) = .ok t ∧
      ¬ TypeToken.Exposed "string | number" t.tokens ∧
      TypeReader.read (t.frame moneyTokens) = some (t.withBottom
        (.union [.declared "string", .declared "number"])) := by
  have ht : moneyProject.mapType .readonly (.list (.named "Money")) = .ok (.nullable (.list
      (.nullable (.external (.verbatim "string | number") "Money")) .generic .readonly)) := by rfl
  obtain ⟨-, -, hexposed, -, hread⟩ := expression_in_lists isExpression_money ht
  have hplace : ¬ TypeToken.Exposed "string | number" _ := mt hexposed.mp (by decide)
  exact ⟨_, ht, hplace, hread _ _ lists_moneyTokens (by simp) fun h => absurd h hplace⟩

/-- A list of money that is there is a text or a list of numbers. -/
example : TypeReader.read (moneyTokens ++ [.brackets]) =
    some (.union [.declared "string", .list (.declared "number") .suffix .mutable]) := rfl

/-- It is not true that the list is always one of the whole expression: brackets can be directly behind
a bar of its own, and then they are only for what is behind the bar. -/
theorem expression_in_lists_not_whole :
    ¬ ∀ (p : Project) (spec text : String) (access : Access) (r : TypeRef) (t : TypeExpr)
      (ts : List TypeToken) (types : List TypeExpr),
      Symbol.parse spec = .ok (.verbatim text) → p.IsExpression r.leaf text →
      p.mapType access r = .ok t → TypeToken.join ts = text → TypeReader.Lists ts types →
      1 < types.length → TypeToken.Exposed text t.tokens →
      TypeReader.read (t.frame ts) = some (t.withBottom (.unionOf types)) := by
  intro hall
  have ht : moneyProject.mapType .mutable (.nonNull (.list (.nonNull (.named "Money")))) =
      .ok (.list (.external (.verbatim "string | number") "Money") .suffix .mutable) := by rfl
  have hread := hall moneyProject "string | number" "string | number" .mutable
    (.nonNull (.list (.nonNull (.named "Money")))) _ moneyTokens _ (by rfl) isExpression_money ht
    (by decide) lists_moneyTokens (by decide) ⟨[], [.brackets], rfl, .inr rfl⟩
  nomatch hread

end Project

end ResolverContracts
