import ResolverContracts.Proofs.Contract.TypeReader
/-!
# Frames of written types

The levels of a type are written around what is at its bottom: something in front for each list, and
something behind for each list and for each place where nothing is allowed. So a written type is a
frame with its bottom in the middle (`TypeExpr.tokens_eq_frame`).

A frame can be read whatever is in the middle, as long as that is read as types itself
(`TypeExpr.WellMarked.read_frame`), and what is read has the levels of the frame. There is one condition. If
the innermost list is written with brackets and they come directly behind the middle, then the middle
has to bind as tight as they do.
-/

set_option autoImplicit false

namespace ResolverContracts

namespace TypeToken

/-- Whether a token is a sign, and no leaf. -/
def isSign : TypeToken → Bool
  | atom _ => false
  | _ => true

/-- Whether an operand comes behind the token. -/
def opens : TypeToken → Bool
  | readonly | openList _ | openParen => true
  | _ => false

theorem isSign_of_opens {t : TypeToken} (h : t.opens = true) : t.isSign = true := by
  cases t with
  | atom text => nomatch h
  | _ => rfl

/-- Signs have no leaves among them, so what a frame adds to a row leaves its atoms alone. -/
theorem atoms_of_isSign {ts : List TypeToken} (h : ∀ t ∈ ts, t.isSign = true) : atoms ts = [] := by
  refine List.filterMap_eq_nil_iff.mpr fun t ht => ?_
  cases t with
  | atom text => nomatch h _ ht
  | _ => rfl

end TypeToken

namespace TypeExpr

open TypeToken

/-! ## Frames -/

/-- What is written in front of the bottom of a type. -/
def front : TypeExpr → List TypeToken
  | nullable inner => inner.front
  | list element .generic access => openList access :: element.front
  | list element .suffix access =>
    (match access with
      | .readonly => [readonly]
      | .mutable => []) ++
    (if element.needsParens then [openParen] else []) ++ element.front
  | _ => []

/-- What is written behind the bottom of a type. -/
def back : TypeExpr → List TypeToken
  | nullable inner => inner.back ++ [bar, null, bar, undefined]
  | list element .generic _ => element.back ++ [closeList]
  | list element .suffix _ =>
    element.back ++ (if element.needsParens then [closeParen] else []) ++ [brackets]
  | _ => []

/-- Tokens with the levels of a type around. -/
def frame (t : TypeExpr) (ts : List TypeToken) : List TypeToken := t.front ++ (ts ++ t.back)

/-- The bottom of a type is in the middle of it. -/
theorem tokens_eq_frame : ∀ t : TypeExpr, t.tokens = t.frame t.bottom.tokens
  | nullable inner => by simp [tokens, frame, front, back, bottom, tokens_eq_frame inner]
  | list element .generic access => by
    simp [tokens, frame, front, back, bottom, tokens_eq_frame element]
  | list element .suffix access => by
    cases hparens : element.needsParens with
    | _ =>
      cases access with
      | _ => simp [tokens, frame, front, back, bottom, tokens_eq_frame element, hparens]
  | primitive _ => (List.append_nil _).symm
  | named _ => (List.append_nil _).symm
  | emptyRecord => rfl
  | .parameter _ => (List.append_nil _).symm
  | union _ => (List.append_nil _).symm

/-- In front of the bottom there is nothing but openings, so an operand is still to come there. -/
theorem opens_of_mem_front : ∀ (t : TypeExpr), ∀ token ∈ t.front, token.opens = true
  | nullable inner => opens_of_mem_front inner
  | list element .generic access => by
    simpa [front, opens] using opens_of_mem_front element
  | list element .suffix access => by
    cases hparens : element.needsParens with
    | _ =>
      cases access with
      | _ => simpa [front, opens, hparens] using opens_of_mem_front element
  | primitive _ => nofun
  | named _ => nofun
  | emptyRecord => nofun
  | .parameter _ => nofun
  | union _ => nofun

/-- Behind the bottom there are signs only: a frame never brings a leaf of its own. -/
theorem isSign_of_mem_back : ∀ (t : TypeExpr), ∀ token ∈ t.back, token.isSign = true
  | nullable inner => by
    simpa [back, isSign, or_imp, forall_and] using isSign_of_mem_back inner
  | list element .generic access => by
    simpa [back, isSign, or_imp, forall_and] using isSign_of_mem_back element
  | list element .suffix access => by
    cases hparens : element.needsParens with
    | _ => simpa [back, isSign, hparens, or_imp, forall_and] using isSign_of_mem_back element
  | primitive _ => nofun
  | named _ => nofun
  | emptyRecord => nofun
  | .parameter _ => nofun
  | union _ => nofun

/-- The type with something else at the bottom. -/
def withBottom : TypeExpr → TypeExpr → TypeExpr
  | nullable inner, bottom => nullable (inner.withBottom bottom)
  | list element form access, bottom => list (element.withBottom bottom) form access
  | _, bottom => bottom

/-- Whether the bottom is directly in front of brackets. -/
def isExposed : TypeExpr → Bool
  | nullable inner => inner.isExposed
  | list element .suffix _ => (element.isFlat && !element.needsParens) || element.isExposed
  | list element .generic _ => element.isExposed
  | _ => false

/-- At each level nothing is allowed only once. -/
inductive WellMarked : TypeExpr → Prop
  | flat {t : TypeExpr} (h : t.isFlat = true) : WellMarked t
  | list {element : TypeExpr} (form : ListForm) (access : Access) (h : WellMarked element) :
    WellMarked (list element form access)
  | nullable {inner : TypeExpr} (h : WellMarked inner) (hinner : inner.isNullable = false) :
    WellMarked (nullable inner)

section Flat

variable {t : TypeExpr}

theorem front_of_isFlat (h : t.isFlat = true) : t.front = [] := by
  cases t with
  | nullable inner => nomatch h
  | list element form access => nomatch h
  | _ => rfl

theorem back_of_isFlat (h : t.isFlat = true) : t.back = [] := by
  cases t with
  | nullable inner => nomatch h
  | list element form access => nomatch h
  | _ => rfl

/-- The frame of a type without levels is empty, which is where the inductions over the levels end. -/
theorem frame_of_isFlat (h : t.isFlat = true) (ts : List TypeToken) : t.frame ts = ts := by
  rw [frame, front_of_isFlat h, back_of_isFlat h, List.nil_append, List.append_nil]

theorem withBottom_of_isFlat (h : t.isFlat = true) (bottom : TypeExpr) :
    t.withBottom bottom = bottom := by
  cases t with
  | nullable inner => nomatch h
  | list element form access => nomatch h
  | _ => rfl

end Flat

/-! ## What the frame leaves as it is -/

variable {b : TypeExpr}

/-- The bottom has a level of its own, which a flat one leaves unmarked. So what is allowed where is a
matter of the frame alone, and so are the lists. -/
theorem nullables_withBottom (hb : b.isFlat = true) :
    ∀ t : TypeExpr, (t.withBottom b).nullables = t.nullables
  | nullable inner => congrArg (List.modifyHead (· + 1)) (nullables_withBottom hb inner)
  | list element _ _ => congrArg (0 :: ·) (nullables_withBottom hb element)
  | primitive _ => nullables_of_isFlat hb
  | named _ => nullables_of_isFlat hb
  | emptyRecord => nullables_of_isFlat hb
  | .parameter _ => nullables_of_isFlat hb
  | union _ => nullables_of_isFlat hb

theorem lists_withBottom (hb : b.isFlat = true) :
    ∀ t : TypeExpr, (t.withBottom b).lists = t.lists
  | nullable inner => lists_withBottom hb inner
  | list element form access => congrArg ((form, access) :: ·) (lists_withBottom hb element)
  | primitive _ => lists_of_isFlat hb
  | named _ => lists_of_isFlat hb
  | emptyRecord => lists_of_isFlat hb
  | .parameter _ => lists_of_isFlat hb
  | union _ => lists_of_isFlat hb

theorem bottom_withBottom (hb : b.isFlat = true) : ∀ t : TypeExpr, (t.withBottom b).bottom = b
  | nullable inner => bottom_withBottom hb inner
  | list element _ _ => bottom_withBottom hb element
  | primitive _ => bottom_of_isFlat hb
  | named _ => bottom_of_isFlat hb
  | emptyRecord => bottom_of_isFlat hb
  | .parameter _ => bottom_of_isFlat hb
  | union _ => bottom_of_isFlat hb

/-! ## Reading a frame -/

section Reading

open TypeReader

variable {t element : TypeExpr} {ts : List TypeToken} {types : List TypeExpr}

/-- How a frame with tokens in it is read, for each place where it can stand. The tokens alone need not
be a single alternative. -/
structure FrameReads (t : TypeExpr) (ts : List TypeToken) (b : TypeExpr) : Prop where
  fills : t.isFlat = false → t.needsParens = false → Fills (t.frame ts) (t.withBottom b)
  lists : t.isNullable = false →
    ∃ types, types ≠ [] ∧ unionOf types = t.withBottom b ∧ Lists (t.frame ts) types
  makes : Makes (t.frame ts) (t.withBottom b)

theorem FrameReads.of_fills (h : Fills (t.frame ts) (t.withBottom b)) : FrameReads t ts b where
  fills _ _ := h
  lists _ := ⟨_, List.cons_ne_nil _ _, rfl, h.lists⟩
  makes := h.lists.makes (List.cons_ne_nil _ _)

/-- In front of brackets an element is a single alternative, if need be in parentheses. -/
theorem FrameReads.fills_element (h : FrameReads element ts b)
    (hflat : element.isFlat = true → element.needsParens = false → Fills ts b) :
    Fills (if element.needsParens then openParen :: element.frame ts ++ [closeParen]
      else element.frame ts) (element.withBottom b) := by
  cases hparens : element.needsParens with
  | true => exact h.makes.parens
  | false =>
    cases helement : element.isFlat with
    | false => exact h.fills helement hparens
    | true =>
      rw [frame_of_isFlat helement, withBottom_of_isFlat helement]
      exact hflat helement hparens

theorem FrameReads.generic (h : FrameReads element ts b) (access : Access) :
    FrameReads (list element .generic access) ts b := by
  refine .of_fills ?_
  have hfills := h.makes.generic access
  simpa [frame, front, back, withBottom] using hfills

theorem frame_suffix (element : TypeExpr) (access : Access) (ts : List TypeToken) :
    (list element .suffix access).frame ts = (match access with
      | .readonly => [readonly]
      | .mutable => []) ++ (if element.needsParens then openParen :: element.frame ts ++ [closeParen]
        else element.frame ts) ++ [brackets] := by
  cases hparens : element.needsParens with
  | _ =>
    cases access with
    | _ => simp [frame, front, back, hparens]

/-- Brackets make one alternative of their element. With `readonly` in front it is one only as long as
nothing else comes behind, so it does not fill a place in front of further brackets. -/
theorem FrameReads.suffix (h : FrameReads element ts b)
    (hflat : element.isFlat = true → element.needsParens = false → Fills ts b) (access : Access) :
    FrameReads (list element .suffix access) ts b := by
  have hfills := h.fills_element hflat
  cases access with
  | mutable =>
    refine .of_fills ?_
    rw [frame_suffix]
    exact hfills.brackets
  | readonly =>
    have hlists := hfills.readonly
    refine ⟨nofun, fun _ => ⟨[(list element .suffix .readonly).withBottom b], List.cons_ne_nil _ _,
      rfl, ?_⟩, ?_⟩
    · rw [frame_suffix]
      exact hlists
    · rw [frame_suffix]
      exact hlists.makes (List.cons_ne_nil _ _)

/-- What may be nothing is a union, and so is made at a place of its own only. -/
theorem FrameReads.nullable (h : FrameReads t ts b) (ht : t.isNullable = false) :
    FrameReads (nullable t) ts b := by
  obtain ⟨types, hne, htypes, hlists⟩ := h.lists ht
  refine ⟨nofun, nofun, ?_⟩
  have hmakes := hlists.nullable hne
  rw [htypes] at hmakes
  simpa [frame, front, back, withBottom] using hmakes

/-- The induction is on the levels of the type, each of which is read around what has been read. -/
theorem WellMarked.frameReads (ht : t.WellMarked) (hts : Lists ts types) (hne : types ≠ [])
    (hfills : t.isExposed = true → Fills ts (unionOf types)) : FrameReads t ts (unionOf types) := by
  induction ht with
  | @flat t h =>
    refine ⟨fun hflat => absurd (h.symm.trans hflat) nofun, fun _ => ⟨types, hne, ?_, ?_⟩, ?_⟩
    · exact (withBottom_of_isFlat h _).symm
    · rw [frame_of_isFlat h]
      exact hts
    · rw [frame_of_isFlat h, withBottom_of_isFlat h]
      exact hts.makes hne
  | @list element form access h ih =>
    cases form with
    | generic => exact (ih hfills).generic access
    | suffix =>
      refine (ih fun h => hfills ?_).suffix (fun hflat hparens => hfills ?_) access
      · simp [isExposed, h]
      · simp [isExposed, hflat, hparens]
  | nullable h hinner ih => exact (ih hfills).nullable hinner

/-- **Reading a frame.** Whatever is read as types in the middle, the frame is read as its levels around
them, if it has parentheses or brackets of its own between it and a pair of brackets, or if what is in
the middle can do without. -/
theorem WellMarked.read_frame (ht : t.WellMarked) (hts : Lists ts types) (hne : types ≠ [])
    (hfills : t.isExposed = true → Fills ts (unionOf types)) :
    read (t.frame ts) = some (t.withBottom (unionOf types)) :=
  (ht.frameReads hts hne hfills).makes.read

end Reading

end TypeExpr

/-! ## Resolved types -/

theorem Level.wellMarked_toType {level : Level} (h : level.type.WellMarked)
    (hnullable : level.type.isNullable = false) : level.toType.WellMarked := by
  rw [toType]
  split
  · exact .nullable h hnullable
  · exact h

theorem Level.isExposed_toType (level : Level) : level.toType.isExposed = level.type.isExposed := by
  rw [toType]
  split
  · rfl
  · rfl

namespace Project

variable {p : Project} {access : Access} {r : TypeRef} {t : TypeExpr}

/-- Resolution keeps the mark of a level apart from its type, so none is doubled when it is put on. -/
theorem wellMarked_of_mapLevel {level : Level} (h : p.mapLevel access r = .ok level) :
    level.type.WellMarked ∧ level.type.isNullable = false := by
  induction r generalizing level with
  | named name =>
    rw [mapLevel, bind_eq_ok_iff] at h
    obtain ⟨u, hu, h⟩ := h
    obtain rfl := Except.ok.inj h
    have hflat := isFlat_mapNamed hu
    exact ⟨.flat hflat, TypeExpr.isNullable_of_isFlat hflat⟩
  | list item ih =>
    rw [mapLevel, bind_eq_ok_iff] at h
    obtain ⟨element, hitem, h⟩ := h
    obtain rfl := Except.ok.inj h
    exact ⟨.list _ _ (Level.wellMarked_toType (ih hitem).1 (ih hitem).2), rfl⟩
  | nonNull item ih =>
    rw [mapLevel] at h
    split at h
    · cases h
    · obtain ⟨inner, hitem, h⟩ := bind_eq_ok_iff.mp h
      obtain rfl := Except.ok.inj h
      have hinner := ih hitem
      exact hinner

/-- A mark of a reference says once that something has to be there, and so does resolution. -/
theorem wellMarked_of_mapType (h : p.mapType access r = .ok t) : t.WellMarked := by
  obtain ⟨level, hlevel, rfl⟩ := map_eq_ok_iff.mp h
  obtain ⟨hmarked, hnullable⟩ := wellMarked_of_mapLevel hlevel
  exact Level.wellMarked_toType hmarked hnullable

end Project

end ResolverContracts
