import ResolverContracts.Proofs.Contract.Specifiers
import ResolverContracts.Proofs.Text.Cut
import ResolverContracts.Proofs.Text.Words
/-!
# References read back

What a reference can say is a symbol of a module or an expression (`Symbol.Canonical`): the path of the
module has a `#` at its front at most, the names are identifiers, and nothing has white space at its ends.
Written out, such a symbol is read back (`Symbol.Canonical.parse_display`). A path with `#` in front
is written with a backslash, so that it is cut behind its own `#` and not at it.

There is one path that cannot be written so, the backslash alone: with the `#` behind it, it looks like
the front of such a path. A reference can name it, because the front is looked for before the path is
trimmed.
-/

set_option autoImplicit false

namespace ResolverContracts

/-! ## Identifiers -/

theorem isWhiteSpace_of_isIdentifierChar {c : Char} (h : isIdentifierChar c = true) :
    isWhiteSpace c = false := by
  have hplain : Letters.isAscii c = true := by
    rw [isIdentifierChar, Bool.or_eq_true, Bool.or_eq_true, beq_iff_eq, beq_iff_eq] at h
    rcases h with (h | rfl) | rfl
    · exact Letters.isAscii_of_isAlphanum h
    · rfl
    · rfl
  exact (Letters.forall_isAscii (by decide) hplain :
    isIdentifierChar c = true → isWhiteSpace c = false) h

theorem forall_isIdentifierChar {cs : List Char} (h : isIdentifier cs = true) :
    ∀ c ∈ cs, isIdentifierChar c = true := by
  cases cs with
  | nil => exact List.forall_mem_nil _
  | cons c cs =>
    rw [isIdentifier, Bool.and_eq_true, List.all_eq_true] at h
    refine List.forall_mem_cons.mpr ⟨?_, h.2⟩
    have hstart := h.1
    simp only [isIdentifierStart, isIdentifierChar, Char.isAlphanum, Bool.or_eq_true] at hstart ⊢
    tauto

theorem ne_nil_of_isIdentifier {cs : List Char} (h : isIdentifier cs = true) : cs ≠ [] := by
  rintro rfl
  cases h

theorem trimmed_of_isIdentifier {cs : List Char} (h : isIdentifier cs = true) : Trimmed cs :=
  ⟨fun c hc => isWhiteSpace_of_isIdentifierChar
      (forall_isIdentifierChar h c (List.mem_of_head? hc)),
    fun c hc => isWhiteSpace_of_isIdentifierChar
      (forall_isIdentifierChar h c (List.mem_of_getLast? hc))⟩

theorem blank_not_mem_of_isIdentifier {cs : List Char} (h : isIdentifier cs = true) : ' ' ∉ cs :=
  fun hc => absurd (forall_ne_blank_of_isIdentifier h ' ' hc) (by decide)

/-- No name is refused where each one is an identifier. -/
theorem any_not_isIdentifier_iff {rename : Option (List Char)} :
    rename.any (!isIdentifier ·) = false ↔ ∀ r ∈ rename, isIdentifier r = true := by
  rw [Option.any_eq_false]
  simp

namespace Symbol

/-! ## What a reference can say -/

/-- The symbols that references have. -/
inductive Canonical : Symbol → Prop
  | imported {front path symbol : List Char} {rename : Option (List Char)}
      (hfront : front = [] ∨ front = ['#']) (hpath : path ≠ []) (htrimmed : Trimmed path)
      (hmark : '#' ∉ path) (hsymbol : isIdentifier symbol = true)
      (hrename : ∀ r ∈ rename, isIdentifier r = true) :
      Canonical (.imported (String.ofList (front ++ path)) (bindingOf (String.ofList symbol))
        (rename.map String.ofList))
  | verbatim {cs : List Char} (hne : cs ≠ []) (htrimmed : Trimmed cs) (hmark : '#' ∉ cs) :
      Canonical (.verbatim (String.ofList cs))

/-- What is read as an import is canonical: its path was trimmed, and its names were checked. -/
theorem canonical_of_ofParts {front cs behind : List Char} {s : Symbol}
    (hfront : front = [] ∨ front = ['#']) (hmark : '#' ∉ cs)
    (h : ofParts front cs behind = .ok s) : s.Canonical := by
  simp only [ofParts] at h
  generalize splitRename behind = names at h
  obtain ⟨symbol, rename⟩ := names
  split at h
  · cases h
  next hpath =>
  split at h
  · cases h
  split at h
  · cases h
  next hsymbol =>
  split at h
  · cases h
  next hrename =>
  obtain rfl := Except.ok.inj h
  -- Trimming leaves characters out and brings none in.
  have htrim : '#' ∉ trim cs := by
    intro hmem
    have hdrop := (List.rdropWhile_prefix isWhiteSpace _).subset hmem
    exact hmark ((List.dropWhile_suffix isWhiteSpace).subset hdrop)
  exact .imported hfront (by simpa using hpath) (trimmed_trim cs) htrim (by simpa using hsymbol)
    (any_not_isIdentifier_iff.mp (by simpa using hrename))

theorem canonical_of_ofTrimmed {cs : List Char} (htrimmed : Trimmed cs) {s : Symbol}
    (h : ofTrimmed cs = .ok s) : s.Canonical := by
  unfold ofTrimmed at h
  split at h
  · cases h
  · split at h
    · next hsplit => exact canonical_of_ofParts (.inr rfl) (not_mem_of_splitOnce hsplit) h
    · cases h
  · next hne _ =>
    split at h
    · next hsplit => exact canonical_of_ofParts (.inl rfl) (not_mem_of_splitOnce hsplit) h
    · next hsplit =>
      obtain rfl := Except.ok.inj h
      exact .verbatim hne htrimmed (not_mem_of_splitOnce_eq_none hsplit)

/-- What is read from a text is one of these symbols. -/
theorem canonical_of_parse {text : String} {s : Symbol} (h : parse text = .ok s) : s.Canonical := by
  simp only [parse] at h
  split at h
  · next hsymbol =>
    obtain rfl := Except.ok.inj h
    exact canonical_of_ofTrimmed (trimmed_trim _) hsymbol
  · cases h

/-! ## Reading what is written -/

/-- A trimmed text is read as it is. -/
theorem parse_of_trimmed {text : String} (h : Trimmed text.toList) {r : Except SymbolFlaw Symbol}
    (hr : ofTrimmed text.toList = r) : parse text = r.mapError (⟨text, ·⟩) := by
  rw [parse, trim_of_trimmed h, hr, String.ofList_toList]
  cases r <;> rfl

section Written

variable {front path symbol : List Char} {rename : Option (List Char)}

/-- What stands behind the path of a symbol. -/
def behindPath (symbol : List Char) (rename : Option (List Char)) : List Char :=
  symbol ++ rename.elim [] ([' ', 'a', 's', ' '] ++ ·)

/-- A path as it is written in front of the `#`. -/
def shownPath (front path : List Char) : List Char :=
  if front = [] then path else '\\' :: '#' :: path

/-- Behind the path, the symbol ends at the first blank, as an identifier has none. -/
theorem splitRename_behindPath (hsymbol : isIdentifier symbol = true)
    (hrename : ∀ r ∈ rename, isIdentifier r = true) :
    splitRename (behindPath symbol rename) = (symbol, rename) := by
  have hblank := blank_not_mem_of_isIdentifier hsymbol
  have htrim := trim_of_trimmed (trimmed_of_isIdentifier hsymbol)
  cases rename with
  | none =>
    have hbehind : behindPath symbol none = symbol := List.append_nil symbol
    rw [hbehind, splitRename, splitOnce_of_not_mem hblank, htrim]
  | some r =>
    have hsplit : splitOnce [' ', 'a', 's', ' '] (behindPath symbol (some r)) = some (symbol, r) :=
      splitOnce_append_of_not_mem hblank r
    rw [splitRename, hsplit]
    simp only [htrim, trim_of_trimmed (trimmed_of_isIdentifier (hrename r rfl))]

/-- The parts of a written symbol give the symbol. -/
theorem ofParts_behindPath (hpath : path ≠ []) (htrimmed : Trimmed path)
    (hsymbol : isIdentifier symbol = true) (hrename : ∀ r ∈ rename, isIdentifier r = true) :
    ofParts front path (behindPath symbol rename) =
      .ok (.imported (String.ofList (front ++ path)) (bindingOf (String.ofList symbol))
        (rename.map String.ofList)) := by
  have hempty : path.isEmpty = false := by simpa using hpath
  have hnamed : symbol.isEmpty = false := by simpa using ne_nil_of_isIdentifier hsymbol
  have hrenamed := any_not_isIdentifier_iff.mpr hrename
  simp only [ofParts, trim_of_trimmed htrimmed, splitRename_behindPath hsymbol hrename, hempty, hnamed,
    hsymbol, hrenamed, Bool.not_true, Bool.false_eq_true, if_false]

/-- A path that starts with a mark is shown with a backslash in front. -/
theorem toList_displayPath (hfront : front = [] ∨ front = ['#']) (hmark : '#' ∉ path) :
    (displayPath (String.ofList (front ++ path))).toList = shownPath front path := by
  rw [displayPath, String.toList_ofList]
  rcases hfront with rfl | rfl
  · have hhead : path.head? ≠ some '#' := fun h => hmark (List.mem_of_head? h)
    rw [List.nil_append, if_neg hhead, String.toList_ofList, shownPath, if_pos rfl]
  · rw [List.singleton_append, List.head?_cons, if_pos rfl, String.toList_append, shownPath,
      if_neg (List.cons_ne_nil _ _)]
    exact congrArg ('\\' :: ·) String.toList_ofList

/-- What is written for a symbol of a module. -/
theorem toList_display (hfront : front = [] ∨ front = ['#']) (hmark : '#' ∉ path) :
    (Symbol.imported (String.ofList (front ++ path)) (bindingOf (String.ofList symbol))
        (rename.map String.ofList)).display.toList =
      shownPath front path ++ '#' :: behindPath symbol rename := by
  have hpath := toList_displayPath hfront hmark
  generalize String.ofList (front ++ path) = text at hpath
  have hsymbol : (String.ofList symbol).toList = symbol := String.toList_ofList
  by_cases hdefault : String.ofList symbol = "default"
  · rw [hdefault] at hsymbol
    rw [bindingOf, if_pos hdefault]
    cases rename <;> simp [display, hpath, behindPath, ← hsymbol]
  · rw [bindingOf, if_neg hdefault]
    cases rename <;> simp [display, hpath, behindPath]

theorem behindPath_ne_nil (hsymbol : isIdentifier symbol = true) : behindPath symbol rename ≠ [] :=
  List.append_ne_nil_of_left_ne_nil (ne_nil_of_isIdentifier hsymbol) _

/-- Identifiers have no mark in them, so the first one in a text ends the path. -/
theorem mark_not_mem_behindPath (hsymbol : isIdentifier symbol = true)
    (hrename : ∀ r ∈ rename, isIdentifier r = true) : '#' ∉ behindPath symbol rename := by
  have hidentifier {cs : List Char} (h : isIdentifier cs = true) : '#' ∉ cs :=
    fun hmem => absurd (forall_isIdentifierChar h '#' hmem) (by decide)
  cases rename with
  | none => simpa [behindPath] using hidentifier hsymbol
  | some r => simpa [behindPath] using ⟨hidentifier hsymbol, hidentifier (hrename r rfl)⟩

/-- What is written for a symbol has no white space at its ends: a path starts it, and an identifier
ends it. -/
theorem trimmed_shown (hfront : front = [] ∨ front = ['#']) (hpath : path ≠ [])
    (htrimmed : Trimmed path) (hsymbol : isIdentifier symbol = true)
    (hrename : ∀ r ∈ rename, isIdentifier r = true) :
    Trimmed (shownPath front path ++ '#' :: behindPath symbol rename) := by
  -- The text ends with the rename or, without one, with the symbol; both are identifiers.
  have hlast : ∀ c ∈ (behindPath symbol rename).getLast?, isWhiteSpace c = false := by
    cases rename with
    | none =>
      have hbehind : behindPath symbol none = symbol := List.append_nil symbol
      rw [hbehind]
      exact (trimmed_of_isIdentifier hsymbol).last
    | some r =>
      have hr := hrename r rfl
      have hbehind : behindPath symbol (some r) = (symbol ++ [' ', 'a', 's', ' ']) ++ r := by
        simp [behindPath]
      rw [hbehind, List.getLast?_append_of_ne_nil _ (ne_nil_of_isIdentifier hr)]
      exact (trimmed_of_isIdentifier hr).last
  have hshown : shownPath front path ≠ [] ∧
      ∀ c ∈ (shownPath front path).head?, isWhiteSpace c = false := by
    rcases hfront with rfl | rfl
    · exact ⟨hpath, htrimmed.first⟩
    · refine ⟨List.cons_ne_nil _ _, fun c hc => ?_⟩
      obtain rfl := Option.some.inj hc
      decide
  refine trimmed_append hshown.1 (List.cons_ne_nil _ _) hshown.2 ?_
  rwa [← List.singleton_append, List.getLast?_append_of_ne_nil _ (behindPath_ne_nil hsymbol)]

/-- The path is found again in what is written, unless it is a backslash alone. -/
theorem ofTrimmed_shown (hfront : front = [] ∨ front = ['#']) (hpath : path ≠ [])
    (htrimmed : Trimmed path) (hmark : '#' ∉ path) (hsymbol : isIdentifier symbol = true)
    (hrename : ∀ r ∈ rename, isIdentifier r = true) :
    ofTrimmed (shownPath front path ++ '#' :: behindPath symbol rename) =
      if front ++ path = ['\\'] then .error .missingSymbol
      else .ok (.imported (String.ofList (front ++ path)) (bindingOf (String.ofList symbol))
        (rename.map String.ofList)) := by
  have hsplit : splitOnce ['#'] (path ++ '#' :: behindPath symbol rename) =
      some (path, behindPath symbol rename) := splitOnce_append_of_not_mem hmark _
  have hparts {front : List Char} := @ofParts_behindPath front _ _ _ hpath htrimmed hsymbol hrename
  -- With no mark in front the path is shown as it is, and a backslash alone is read as an escape.
  rcases hfront with rfl | rfl
  · rw [List.nil_append, shownPath, if_pos rfl]
    by_cases hslash : path = ['\\']
    · rw [if_pos hslash, hslash, List.singleton_append, ofTrimmed.eq_2,
        splitOnce_of_not_mem (mark_not_mem_behindPath hsymbol hrename)]
    · rw [if_neg hslash, ofTrimmed.eq_3, hsplit]
      · exact hparts
      · simp
      · -- A path of two characters and more has no `#` in the second place, one of one is no backslash.
        intro ds hds
        cases path with
        | nil => exact hpath rfl
        | cons c cs =>
          obtain ⟨rfl, htail⟩ := List.cons.inj hds
          cases cs with
          | nil => exact hslash rfl
          | cons d cs =>
            obtain ⟨rfl, -⟩ := List.cons.inj htail
            exact hmark (List.mem_cons_of_mem _ List.mem_cons_self)
  · rw [if_neg (by simp)]
    change ofTrimmed ('\\' :: '#' :: (path ++ '#' :: behindPath symbol rename)) = _
    rw [ofTrimmed.eq_2, hsplit]
    exact hparts

end Written

/-- **Reading what is written.** A symbol that a reference can say is read back from what is written for
it, unless its path is a backslash. Then the `#` behind it is taken for that of a path, and none is left
to stand in front of the symbol. -/
theorem Canonical.parse_display {s : Symbol} (h : s.Canonical) :
    parse s.display =
      if s.path? = some "\\" then .error ⟨s.display, .missingSymbol⟩ else .ok s := by
  cases h with
  | @verbatim cs hne htrimmed hmark =>
    -- A verbatim text has no mark to be split at.
    have hread : ofTrimmed cs = .ok (.verbatim (String.ofList cs)) := by
      rw [ofTrimmed.eq_3 _ hne, splitOnce_of_not_mem hmark]
      rintro ds rfl
      exact hmark (List.mem_cons_of_mem _ List.mem_cons_self)
    have htext : (String.ofList cs).toList = cs := String.toList_ofList
    rw [← htext] at htrimmed hread
    rw [if_neg nofun]
    refine (parse_of_trimmed htrimmed hread).trans ?_
    rw [htext]
    rfl
  | @imported front path symbol rename hfront hpath htrimmed hmark hsymbol hrename =>
    have htext := @toList_display _ _ symbol rename hfront hmark
    have hread := ofTrimmed_shown hfront hpath htrimmed hmark hsymbol hrename
    have hslash : String.ofList (front ++ path) = "\\" ↔ front ++ path = ['\\'] := by
      rw [← String.toList_inj, String.toList_ofList]
      rfl
    have hshown := trimmed_shown hfront hpath htrimmed hsymbol hrename
    rw [← htext] at hread hshown
    rw [parse_of_trimmed hshown hread]
    simp only [path?, Option.some_inj, hslash]
    by_cases h : front ++ path = ['\\']
    · rw [if_pos h, if_pos h]
      rfl
    · rw [if_neg h, if_neg h]
      rfl

/-! ## References -/

/-- **References are read back.** Whatever symbol is read from a text, the text written for it is read as
the same symbol, unless the path is a backslash alone; what is written then has no symbol behind a path.
A path is not empty and has no `#` behind its first character, and symbols and other names are
identifiers. -/
theorem display_of_parse {text : String} {s : Symbol} (h : parse text = .ok s) :
    (parse s.display = .ok s ↔ s.path? ≠ some "\\") ∧
      (s.path? = some "\\" → parse s.display = .error ⟨s.display, .missingSymbol⟩) ∧
      ∀ path binding rename, s = .imported path binding rename →
        path ≠ "" ∧ '#' ∉ path.toList.tail ∧
          (∀ symbol, binding = .named symbol → isIdentifier symbol.toList = true) ∧
          ∀ r ∈ rename, isIdentifier r.toList = true := by
  have hcanonical := canonical_of_parse h
  have hread := hcanonical.parse_display
  refine ⟨?_, fun hslash => hread.trans (if_pos hslash), ?_⟩
  · rw [hread]
    by_cases hslash : s.path? = some "\\"
    · simp [hslash]
    · simp [hslash]
  · rintro path binding rename rfl
    -- What a reading gives is canonical, and that says the rest.
    cases hcanonical with
    | @imported front path symbol names hfront hpath _ hmark hsymbol hrename =>
      refine ⟨?_, ?_, fun symbol' hnamed => ?_, fun r hr => ?_⟩
      · rw [← String.toList_inj.ne, String.toList_ofList]
        exact List.append_ne_nil_of_right_ne_nil front hpath
      · rw [String.toList_ofList]
        rcases hfront with rfl | rfl
        · exact fun hmem => hmark (List.mem_of_mem_tail hmem)
        · exact hmark
      · rw [bindingOf] at hnamed
        by_cases hdefault : String.ofList symbol = "default"
        · rw [if_pos hdefault] at hnamed
          cases hnamed
        · rw [if_neg hdefault] at hnamed
          obtain rfl := Binding.named.inj hnamed
          rw [String.toList_ofList]
          exact hsymbol
      · obtain ⟨cs, hcs, rfl⟩ := Option.map_eq_some_iff.mp hr
        rw [String.toList_ofList]
        exact hrename cs hcs

/-- A path with `#` in front, the default export under another name, and white space at every place. -/
theorem display_of_parse_subpath :
    parse " \\# src/x\t#\ndefault as  Book " = .ok (.imported "#src/x" .default (some "Book")) ∧
      (Symbol.imported "#src/x" .default (some "Book")).display = "\\#src/x#default as Book" ∧
      parse "\\#src/x#default as Book" = .ok (.imported "#src/x" .default (some "Book")) := by
  have h : parse " \\# src/x\t#\ndefault as  Book " =
      .ok (.imported "#src/x" .default (some "Book")) := by decide
  exact ⟨h, by decide, (display_of_parse h).1.mpr (by decide)⟩

/-- A backslash that is trimmed stands in front of the `#` when it is written. -/
theorem display_of_parse_backslash :
    ¬ ∀ (text : String) (s : Symbol), parse text = .ok s → parse s.display = .ok s := by
  intro h
  have hread : parse "\\ #Foo" = .ok (.imported "\\" (.named "Foo") none) := by decide
  exact absurd (h _ _ hread) (by decide)

end Symbol

end ResolverContracts
