import ResolverContracts.Proofs.Document.DefinitionsRead
/-!
# Reading what was written

Every writing of a document, set in a text in any way, is read back: the text has no fault, and the
document that is read from it is the one that was written (`Document.parse_of_layout`).

Definitions stand behind each other without anything in between. What keeps them apart is that a
definition starts with a string or with one of nine words (`definitionOpeners`), none of which goes
on with the definition before.
-/

set_option autoImplicit false

namespace ResolverContracts

open Reader
open Lexeme (word keyword mark)

/-! ## Definitions -/

/-- The keywords of the kinds of types. -/
def typeKeywords : List TokenKind :=
  [.keyword .type, .keyword .interface, .keyword .union, .keyword .enum, .keyword .input,
    .keyword .scalar]

theorem kind_word_keyword (k : Kind) : (word k.keyword).kind ∈ typeKeywords := by
  cases k <;> decide

/-- The kinds of tokens that a definition starts with. -/
def definitionOpeners : List TokenKind :=
  stringKinds ++ .keyword .schema :: .keyword .directive :: .keyword .extend :: typeKeywords

theorem mem_definitionOpeners_of_typeKeywords : ∀ k ∈ typeKeywords, k ∈ definitionOpeners := by
  decide

/-- A definition starts with one of these. -/
theorem Definition.Written.startsAs {d : Definition} {ls : List Lexeme} (h : d.Written ls) :
    StartsAs (· ∈ definitionOpeners) ls := by
  cases h with
  | schema h =>
    obtain ⟨hdescription, -, -⟩ := h
    exact hdescription.startsAs (by decide) (by decide)
  | type h =>
    obtain ⟨hdescription, -, -, -⟩ := h
    exact hdescription.startsAs (by decide)
      (mem_definitionOpeners_of_typeKeywords _ (kind_word_keyword _))
  | directive h =>
    obtain ⟨hdescription, -, -, -⟩ := h
    exact hdescription.startsAs (by decide) (by decide)
  | schemaExtension hplain h | typeExtension hplain h => exact ⟨_, _, rfl, by decide⟩

/-- A type definition behind its description, among the definitions. -/
theorem reads_typeDefinition {d : TypeDefinition} {description : Option Description}
    {ls : List Lexeme} {f : TypeDefinition → Definition}
    (hread : (readTypeDefinition description).Reads ls (Avoids definitionKinds)
      fun e => e.map (·.unplaced) = some d.unplaced)
    (hf : ∀ e : TypeDefinition, e.unplaced = d.unplaced → (f e).unplaced = (f d).unplaced) :
    Reads (do return (← readTypeDefinition description).map f) ls (Avoids definitionKinds)
      fun e => e.map (·.unplaced) = some (f d).unplaced := by
  refine .last hread fun e he => .pure ?_
  obtain ⟨e, rfl, he⟩ := Option.map_eq_some_iff.mp he
  exact congrArg some (hf e (Option.some.inj he))

/-- Where there is no description, a definition starts with what would stand behind it. -/
theorem DescriptionWritten.eq_nil {ls : List Lexeme} (h : DescriptionWritten none ls) : ls = [] := by
  cases h
  rfl

theorem reads_schemaExtension {d : SchemaDefinition} {ls : List Lexeme} (start : Nat)
    (hplain : d.description = none) (h : d.Written ls) :
    (readExtension start).Reads ls (Avoids definitionKinds)
      fun e => e.map (·.unplaced) = some (Definition.schemaExtension d).unplaced := by
  obtain ⟨hdescription, hdirectives, hoperations⟩ := h
  rw [hplain] at hdescription
  rw [hdescription.eq_nil]
  refine .look fun t ht => ?_
  have hschema : t.kind = .keyword .schema := Token.kind_eq ht
  rw [if_pos hschema]
  refine .last (reads_readSchemaDefinition (by rw [hplain]) hdirectives hoperations) fun e he =>
    .pure ?_
  simp only [Option.map_some, Definition.unplaced, he]

theorem reads_typeExtension {d : TypeDefinition} {ls : List Lexeme} (start : Nat)
    (hplain : d.description = none) (h : d.Written ls) :
    (readExtension start).Reads ls (Avoids definitionKinds)
      fun e => e.map (·.unplaced) = some (Definition.typeExtension d).unplaced := by
  obtain ⟨hdescription, himplements, hdirectives, hmembers⟩ := h
  rw [hplain] at hdescription
  rw [hdescription.eq_nil]
  refine .look fun t ht => ?_
  have hschema : t.kind ≠ .keyword .schema := by
    intro hk
    have hmem := kind_word_keyword d.body.kind
    rw [← Token.kind_eq ht, hk] at hmem
    exact absurd hmem (by decide)
  rw [if_neg hschema]
  refine reads_typeDefinition (reads_readTypeDefinition (by rw [hplain]) himplements hdirectives
    hmembers) fun e he => ?_
  rw [Definition.unplaced, Definition.unplaced, he]

/-- The word that extends, and what stands behind it. -/
theorem reads_extend {d : Definition} {ls : List Lexeme}
    (hread : ∀ start, (readExtension start).Reads ls (Avoids definitionKinds)
      fun e => e.map (·.unplaced) = some d.unplaced) :
    readDefinition.Reads (keyword .extend :: ls) (Avoids definitionKinds)
      fun e => e.map (·.unplaced) = some d.unplaced := by
  have hnone : readDescription.Reads [] (Avoids stringKinds) (fun e => e.map (·.unplaced) = none) :=
    reads_readDescription .absent
  refine .bind hnone (fun description hdesc => .look fun t ht => ?_) fun _ _ => by
    simp [Avoids, stringKinds, nextKind, keyword]
  obtain rfl : description = none := Option.map_eq_none_iff.mp hdesc
  rw [Token.kind_eq ht]
  exact .token (reads_advance _) fun _ _ => hread _

/-- Every writing of a definition is read back. -/
theorem reads_readDefinition {d : Definition} {ls : List Lexeme} (h : d.Written ls) :
    readDefinition.Reads ls (Avoids definitionKinds)
      fun e => e.map (·.unplaced) = some d.unplaced := by
  cases h with
  | schema h =>
    obtain ⟨hdescription, hdirectives, hoperations⟩ := h
    refine .bind (reads_readDescription hdescription) (fun description hdesc => ?_) fun _ _ => by
      simp [Avoids, stringKinds, nextKind, keyword]
    refine .look fun t ht => ?_
    rw [Token.kind_eq ht]
    refine .last (reads_readSchemaDefinition hdesc hdirectives hoperations) fun e he => .pure ?_
    simp only [Option.map_some, Definition.unplaced, he]
  | @type d ls h =>
    obtain ⟨hdescription, himplements, hdirectives, hmembers⟩ := h
    refine .bind (reads_readDescription hdescription) (fun description hdesc => ?_) fun _ _ =>
      avoids_stringKinds_word _
    refine .look fun t ht => ?_
    have hread := reads_typeDefinition (f := .type)
      (reads_readTypeDefinition hdesc himplements hdirectives hmembers) fun e he => by
        rw [Definition.unplaced, Definition.unplaced, he]
    -- Six keywords lead to one reader, which looks at the keyword again.
    have hkind := kind_word_keyword d.body.kind
    rw [← Token.kind_eq ht] at hkind
    simp only [typeKeywords, List.mem_cons, List.not_mem_nil, or_false] at hkind
    obtain hk | hk | hk | hk | hk | hk := hkind <;> rw [hk] <;> exact hread
  | directive h =>
    obtain ⟨hdescription, harguments, hrepeatable, hlocations⟩ := h
    refine .bind (reads_readDescription hdescription) (fun description hdesc => ?_) fun _ _ => by
      simp [Avoids, stringKinds, nextKind, keyword]
    refine .look fun t ht => ?_
    rw [Token.kind_eq ht]
    refine .last (reads_readDirectiveDefinition hdesc harguments hrepeatable hlocations) fun e he =>
      .pure ?_
    simp only [Option.map_some, Definition.unplaced, he]
  | schemaExtension hplain h =>
    exact reads_extend fun start => reads_schemaExtension start hplain h
  | typeExtension hplain h =>
    exact reads_extend fun start => reads_typeExtension start hplain h

/-! ## Documents -/

/-- Any definition may follow any other one. -/
theorem openers_follow :
    ∀ k ∈ definitionOpeners, k ≠ .endOfText ∧ Avoids definitionKinds k := by
  decide

/-- The tokens of a writing are read as the document. The loop over definitions ends with the text. -/
theorem Parsed.ofLexed_of_written {d : Document} {lexed : Lexed} (h : d.Written lexed.lexemes) :
    (Parsed.ofLexed lexed).faults = [] ∧
      (Parsed.ofLexed lexed).document.unplaced = d.unplaced := by
  have hread : (itemsUntil .endOfText readDefinition).Reads lexed.lexemes (· = .endOfText)
      fun es => es.map (Option.map (·.unplaced)) = d.definitions.map fun e => some e.unplaced :=
    reads_itemsUntil h (fun _ _ _ hus => reads_readDefinition hus)
      (fun _ _ _ hus => hus.startsAs.mono openers_follow) (by decide)
  -- The row is all there is, so the loop ends at the end of the text.
  obtain ⟨hanswer, -, hfaults⟩ :=
    hread (.start lexed.tokens lexed.stop) [] (List.append_nil _).symm rfl
  refine ⟨hfaults, ?_⟩
  exact congrArg (Document.mk · (.emptyAt 0)) (map_filterMap_id hanswer)

/-- Reading undoes writing: a text that sets any writing of a document has no fault, and the document
read from it is that one, apart from the places of its parts. -/
theorem Document.parse_of_layout {d : Document} {ls : List Lexeme} {text : String}
    (hd : d.Written ls) (htext : Layout ls text.toList) :
    (Document.parse text).diagnostics = .empty ∧
      (Document.parse text).document.unplaced = d.unplaced := by
  have hlexemes : (Lexed.ofText text).lexemes = ls := htext.lexemes 0
  rw [← hlexemes] at hd
  obtain ⟨hfaults, hdocument⟩ := Parsed.ofLexed_of_written hd
  refine ⟨?_, hdocument⟩
  rw [Parsed.diagnostics, Document.parse, hfaults]
  rfl

/-- A scalar and an extension of a union whose names are all keywords, with an empty description and
a negative zero in a list. -/
def keywordsDocument : Document :=
  let place := Span.emptyAt 0
  let zeros : Argument := ⟨⟨"x", place⟩, .list [.int 0 place] place, place⟩
  ⟨[.type ⟨some ⟨"", place⟩, ⟨"on", place⟩, [⟨⟨"d", place⟩, [zeros], place⟩], .scalar, place⟩,
    .typeExtension ⟨none, ⟨"type", place⟩, [], .union [⟨"on", place⟩], place⟩], place⟩

/-- The document in a text with a comment, and with a mark in front of the only member. -/
def keywordsText : String := "\"\" scalar on @ d ( x : [ -0 ] )#c\n extend union type = | on"

/-- The tokens of that text. -/
def keywordsRow : List Lexeme :=
  [⟨.string, "\"\""⟩, word "scalar", word "on", mark .atSign, word "d", mark .parenOpen, word "x",
    mark .colon, mark .bracketOpen, ⟨.int, "-0"⟩, mark .bracketClose, mark .parenClose,
    keyword .extend, word "union", word "type", mark .equals, mark .pipe, word "on"]

theorem keywordsDocument_written : keywordsDocument.Written keywordsRow := by
  have hzeros : Value.Written (.list [.int 0 (.emptyAt 0)] (.emptyAt 0)) _ :=
    .list (.emptyAt 0) (.cons (.scalar (.int (.emptyAt 0) .negativeZero (by decide))) .nil)
  have hrow : Row Definition.Written keywordsDocument.definitions _ :=
    .cons (.type (.parts (.present .string) .absent
        (.cons (.parts (.present (.cons (.parts hzeros) .nil))) .nil) rfl))
      (.cons (.typeExtension rfl (.parts .absent .absent .nil (.present (.behindMark .nil)))) .nil)
  exact hrow

theorem keywordsText_layout : Layout keywordsRow keywordsText.toList := by
  have hspace : ∀ cs, Boundary (' ' :: cs) := fun cs => boundary_cons (by decide)
  -- From the back, since a layout is built in front of the rest of its row.
  have hunion : Layout (keywordsRow.drop 13) _ :=
    .spaced (Lexeme.isSpelled_word rfl) (hspace _) <|
    .spaced (Lexeme.isSpelled_word rfl) (hspace _) <|
    .spaced (Lexeme.isSpelled_mark _) (hspace _) <|
    .spaced (Lexeme.isSpelled_mark _) (hspace _) <|
    .spaced (Lexeme.isSpelled_word rfl) boundary_nil (.blank (.blanks .nil))
  have hcomment : Blanks ('#' :: (['c'] ++ '\n' :: [' '])) :=
    .comment (by decide) (.blank rfl .nil)
  have hextend : Layout (keywordsRow.drop 12) _ :=
    .token hcomment (Lexeme.isSpelled_keyword .extend) (hspace _) hunion
  have hzeros : Layout (keywordsRow.drop 8) _ :=
    .spaced (Lexeme.isSpelled_mark _) (hspace _) <|
    .spaced (.int .minus .zero) (hspace _) <|
    .spaced (Lexeme.isSpelled_mark _) (hspace _) <|
    .spaced (Lexeme.isSpelled_mark _) (boundary_cons (by decide)) hextend
  have hscalar : Layout keywordsRow _ :=
    .token .nil (.string .nil) (hspace _) <|
    .spaced (Lexeme.isSpelled_word rfl) (hspace _) <|
    .spaced (Lexeme.isSpelled_word rfl) (hspace _) <|
    .spaced (Lexeme.isSpelled_mark _) (hspace _) <|
    .spaced (Lexeme.isSpelled_word rfl) (hspace _) <|
    .spaced (Lexeme.isSpelled_mark _) (hspace _) <|
    .spaced (Lexeme.isSpelled_word rfl) (hspace _) <|
    .spaced (Lexeme.isSpelled_mark _) (hspace _) hzeros
  exact hscalar

theorem Document.parse_of_layout_keywordsText :
    keywordsDocument.Written keywordsRow ∧ Layout keywordsRow keywordsText.toList ∧
      (Document.parse keywordsText).diagnostics = .empty ∧
      (Document.parse keywordsText).document.unplaced = keywordsDocument.unplaced :=
  ⟨keywordsDocument_written, keywordsText_layout,
    parse_of_layout keywordsDocument_written keywordsText_layout⟩

end ResolverContracts
