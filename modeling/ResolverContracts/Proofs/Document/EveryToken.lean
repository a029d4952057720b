import ResolverContracts.Proofs.Document.DefinitionsAccounted
/-!
# Every token is accounted for

A text has no diagnostic exactly if its tokens, all of them and in their order, write the document
that is read from it. So nothing is dropped in silence: a token that is skipped, one that is missing,
one that is stray, or an operation among the definitions leaves a row that writes no document, and
there is an error for it.

Stray tokens are in no writing at all (`Document.Written.noStray`), which is seen part by part.
-/

set_option autoImplicit false

namespace ResolverContracts

open Lexeme (word keyword mark)

/-! ## Stray tokens -/

/-- None of the tokens is stray. -/
def NoStray (ls : List Lexeme) : Prop := ∀ l ∈ ls, l.kind ≠ .stray

/-- A part that is absent has no token at all. -/
@[simp] theorem noStray_nil : NoStray [] := List.forall_mem_nil _

/-- Tokens are looked at one by one. -/
@[simp] theorem noStray_cons {l : Lexeme} {ls : List Lexeme} :
    NoStray (l :: ls) ↔ l.kind ≠ .stray ∧ NoStray ls :=
  List.forall_mem_cons

/-- A part made of parts has the tokens of each. With the lemmas below this splits every row of a
writing into the rows of its parts. -/
@[simp] theorem noStray_append {ls more : List Lexeme} :
    NoStray (ls ++ more) ↔ NoStray ls ∧ NoStray more :=
  List.forall_mem_append

/-- A word is a name or a keyword. -/
@[simp] theorem kind_word_ne_stray (text : String) : (word text).kind ≠ .stray :=
  TokenKind.ofWord_ne text rfl

@[simp] theorem kind_keyword_ne_stray (k : Keyword) : (keyword k).kind ≠ .stray := nofun

/-- A mark is one of the punctuators, and a stray character is one that is not. -/
@[simp] theorem kind_mark_ne_stray (p : Punctuator) : (mark p).kind ≠ .stray := nofun

section Rows

variable {α : Type} {W : α → List Lexeme → Prop} {xs : List α} {ls : List Lexeme}

/-- A row is as clean as the writings of its items. -/
theorem Row.noStray (h : Row W xs ls) (hW : ∀ x ∈ xs, ∀ us, W x us → NoStray us) : NoStray ls := by
  induction h with
  | nil => exact noStray_nil
  | cons hx _ ih =>
    rw [List.forall_mem_cons] at hW
    exact noStray_append.mpr ⟨hW.1 _ hx, ih hW.2⟩

/-- Brackets are marks, so what matters is between them. -/
theorem Bracketed.noStray {opening closing : Punctuator} (h : Bracketed opening closing W xs ls)
    (hW : ∀ x us, W x us → NoStray us) : NoStray ls := by
  cases h with
  | absent => exact noStray_nil
  | present hrow => simpa using hrow.noStray fun x _ => hW x

/-- Words with marks in between, and perhaps one in front. -/
theorem Separated.noStray {p : Punctuator} {text : α → String} (h : Separated p text xs ls) :
    NoStray ls := by
  cases h with
  | plain hrow | behindMark hrow => simpa using hrow.noStray fun x _ us hus => by simp [hus]

/-- A list of names behind a token that opens it. -/
theorem Listed.noStray {opener : Lexeme} {p : Punctuator} {names : List Name}
    (hopener : opener.kind ≠ .stray) (h : Listed opener p names ls) : NoStray ls := by
  cases h with
  | absent => exact noStray_nil
  | present h => exact noStray_cons.mpr ⟨hopener, h.noStray⟩

end Rows

section Parts

variable {ls : List Lexeme}

/-- A string that is closed is a string token, of one kind or the other. -/
theorem StringWritten.kind_ne_stray {contents : String} {l : Lexeme} (h : StringWritten contents l) :
    l.kind ≠ .stray := by
  cases h <;> exact nofun

/-- A description is a string, if it is there. -/
theorem DescriptionWritten.noStray {d : Option Description} (h : DescriptionWritten d ls) :
    NoStray ls := by
  cases h with
  | absent => exact noStray_nil
  | present h => exact noStray_cons.mpr ⟨h.kind_ne_stray, noStray_nil⟩

/-- A type is a name with marks around it. -/
theorem TypeNode.Written.noStray {type : TypeNode} (h : type.Written ls) : NoStray ls := by
  induction h <;> simp [*]

/-- A constant of one token is a number, a string, a word or a keyword. -/
theorem Value.ScalarWritten.kind_ne_stray {v : Value} {l : Lexeme} (h : v.ScalarWritten l) :
    l.kind ≠ .stray := by
  cases h with
  | string span h => exact h.kind_ne_stray
  | int | float => exact nofun
  | _ => simp

/-- In a constant, either. What stands in its brackets is smaller. -/
theorem noStray_value (v : Value) {ls : List Lexeme} (h : v.Written ls) : NoStray ls := by
  cases h with
  | scalar h => simpa using h.kind_ne_stray
  | @list items ls span hrow =>
    simpa using hrow.noStray fun w hw us hus => noStray_value w hus
  | @object fields ls span hrow =>
    have hfields : NoStray ls := hrow.noStray fun f hf us hus => by
      cases hus with
      | field name hv => simpa using noStray_value _ hv
    simpa using hfields
termination_by sizeOf v
decreasing_by
  · have := List.sizeOf_lt_of_mem hw
    simp only [Value.list.sizeOf_spec]
    omega
  · have := List.sizeOf_lt_of_mem hf
    simp only [Value.object.sizeOf_spec, Prod.mk.sizeOf_spec] at this ⊢
    omega

/-- Directives have names, and constants as arguments. -/
theorem noStray_directives {ds : List Directive} (h : Row Directive.Written ds ls) : NoStray ls := by
  refine h.noStray fun d _ us hd => ?_
  obtain ⟨harguments⟩ := hd
  have hall : NoStray _ := harguments.noStray fun a us ha => by
    obtain ⟨hvalue⟩ := ha
    simpa using noStray_value _ hvalue
  simpa using hall

/-- A default is a mark and a constant, if it is there. -/
theorem DefaultWritten.noStray {v : Option Value} (h : DefaultWritten v ls) : NoStray ls := by
  cases h with
  | absent => exact noStray_nil
  | present hv => simpa using noStray_value _ hv

/-- The four parts of an argument or input field, one by one. -/
theorem InputDefinition.Written.noStray {d : InputDefinition} (h : d.Written ls) : NoStray ls := by
  obtain ⟨hdescription, htype, hdefault, hdirectives⟩ := h
  simp [hdescription.noStray, htype.noStray, hdefault.noStray, noStray_directives hdirectives]

/-- Arguments are input fields in brackets. -/
theorem noStray_arguments {ds : List InputDefinition} (h : ArgumentsWritten ds ls) : NoStray ls :=
  h.noStray fun _ _ hd => hd.noStray

/-- The parts of a field, its arguments among them. -/
theorem FieldDefinition.Written.noStray {d : FieldDefinition} (h : d.Written ls) : NoStray ls := by
  obtain ⟨hdescription, harguments, htype, hdirectives⟩ := h
  simp [hdescription.noStray, noStray_arguments harguments, htype.noStray,
    noStray_directives hdirectives]

/-- The parts of an enum value. Its name is a word, whichever it is. -/
theorem EnumValueDefinition.Written.noStray {d : EnumValueDefinition} (h : d.Written ls) :
    NoStray ls := by
  obtain ⟨hdescription, -, hdirectives⟩ := h
  simp [hdescription.noStray, noStray_directives hdirectives]

/-- The members of a type by its kind: names for a union, and definitions in brackets for the others. -/
theorem TypeBody.noStray_members {b : TypeBody} (h : b.MembersWritten ls) : NoStray ls := by
  cases b with
  | scalar =>
    obtain rfl : ls = [] := h
    exact noStray_nil
  | object _ fields | interface _ fields =>
    exact Bracketed.noStray h fun _ _ hd => FieldDefinition.Written.noStray hd
  | union members => exact Listed.noStray (kind_mark_ne_stray _) h
  | enum values => exact Bracketed.noStray h fun _ _ hd => EnumValueDefinition.Written.noStray hd
  | inputObject fields => exact Bracketed.noStray h fun _ _ hd => InputDefinition.Written.noStray hd

/-- A type is the same parts for all kinds, but for its members. -/
theorem TypeDefinition.Written.noStray {d : TypeDefinition} (h : d.Written ls) : NoStray ls := by
  obtain ⟨hdescription, himplements, hdirectives, hmembers⟩ := h
  simp [hdescription.noStray, himplements.noStray, noStray_directives hdirectives,
    TypeBody.noStray_members hmembers]

/-- An operation that is bound is a keyword, a mark and a name. -/
theorem SchemaDefinition.Written.noStray {d : SchemaDefinition} (h : d.Written ls) : NoStray ls := by
  obtain ⟨hdescription, hdirectives, hoperations⟩ := h
  have hbindings : NoStray _ := hoperations.noStray fun b us hb => by
    cases hb
    simp
  simp [hdescription.noStray, noStray_directives hdirectives, hbindings]

theorem RepeatableWritten.noStray {b : Bool} (h : RepeatableWritten b ls) : NoStray ls := by
  cases h <;> simp

/-- Locations are words, whatever they say. -/
theorem DirectiveDefinition.Written.noStray {d : DirectiveDefinition} (h : d.Written ls) :
    NoStray ls := by
  obtain ⟨hdescription, harguments, hrepeatable, hlocations⟩ := h
  simp [hdescription.noStray, noStray_arguments harguments, hrepeatable.noStray, hlocations.noStray]

/-- A definition, with a keyword in front if it is an extension. -/
theorem Definition.Written.noStray {d : Definition} (h : d.Written ls) : NoStray ls := by
  cases h with
  | schema h | schemaExtension _ h | type h | typeExtension _ h | directive h => simpa using h.noStray

end Parts

/-- **No writing has a stray token.** So a text that has one is not the writing of any document. -/
theorem Document.Written.noStray {d : Document} {ls : List Lexeme} (h : d.Written ls) : NoStray ls :=
  Row.noStray h fun _ _ _ hd => Definition.Written.noStray hd

/-! ## Texts without diagnostics -/

/-- Every fault of a text is an error. -/
theorem Fault.severity_toDiagnostic (f : Fault) : f.toDiagnostic.severity = .error := by
  unfold toDiagnostic
  repeat' split
  all_goals rfl

/-- Diagnostics are faults in words, one for each. -/
theorem Parsed.diagnostics_eq_empty_iff (p : Parsed) : p.diagnostics = .empty ↔ p.faults = [] := by
  simp [diagnostics, Diagnostics.empty]

/-- There are no warnings among the diagnostics of a text, so one diagnostic is one error. -/
theorem Parsed.hasErrors_of_ne_empty {p : Parsed} (h : p.diagnostics ≠ .empty) :
    p.diagnostics.hasErrors = true := by
  obtain ⟨f, hf⟩ := List.exists_mem_of_ne_nil _ (mt p.diagnostics_eq_empty_iff.mpr h)
  rw [diagnostics, Diagnostics.hasErrors, List.any_map, List.any_eq_true]
  exact ⟨f, hf, beq_iff_eq.mpr f.severity_toDiagnostic⟩

/-- Read without a fault, the tokens write what was read; and what is a writing of a document is read as
that document, without a fault. -/
theorem Document.parse_diagnostics_eq_empty_iff (text : String) :
    (Document.parse text).diagnostics = .empty ↔
      (Document.parse text).document.Written (Lexed.ofText text).lexemes := by
  rw [Parsed.diagnostics_eq_empty_iff]
  constructor
  · exact Parsed.written_of_ofLexed (isScanned_lexemesFrom 0 text.toList)
  · exact fun h => (Parsed.ofLexed_of_written h).1

/-- **Nothing is dropped in silence.** A text has no diagnostic exactly if the row of its tokens is a
writing of the document read from it, and where it has one, there is an error. That is so, in
particular, if one of the tokens is stray. -/
theorem Document.parse_accounts_for_tokens (text : String) :
    ((Document.parse text).diagnostics = .empty ↔
      (Document.parse text).document.Written (Lexed.ofText text).lexemes) ∧
    (¬ (Document.parse text).document.Written (Lexed.ofText text).lexemes →
      (Document.parse text).diagnostics.hasErrors = true) ∧
    ((∃ t ∈ (Lexed.ofText text).tokens, t.kind = .stray) →
      (Document.parse text).diagnostics.hasErrors = true) := by
  have hiff := parse_diagnostics_eq_empty_iff text
  have herror (h : ¬ (Document.parse text).document.Written (Lexed.ofText text).lexemes) :
      (Document.parse text).diagnostics.hasErrors = true :=
    Parsed.hasErrors_of_ne_empty (mt hiff.mp h)
  refine ⟨hiff, herror, ?_⟩
  rintro ⟨t, ht, hstray⟩
  exact herror fun hwritten => hwritten.noStray t.lexeme (List.mem_map_of_mem ht) hstray

end ResolverContracts
