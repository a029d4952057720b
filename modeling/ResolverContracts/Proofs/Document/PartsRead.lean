import ResolverContracts.Proofs.Document.Reads
import ResolverContracts.Proofs.Document.Unplaced
/-!
# Names, types and constants, read back

The readers of names, descriptions, types and constants read every writing of these. The answer is
the part apart from its places.

Types and constants nest, and their readers call themselves. For types the induction is on the
writing; for constants it is on the constant, since the elements of a list are written in a row of
their own.
-/

set_option autoImplicit false

namespace ResolverContracts

open Reader
open Lexeme (word keyword mark)

/-! ## Names and descriptions -/

theorem Token.kind_eq {t : Token} {l : Lexeme} (h : t.lexeme = l) : t.kind = l.kind := by
  rw [← h]
  rfl

theorem Token.text_eq {t : Token} {l : Lexeme} (h : t.lexeme = l) : t.text = l.text := by
  rw [← h]
  rfl

/-- Any word is read as a name. -/
theorem reads_readName (name : Name) :
    readName.Reads [word name.text] Anything fun n => n.unplaced = name.unplaced := by
  refine .look fun t ht => ?_
  have hkind : t.kind.isName = true := by
    rw [Token.kind_eq ht]
    exact Lexeme.isName_word name.text
  rw [if_pos hkind]
  refine .token (reads_advance _) fun _ _ => .pure ?_
  simp only [Name.unplaced, Token.text_eq ht, word]

theorem withoutEnds_betweenQuotes (n : Nat) (contents : String) :
    withoutEnds n (betweenQuotes n contents) = contents := by
  have hlength : n + (contents.toList.length + n) - 2 * n = contents.toList.length := by omega
  simp only [withoutEnds, betweenQuotes, String.toList_ofList, List.length_append, List.length_replicate,
    hlength, List.drop_left' (List.length_replicate ..), List.take_left, String.ofList_toList]

theorem StringWritten.contents {contents : String} {l : Lexeme} (h : StringWritten contents l)
    {t : Token} (ht : t.lexeme = l) : t.contents? = some contents := by
  have hkind := Token.kind_eq ht
  have htext := Token.text_eq ht
  cases h <;> simp [Token.contents?, hkind, htext, withoutEnds_betweenQuotes]

/-- The kinds of strings. -/
def stringKinds : List TokenKind := [.string, .blockString]

theorem StringWritten.kind {contents : String} {l : Lexeme} (h : StringWritten contents l) :
    l.kind ∈ stringKinds := by
  cases h <;> simp [stringKinds]

theorem contents?_eq_none {t : Token} (h : Avoids stringKinds t.kind) : t.contents? = none := by
  unfold Token.contents?
  split
  · next hk => simp [Avoids, stringKinds, hk] at h
  · next hk => simp [Avoids, stringKinds, hk] at h
  · rfl

/-- A description that is left out is read as none, as long as no string follows. -/
theorem reads_readDescription {d : Option Description} {ls : List Lexeme}
    (h : DescriptionWritten d ls) :
    readDescription.Reads ls (Avoids stringKinds)
      fun e => e.map (·.unplaced) = d.map (·.unplaced) := by
  cases h with
  | absent =>
    refine .lookBehind fun t ht => ?_
    rw [contents?_eq_none ht]
    exact .pure rfl
  | present hl =>
    refine .look fun t ht => ?_
    rw [hl.contents ht]
    exact .token (reads_advance _) fun _ _ => .pure rfl

/-! ## Types -/

/-- A type with no mark behind it stays as it is. -/
theorem reads_closeType (start : Nat) {type expected : TypeNode}
    (h : type.unplaced = expected.unplaced) :
    (closeType start type).Reads [] (Avoids [.punct .bang])
      fun t => t.unplaced = expected.unplaced := by
  refine .last (reads_eat_avoided _) fun closed hclosed => ?_
  rw [hclosed]
  exact .pure h

theorem reads_closeType_bang (start : Nat) (span : Span) {type expected : TypeNode}
    (h : type.unplaced = expected.unplaced) :
    (closeType start type).Reads [mark .bang] Anything
      fun t => t.unplaced = (TypeNode.nonNull expected span).unplaced := by
  refine .token (reads_eat rfl) fun closed hclosed => ?_
  rw [hclosed]
  exact .spanned fun _ => by rw [TypeNode.unplaced, TypeNode.unplaced, h]

/-- A name and what closes the type behind it. -/
theorem readType_of_word {name : Name} {more : List Lexeme} {F : TokenKind → Prop}
    {P : TypeNode → Prop}
    (hclose : ∀ start n, n.unplaced = name.unplaced →
      (closeType start (.named n)).Reads more F P) :
    Reads readType (word name.text :: more) F P := by
  intro c rest hc hrest
  have hk : ¬ c.kind = .punct .bracketOpen := by
    rw [Cursor.kind_of_lexemes hc]
    exact Lexeme.kind_word_ne_punct _ _
  rw [readType, dif_neg hk]
  exact Reads.andThen (reads_readName name c (more ++ rest) hc trivial)
    (fun n hn => hclose _ n hn) hrest

/-- A bracketed type and what closes it. -/
theorem readType_of_brackets {item : TypeNode} {ls more : List Lexeme} {F : TokenKind → Prop}
    {P : TypeNode → Prop} (span : Span)
    (hitem : Reads readType ls (Avoids [.punct .bang]) fun t => t.unplaced = item.unplaced)
    (hclose : ∀ start t, t.unplaced = (TypeNode.list item span).unplaced →
      (closeType start t).Reads more F P) :
    Reads readType (mark .bracketOpen :: (ls ++ mark .bracketClose :: more)) F P := by
  intro c rest hc hrest
  have hk : c.kind = .punct .bracketOpen := Cursor.kind_of_lexemes hc
  have hadvance : c.advance.lexemes = ls ++ (mark .bracketClose :: more ++ rest) :=
    (Cursor.lexemes_advance_of hc).trans (List.append_assoc ..)
  have hread := hitem c.advance _ hadvance (by simp [Avoids, nextKind, mark])
  rw [readType, dif_pos hk]
  refine Reads.andThen (hread.since c.advance_ahead_suffix rfl) (fun t ht => ?_) hrest
  refine .token (reads_expect rfl) fun _ _ => .peek (reads_spanFrom _) fun place _ => ?_
  exact hclose _ _ (by rw [TypeNode.unplaced, TypeNode.unplaced, ht])

/-- Behind a type a mark must not follow, as it would be read as part of the type. -/
theorem reads_readType {type : TypeNode} {ls : List Lexeme} (h : type.Written ls) :
    Reads readType ls (Avoids [.punct .bang]) fun t => t.unplaced = type.unplaced := by
  induction h with
  | named name =>
    refine readType_of_word fun start n hn => reads_closeType start ?_
    rw [TypeNode.unplaced, TypeNode.unplaced, hn]
  | list span h ih =>
    exact readType_of_brackets span ih fun start t ht => reads_closeType start ht
  | nonNullNamed name span =>
    refine readType_of_word fun start n hn => ?_
    refine (reads_closeType_bang start span ?_).anywhere
    rw [TypeNode.unplaced, TypeNode.unplaced, hn]
  | nonNullList span outer h ih =>
    refine readType_of_brackets span ih fun start t ht => ?_
    exact (reads_closeType_bang start outer ht).anywhere

/-! ## Constants -/

/-- The digits of a number are worth the number. -/
theorem digitsValue_toDigits (n : Nat) : digitsValue (Nat.toDigits 10 n) = n :=
  Nat.ofDigitChars_toDigits (by decide) (by decide)

theorem integerOfLiteral_ofList {ds : List Char} (h : ∀ d ∈ ds, d.isDigit = true) :
    integerOfLiteral (String.ofList ds) = digitsValue ds := by
  unfold integerOfLiteral
  split
  · next hds =>
    rw [String.toList_ofList] at hds
    exact absurd (h '-' (by simp [hds])) (by decide)
  · rw [String.toList_ofList]

theorem integerOfLiteral_of_written {n : Int} {text : String} (h : IntegerWritten n text) :
    integerOfLiteral text = n := by
  cases h with
  | decimal n =>
    cases n with
    | ofNat m =>
      change integerOfLiteral m.repr = _
      rw [Nat.repr_eq_ofList_toDigits, integerOfLiteral_ofList fun d =>
        Nat.isDigit_of_mem_toDigits (by decide) (by decide), digitsValue_toDigits]
      rfl
    | negSucc m =>
      have htext : (toString (Int.negSucc m)).toList = '-' :: Nat.toDigits 10 (m + 1) := by
        change ("-" ++ (m + 1).repr).toList = _
        simp [Nat.repr_eq_ofList_toDigits]
      simp only [integerOfLiteral, htext, digitsValue_toDigits]
      rfl
  | negativeZero => decide

theorem int64OfLiteral?_of_written {n : Int} {text : String} (h : IntegerWritten n text)
    (hrange : -9223372036854775808 ≤ n ∧ n ≤ 9223372036854775807) :
    int64OfLiteral? text = some n := by
  have hin : inInt64Range n = true := by
    simpa only [inInt64Range, decide_eq_true_eq, Bool.and_eq_true] using hrange
  simp only [int64OfLiteral?, integerOfLiteral_of_written h, hin, if_true]

/-- A constant of one token. -/
theorem reads_takeValue (l : Lexeme) (start : Nat) {value : Span → Value} {expected : Value}
    (h : ∀ span, (value span).unplaced = expected.unplaced) :
    (takeValue start value).Reads [l] Anything fun v => v.unplaced = expected.unplaced :=
  .token (reads_advance l) fun _ _ => .spanned h

/-- What a keyword reads as is the word itself. -/
theorem Keyword.text_of_ofText? {text : String} {k : Keyword} (h : ofText? text = some k) :
    k.text = text := by
  simpa using List.find?_some h

/-- The words that are constants are no other words. -/
theorem TokenKind.ofWord_of_not_mem_constantWords {text : String} (h : text ∉ constantWords) :
    ofWord text = .name ∨
      ∃ k, ofWord text = .keyword k ∧ k ∉ [Keyword.trueWord, .falseWord, .nullWord] := by
  unfold ofWord
  split
  · next k hk =>
    refine .inr ⟨k, rfl, fun hmem => h ?_⟩
    rw [← Keyword.text_of_ofText? hk]
    revert hmem
    cases k <;> simp [constantWords, Keyword.text]
  · exact .inl rfl

theorem reads_enumName (name : Name) :
    Reads (do return Value.enum (← readName)) [word name.text] Anything
      fun w => w.unplaced = (Value.enum name).unplaced := by
  refine .last (reads_readName name) fun n hn => .pure ?_
  rw [Value.unplaced, Value.unplaced, hn]

/-- A constant of one token is read where it stands. -/
theorem reads_readScalarValue {v : Value} {l : Lexeme} (h : v.ScalarWritten l) :
    readScalarValue.Reads [l] Anything fun w => w.unplaced = v.unplaced := by
  refine .look fun t ht => ?_
  have hkind := Token.kind_eq ht
  have htext := Token.text_eq ht
  cases h with
  | int span h hrange =>
    rw [hkind]
    refine .look fun u hu => ?_
    rw [Token.text_eq hu, int64OfLiteral?_of_written h hrange]
    exact reads_takeValue _ _ fun _ => rfl
  | float literal span =>
    rw [hkind, htext]
    exact reads_takeValue _ _ fun _ => rfl
  | string span h =>
    rw [h.contents ht]
    cases h <;> rw [hkind] <;> exact reads_takeValue _ _ fun _ => rfl
  | true span | false span | null span =>
    rw [hkind]
    exact reads_takeValue _ _ fun _ => rfl
  | @enum name h =>
    -- A keyword is read like any other word, unless it is a constant.
    have hword : t.kind = .ofWord name.text := hkind
    obtain hname | ⟨k, hname, hk⟩ := TokenKind.ofWord_of_not_mem_constantWords h
    · rw [hword, hname]
      exact reads_enumName name
    · rw [hword, hname]
      cases k <;> first | exact reads_enumName name | simp at hk

/-- The token of such a constant opens no brackets. -/
theorem Value.ScalarWritten.kind {v : Value} {l : Lexeme} (h : v.ScalarWritten l) (p : Punctuator) :
    l.kind ≠ .punct p := by
  cases h with
  | string span h => cases h <;> simp
  | enum h => exact Lexeme.kind_word_ne_punct _ _
  | _ => simp [keyword]

theorem reads_readKey (name : Name) :
    readKey.Reads [word name.text, mark .colon] Anything fun n => n.unplaced = name.unplaced := by
  refine .token (reads_readName name) fun n hn => ?_
  exact .last (reads_expect rfl) fun _ _ => .pure hn

/-- A constant starts with a token that closes no brackets. -/
theorem Value.Written.startsAs {v : Value} {ls : List Lexeme} (h : v.Written ls) :
    StartsAs (fun k => k ≠ .punct .bracketClose) ls := by
  cases h with
  | scalar h => exact ⟨_, _, rfl, h.kind _⟩
  | list span h => exact ⟨_, _, rfl, by simp [mark]⟩
  | object span h => exact ⟨_, _, rfl, by simp [mark]⟩

/-- A field of an object starts with a word, so the loop does not take it for the end. -/
theorem Value.FieldWritten.startsAs {f : Name × Value} {ls : List Lexeme}
    (h : Value.FieldWritten f ls) : StartsAs (fun k => k ≠ .punct .braceClose) ls := by
  cases h with
  | field name h => exact ⟨_, _, rfl, Lexeme.kind_word_ne_punct _ _⟩

theorem readValue_of_scalar {v : Value} {l : Lexeme} (h : v.ScalarWritten l) :
    Reads readValue [l] Anything fun w => w.unplaced = v.unplaced := by
  intro c rest hc hrest
  have hk : ∀ p, c.kind ≠ .punct p := by
    rw [Cursor.kind_of_lexemes hc]
    exact h.kind
  rw [readValue, dif_neg (hk _), dif_neg (hk _)]
  exact reads_readScalarValue h c rest hc hrest

/-- The elements of a list in a row, each of which is read back. -/
theorem readValue_of_list {items : List Value} {ls : List Lexeme} (span : Span)
    (hrow : Row Value.Written items ls)
    (hitem : ∀ v ∈ items, ∀ us, v.Written us →
      Reads readValue us Anything fun w => w.unplaced = v.unplaced) :
    Reads readValue (mark .bracketOpen :: (ls ++ [mark .bracketClose])) Anything
      fun w => w.unplaced = (Value.list items span).unplaced := by
  intro c rest hc hrest
  have hk : c.kind = .punct .bracketOpen := Cursor.kind_of_lexemes hc
  have hadvance : c.advance.lexemes = ls ++ ([mark .bracketClose] ++ rest) :=
    (Cursor.lexemes_advance_of hc).trans (List.append_assoc ..)
  rw [readValue, dif_pos hk]
  refine Reads.andThen (Step.Leaves.since
    (itemsBelow_leaves (f := Value.unplaced) (g := Value.unplaced) hrow
      (fun v hv us hus d _ => hitem v hv us hus d) (fun v _ us hus => ?_) trivial _ _ _ hadvance rfl)
    c.advance_ahead_suffix rfl) (fun ws hws => ?_) hrest
  · exact hus.startsAs.mono fun k hk => ⟨hk, trivial⟩
  · refine .token (reads_expect rfl) fun _ _ => .spanned fun _ => ?_
    simp only [Value.unplaced, Value.unplacedItems_eq, hws]

/-- The fields of an object in a row. A field is a key and a constant that is read back. -/
theorem readValue_of_object {fields : List (Name × Value)} {ls : List Lexeme} (span : Span)
    (hrow : Row Value.FieldWritten fields ls)
    (hvalue : ∀ f ∈ fields, ∀ us, f.2.Written us →
      Reads readValue us Anything fun w => w.unplaced = f.2.unplaced) :
    Reads readValue (mark .braceOpen :: (ls ++ [mark .braceClose])) Anything
      fun w => w.unplaced = (Value.object fields span).unplaced := by
  intro c rest hc hrest
  have ho : c.kind = .punct .braceOpen := Cursor.kind_of_lexemes hc
  have hl : ¬ c.kind = .punct .bracketOpen := by simp [ho]
  have hadvance : c.advance.lexemes = ls ++ ([mark .braceClose] ++ rest) :=
    (Cursor.lexemes_advance_of hc).trans (List.append_assoc ..)
  rw [readValue, dif_neg hl, dif_pos ho]
  refine Reads.andThen (Step.Leaves.since
    (itemsBelow_leaves (F := Anything) (f := Value.unplacedField) (g := Value.unplacedField) hrow
      ?_ (fun f _ us hus => ?_) trivial _ _ _ hadvance rfl)
    c.advance_ahead_suffix rfl) (fun ws hws => ?_) hrest
  · intro f hf us hus d hd rest hahead _
    cases hus with
    | @field v us name hv =>
      -- The constant is read from behind the key, which has fewer tokens ahead.
      have hkey := reads_readKey name d (us ++ rest) hahead trivial
      have hread := hvalue _ hf us hv (readKey d).1.2 rest hkey.lexemes trivial
      refine ⟨?_, hread.lexemes, hread.faults.trans hkey.faults⟩
      simp only [Value.unplacedField, hkey.answer, hread.answer]
  · exact hus.startsAs.mono fun k hk => ⟨hk, trivial⟩
  · refine .token (reads_expect rfl) fun _ _ => .spanned fun _ => ?_
    simp only [Value.unplaced, Value.unplacedFields_eq, hws]

/-- Every writing of a constant is read back. What stands in its brackets is smaller. -/
theorem reads_readValue (v : Value) (ls : List Lexeme) (h : v.Written ls) :
    Reads readValue ls Anything fun w => w.unplaced = v.unplaced := by
  cases h with
  | scalar h => exact readValue_of_scalar h
  | list span hrow => exact readValue_of_list span hrow fun v hv us hus => reads_readValue v us hus
  | object span hrow =>
    exact readValue_of_object span hrow fun f hf us hus => reads_readValue f.2 us hus
termination_by sizeOf v
decreasing_by
  · have := List.sizeOf_lt_of_mem hv
    simp only [Value.list.sizeOf_spec]
    omega
  · have := List.sizeOf_lt_of_mem hf
    have : sizeOf f = 1 + sizeOf f.1 + sizeOf f.2 := rfl
    simp only [Value.object.sizeOf_spec]
    omega

end ResolverContracts
