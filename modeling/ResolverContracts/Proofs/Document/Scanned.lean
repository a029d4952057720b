import Mathlib.Data.List.TakeWhile
import ResolverContracts.Proofs.Document.Layout
/-!
# What the scanner takes

The scanner takes spellings and stray characters, and nothing else. `scan_spelled` says that what it
gives a kind other than stray is a spelling of that kind, as far as the text has it, so every token of
a text is one or the other (`isScanned_lexemesFrom`).

A token is therefore known by little: a name or a keyword by its kind, and a word by its text alone,
since no stray lexeme starts like a word (`Lexeme.IsScanned.eq_word_of_isWord`).
-/

set_option autoImplicit false

namespace ResolverContracts

/-! ## Numbers -/

theorem wholePart_integerPart {cs : List Char} (h : integerPart cs ≠ []) :
    WholePart (integerPart cs) := by
  cases cs with
  | nil => exact absurd rfl h
  | cons d ds =>
    by_cases hzero : d = '0'
    · subst hzero
      exact .zero
    · rw [integerPart.eq_2 _ (by simp [hzero]), List.takeWhile_cons] at h ⊢
      by_cases hdigit : d.isDigit = true
      · rw [if_pos hdigit]
        exact .digits hdigit hzero fun x hx => List.mem_takeWhile_imp hx
      · exact absurd (if_neg hdigit) h

theorem pointPart_fractionPart (cs : List Char) : PointPart (fractionPart cs) := by
  fun_cases fractionPart cs with
  | case1 d ds hd => exact .point hd fun x hx => List.mem_takeWhile_imp hx
  | case2 => exact .none
  | case3 => exact .none

theorem exponentSign_mem (cs : List Char) : exponentSign cs ∈ [[], ['+'], ['-']] := by
  fun_cases exponentSign cs <;> simp

theorem powerPart_exponentPart (cs : List Char) : PowerPart (exponentPart cs) := by
  fun_cases exponentPart cs with
  | case1 c cs hc sign =>
    exact .power (by simpa using hc) (exponentSign_mem cs) fun x hx => List.mem_takeWhile_imp hx
  | case2 => exact .none
  | case3 => exact .none

/-- A number without a digit is a stray sign. -/
theorem scanUnsigned_spelled {sign : List Char} (hsign : SignPart sign) (cs : List Char) :
    (scanUnsigned sign cs).kind = .stray ∨
      Spelled (scanUnsigned sign cs).kind (scanUnsigned sign cs).taken := by
  fun_cases scanUnsigned sign cs with
  | case1 => exact .inl rfl
  | case2 whole hw afterWhole fraction afterFraction exponent kind =>
    refine .inr ?_
    have hwhole : WholePart whole := wholePart_integerPart (by simpa using hw)
    have hpoint : PointPart fraction := pointPart_fractionPart afterWhole
    have hpower : PowerPart exponent := powerPart_exponentPart afterFraction
    by_cases hnone : fraction = [] ∧ exponent = []
    · have hkind : kind = .int := by simp [kind, hnone]
      rw [hkind, hnone.1, hnone.2, List.append_nil, List.append_nil]
      exact .int hsign hwhole
    · have hkind : kind = .float := by simpa [kind] using hnone
      rw [hkind]
      exact .float hsign hwhole hpoint hpower (by rwa [not_and_or] at hnone)

/-! ## Strings -/

/-- A character that the scanner of strings passes over is neither a quote, a backslash nor a line
feed. The hypotheses are those with which its last case is reached. -/
theorem not_mem_of_passed {c : Char} {cs : List Char} (hfeed : c ≠ '\n') (hquote : c ≠ '"')
    (hlast : c = '\\' → cs ≠ []) (hslash : ∀ d ds, c = '\\' → cs ≠ d :: ds) :
    c ∉ ['"', '\\', '\n'] := by
  have hc : c ≠ '\\' := by
    intro heq
    cases cs with
    | nil => exact hlast heq rfl
    | cons d ds => exact hslash d ds heq rfl
  simpa using ⟨hquote, hc, hfeed⟩

/-- A string that is closed. -/
theorem scanString_spelled (cs : List Char) :
    (scanString cs).kind = .stray ∨ (scanString cs).kind = .string ∧ (scanString cs).beyond = 0 ∧
      ∃ body, QuotedPart body ∧ (scanString cs).taken = body ++ ['"'] := by
  fun_induction scanString cs with
  | case1 => exact .inl rfl
  | case2 => exact .inl rfl
  | case3 => exact .inr ⟨rfl, rfl, [], .nil, rfl⟩
  | case4 => exact .inl rfl
  | case5 c cs ih =>
    refine ih.imp id ?_
    rintro ⟨hkind, hbeyond, body, hbody, htaken⟩
    exact ⟨hkind, hbeyond, '\\' :: c :: body, .escaped hbody, by simp [Scan.after, htaken]⟩
  | case6 c cs hfeed hquote hlast hslash ih =>
    refine ih.imp id ?_
    rintro ⟨hkind, hbeyond, body, hbody, htaken⟩
    exact ⟨hkind, hbeyond, c :: body, .plain (not_mem_of_passed hfeed hquote hlast hslash) hbody,
      by simp [Scan.after, htaken]⟩

/-- A block string that is closed. What the scanner did not find to close it closes it nowhere. -/
theorem scanBlockString_spelled (cs : List Char) :
    (scanBlockString cs).kind = .stray ∨
      (scanBlockString cs).kind = .blockString ∧ (scanBlockString cs).beyond = 0 ∧
        ∃ body, BlockPart body ∧ (scanBlockString cs).taken = body ++ blockQuotes := by
  fun_induction scanBlockString cs with
  | case1 => exact .inl rfl
  | case2 => exact .inr ⟨rfl, rfl, [], .nil, rfl⟩
  | case3 cs ih =>
    refine ih.imp id ?_
    rintro ⟨hkind, hbeyond, body, hbody, htaken⟩
    exact ⟨hkind, hbeyond, _, .escaped hbody, by simp [Scan.after, htaken, blockQuotes]⟩
  | case4 c cs hclose hescape ih =>
    refine ih.imp id ?_
    rintro ⟨hkind, hbeyond, body, hbody, htaken⟩
    have hsplit : body ++ blockQuotes ++ (scanBlockString cs).rest = cs := by
      rw [← htaken]
      exact scanBlockString_splits cs
    -- The text up to the closing quotes is in front of the whole text.
    have hfront {front : List Char} (h : front <+: c :: (body ++ blockQuotes)) :
        front <+: c :: cs := by
      rw [← hsplit]
      exact h.trans ⟨(scanBlockString cs).rest, by simp⟩
    refine ⟨hkind, hbeyond, c :: body, .plain (fun h => ?_) (fun h => ?_) hbody,
      by simp [Scan.after, htaken]⟩
    · obtain ⟨ds, hds⟩ := hfront h
      simp only [blockQuotes, List.cons_append, List.nil_append, List.cons.injEq] at hds
      exact hclose ds hds.1.symm hds.2.symm
    · obtain ⟨ds, hds⟩ := hfront h
      simp only [blockQuotes, List.cons_append, List.nil_append, List.cons.injEq] at hds
      exact hescape ds hds.1.symm hds.2.symm

/-- A string that is not closed is stray; one that is claims nothing beyond what it takes. -/
theorem scanQuoted_spelled (cs : List Char) :
    (scanQuoted cs).kind = .stray ∨
      (scanQuoted cs).beyond = 0 ∧ Spelled (scanQuoted cs).kind (scanQuoted cs).taken := by
  fun_cases scanQuoted cs with
  | case1 cs =>
    refine (scanBlockString_spelled cs).imp id ?_
    rintro ⟨hkind, hbeyond, body, hbody, htaken⟩
    refine ⟨hbeyond, ?_⟩
    simp only [Scan.after, hkind, htaken]
    exact .blockString hbody
  | case2 =>
    refine (scanString_spelled cs).imp id ?_
    rintro ⟨hkind, hbeyond, body, hbody, htaken⟩
    refine ⟨hbeyond, ?_⟩
    simp only [Scan.after, hkind, htaken]
    exact .string hbody

/-! ## All lexemes -/

theorem scanUnsigned_beyond (sign cs : List Char) : (scanUnsigned sign cs).beyond = 0 := by
  fun_cases scanUnsigned sign cs <;> rfl

theorem ofChar?_text {c : Char} {p : Punctuator} (h : Punctuator.ofChar? c = some p) :
    p.text.toList = [c] := by
  unfold Punctuator.ofChar? at h
  split at h
  all_goals first | (obtain rfl := Option.some.inj h; rfl) | exact nomatch h

/-- **What is scanned is spelled.** A lexeme that is not stray is a spelling of its kind, and all of it
stands in the text. -/
theorem scan_spelled (c : Char) (cs : List Char) :
    (scan c cs).kind = .stray ∨
      (scan c cs).beyond = 0 ∧ Spelled (scan c cs).kind (scan c cs).taken := by
  unfold scan
  -- In the order of the scanner, each class of first characters with its spelling.
  split
  · fun_cases scanPoints cs with
    | case1 cs => exact .inr ⟨rfl, .punct .ellipsis⟩
    | case2 => exact .inl rfl
  split
  · exact scanQuoted_spelled cs
  split
  · exact (scanUnsigned_spelled .minus cs).imp id fun h => ⟨scanUnsigned_beyond _ _, h⟩
  split
  · exact (scanUnsigned_spelled .none (c :: cs)).imp id fun h => ⟨scanUnsigned_beyond _ _, h⟩
  split
  · next hc => exact .inr ⟨rfl, .word hc fun x hx => List.mem_takeWhile_imp hx⟩
  split
  · next p hp =>
    refine .inr ⟨rfl, ?_⟩
    rw [← ofChar?_text hp]
    exact .punct p
  · exact .inl rfl

/-- A lexeme begins with the first character of the text. -/
theorem scan_taken_eq_cons (c : Char) (cs : List Char) : ∃ ts, (scan c cs).taken = c :: ts := by
  have hsplit : (scan c cs).taken ++ (scan c cs).rest = c :: cs := scan_split c cs
  cases htaken : (scan c cs).taken with
  | nil => exact absurd htaken (scan_taken_ne_nil c cs)
  | cons d ts =>
    rw [htaken, List.cons_append, List.cons.injEq] at hsplit
    exact ⟨ts, by rw [hsplit.1]⟩

/-- A word is of no kind that is no name. -/
theorem TokenKind.ofWord_ne (text : String) {k : TokenKind} (hk : k.isName = false) :
    ofWord text ≠ k := by
  rintro rfl
  exact absurd (Lexeme.isName_word text) (by simp [Lexeme.word, hk])

/-- No stray lexeme begins like a word. -/
theorem isNameStart_of_scan_stray {c : Char} {cs : List Char} (h : (scan c cs).kind = .stray) :
    isNameStart c = false := by
  rw [Bool.eq_false_iff]
  intro hc
  rw [scan_of_isNameStart cs hc] at h
  exact TokenKind.ofWord_ne _ rfl h

/-! ## Tokens of a text -/

/-- A lexeme as a text can have it: a spelling, or something stray that looks like no word. -/
def Lexeme.IsScanned (l : Lexeme) : Prop := l.IsSpelled ∨ l.kind = .stray ∧ isWord l.text = false

theorem isScanned_scan (c : Char) (cs : List Char) :
    Lexeme.IsScanned ⟨(scan c cs).kind, (scan c cs).text⟩ := by
  obtain hstray | ⟨hbeyond, hspelled⟩ := scan_spelled c cs
  · refine .inr ⟨hstray, ?_⟩
    obtain ⟨ts, hts⟩ := scan_taken_eq_cons c cs
    simp only [Scan.text, hts]
    split
    · simp [isWord, isNameStart_of_scan_stray hstray]
    · rfl
  · refine .inl ?_
    simpa [Lexeme.IsSpelled, Scan.text, hbeyond] using hspelled

/-- Every token of a text is a spelling or stray. The induction is on the text as it is cut. -/
theorem isScanned_lexemesFrom (place : Nat) (cs : List Char) :
    ∀ l ∈ (lexemesFrom place cs).lexemes, l.IsScanned := by
  fun_induction lexemesFrom place cs with
  | case1 => exact List.forall_mem_nil _
  | case2 place cs start c rest h s later ih =>
    exact List.forall_mem_cons.mpr ⟨isScanned_scan c rest, ih⟩

/-! ## What a token is known by -/

/-- A text spells one kind of token: the scanner would find either. -/
theorem Spelled.kind_unique {kind other : TokenKind} {cs : List Char} (h : Spelled kind cs)
    (hother : Spelled other cs) : kind = other := by
  obtain ⟨c, ds, hcs, -, hscan⟩ := h.scansAs
  obtain ⟨d, es, hds, -, hscan'⟩ := hother.scansAs
  obtain ⟨rfl, rfl⟩ : c = d ∧ ds = es := by simpa [hcs] using hds
  exact congrArg Scan.kind ((hscan [] boundary_nil).symm.trans (hscan' [] boundary_nil))

/-- The end of a text is no spelling. -/
theorem Spelled.kind_ne_endOfText {kind : TokenKind} {cs : List Char} (h : Spelled kind cs) :
    kind ≠ .endOfText := by
  cases h with
  | word => exact TokenKind.ofWord_ne _ rfl
  | _ => exact nofun

namespace Lexeme

variable {l : Lexeme}

theorem IsScanned.isSpelled (h : l.IsScanned) (hkind : l.kind ≠ .stray) : l.IsSpelled :=
  h.resolve_right fun hstray => hkind hstray.1

theorem IsScanned.kind_ne_endOfText (h : l.IsScanned) : l.kind ≠ .endOfText := by
  obtain hspelled | ⟨hstray, -⟩ := h
  · exact hspelled.kind_ne_endOfText
  · rw [hstray]
    exact nofun

/-- A token that can stand for a name is the word that it has as its text. -/
theorem IsScanned.eq_word_of_isName (h : l.IsScanned) (hname : l.kind.isName = true) :
    l = word l.text := by
  have hspelled : Spelled l.kind l.text.toList := h.isSpelled fun heq => by
    simp [heq, TokenKind.isName] at hname
  obtain ⟨kind, text⟩ := l
  generalize hcs : text.toList = cs at hspelled
  cases hspelled with
  | word hc hword =>
    rw [← hcs, String.ofList_toList]
    rfl
  | _ => simp [TokenKind.isName] at hname

/-- A token whose text is a word is that word. -/
theorem IsScanned.eq_word_of_isWord (h : l.IsScanned) (hword : isWord l.text = true) :
    l = word l.text := by
  obtain hspelled | ⟨-, hno⟩ := h
  · have hkind : l.kind = (word l.text).kind :=
      Spelled.kind_unique hspelled (isSpelled_word hword)
    exact congrArg (Lexeme.mk · l.text) hkind
  · exact absurd hword (by simp [hno])

theorem IsScanned.eq_keyword {k : Keyword} (h : l.IsScanned) (hkind : l.kind = .keyword k) :
    l = keyword k := by
  have hword : l = word l.text := h.eq_word_of_isName (by rw [hkind]; rfl)
  have hk : TokenKind.ofWord l.text = .keyword k := by
    rw [← hkind, hword]
    rfl
  have hfound : Keyword.ofText? l.text = some k := by
    unfold TokenKind.ofWord at hk
    split at hk
    · next hsome => rw [hsome, TokenKind.keyword.inj hk]
    · exact nomatch hk
  have htext : k.text = l.text := by simpa using List.find?_some hfound
  rw [hword, ← htext, word_text]

theorem IsScanned.eq_mark {p : Punctuator} (h : l.IsScanned) (hkind : l.kind = .punct p) :
    l = mark p := by
  have hspelled : Spelled l.kind l.text.toList := h.isSpelled (by rw [hkind]; exact nofun)
  obtain ⟨kind, text⟩ := l
  generalize hcs : text.toList = cs at hspelled
  cases hspelled with
  | word => exact absurd hkind (TokenKind.ofWord_ne _ rfl)
  | punct q =>
    obtain rfl : q = p := TokenKind.punct.inj hkind
    exact congrArg (Lexeme.mk _) (String.toList_injective hcs)
  | _ => exact nomatch hkind

end Lexeme

end ResolverContracts
