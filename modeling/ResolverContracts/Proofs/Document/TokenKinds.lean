import Mathlib.Computability.Language
import ResolverContracts.Proofs.Document.Tiling
/-!
# Token kinds mean what they say

The classes of tokens as languages: words, whole numbers and numbers with a fraction or an exponent
(`wordTexts`, `integers`, `floats`), beside the strings of `QuotedPart` and `BlockPart`. Every token of a
text is in the class that its kind names (`Lexed.classified_ofText`), with two reservations.

An exponent may have no digits. So the texts of floating point numbers are `openFloats`, and such a
text is a number just if it ends in a digit. And a backslash in a string claims any character, a line
feed included, so a string is on one line only up to the line feeds that a backslash claims.
-/

set_option autoImplicit false

namespace ResolverContracts

open scoped Computability

/-! ## Classes -/

/-- Texts of one character. -/
def oneOf (p : Char → Bool) : Language Char := {cs | ∃ c, p c = true ∧ cs = [c]}

/-- A letter or an underscore, then any of those and digits. -/
def wordTexts : Language Char := oneOf isNameStart * (oneOf isNameChar)∗

/-- An optional minus, then a zero, or digits that do not start with one. -/
def integers : Language Char :=
  (1 + {['-']}) * ({['0']} + oneOf (fun c => c.isDigit && c != '0') * (oneOf Char.isDigit)∗)

/-- A point and digits. -/
def fractions : Language Char := {['.']} * (oneOf Char.isDigit * (oneOf Char.isDigit)∗)

/-- The mark of an exponent and its optional sign. -/
def exponentMarks : Language Char :=
  oneOf (fun c => c == 'e' || c == 'E') * (1 + oneOf fun c => c == '+' || c == '-')

/-- The mark of an exponent and digits. -/
def exponents : Language Char := exponentMarks * (oneOf Char.isDigit * (oneOf Char.isDigit)∗)

/-- The mark of an exponent, with or without digits. -/
def openExponents : Language Char := exponentMarks * (oneOf Char.isDigit)∗

/-- A whole number with a fraction, an exponent or both. -/
def floatsWith (exponents : Language Char) : Language Char :=
  integers * (fractions * (1 + exponents) + exponents)

/-- Floating point numbers. -/
def floats : Language Char := floatsWith exponents

/-- What the scanner takes for floating point numbers. -/
def openFloats : Language Char := floatsWith openExponents

theorem mem_oneOf {p : Char → Bool} {c : Char} (h : p c = true) : [c] ∈ oneOf p := ⟨c, h, rfl⟩

theorem mem_kstar_oneOf {p : Char → Bool} {cs : List Char} (h : ∀ c ∈ cs, p c = true) :
    cs ∈ (oneOf p)∗ := by
  rw [Language.mem_kstar]
  refine ⟨cs.map fun c => [c], (List.flatMap_singleton' cs).symm, ?_⟩
  intro text htext
  obtain ⟨c, hc, rfl⟩ := List.mem_map.mp htext
  exact mem_oneOf (h c hc)

theorem mem_oneOf_mul_kstar {p q : Char → Bool} {c : Char} {cs : List Char} (hc : p c = true)
    (hcs : ∀ x ∈ cs, q x = true) : c :: cs ∈ oneOf p * (oneOf q)∗ :=
  Language.append_mem_mul (mem_oneOf hc) (mem_kstar_oneOf hcs)

theorem mem_integers {sign whole : List Char} (hsign : SignPart sign) (hwhole : WholePart whole) :
    sign ++ whole ∈ integers := by
  refine Language.append_mem_mul ?_ ?_
  · cases hsign with
    | none => exact .inl rfl
    | minus => exact .inr rfl
  · cases hwhole with
    | zero => exact .inl rfl
    | digits hd hzero hds => exact .inr (mem_oneOf_mul_kstar (by simp [hd, hzero]) hds)

theorem mem_fractions {d : Char} {ds : List Char} (hd : d.isDigit = true)
    (hds : ∀ x ∈ ds, x.isDigit = true) : '.' :: d :: ds ∈ fractions :=
  Language.append_mem_mul (a := ['.']) rfl (mem_oneOf_mul_kstar hd hds)

theorem mem_exponentMarks {e : Char} {sign : List Char} (he : e ∈ ['e', 'E'])
    (hsign : sign ∈ [[], ['+'], ['-']]) : e :: sign ∈ exponentMarks := by
  refine Language.append_mem_mul (a := [e]) (mem_oneOf (by simpa using he)) ?_
  simp only [List.mem_cons, List.not_mem_nil, or_false] at hsign
  obtain rfl | rfl | rfl := hsign
  · exact .inl rfl
  · exact .inr (mem_oneOf rfl)
  · exact .inr (mem_oneOf rfl)

/-- A number with a fraction or with an exponent, whatever the exponents are. -/
theorem mem_floatsWith {powers : Language Char} {sign whole point power : List Char}
    (hsign : SignPart sign) (hwhole : WholePart whole) (hpoint : PointPart point)
    (hpower : power ≠ [] → power ∈ powers) (hpart : point ≠ [] ∨ power ≠ []) :
    sign ++ (whole ++ (point ++ power)) ∈ floatsWith powers := by
  rw [← List.append_assoc]
  refine Language.append_mem_mul (mem_integers hsign hwhole) ?_
  cases hpoint with
  | none => exact .inr (hpower (hpart.resolve_left (absurd rfl)))
  | point hd hds =>
    refine .inl (Language.append_mem_mul (mem_fractions hd hds) ?_)
    by_cases hnone : power = []
    · exact .inl hnone
    · exact .inr (hpower hnone)

/-- An exponent may be without digits. Such a number is taken all the same. -/
theorem PowerPart.mem_openExponents {power : List Char} (h : PowerPart power) (hne : power ≠ []) :
    power ∈ openExponents := by
  cases h with
  | none => exact absurd rfl hne
  | @power e sign ds he hsign hds =>
    exact Language.append_mem_mul (a := e :: sign) (mem_exponentMarks he hsign) (mem_kstar_oneOf hds)

/-! ## The last character of a number -/

/-- The text ends in a digit. -/
def EndsInDigit (cs : List Char) : Prop := ∃ d ∈ cs.getLast?, d.isDigit = true

theorem EndsInDigit.append {cs : List Char} (h : EndsInDigit cs) (front : List Char) :
    EndsInDigit (front ++ cs) := by
  obtain ⟨d, hlast, hd⟩ := h
  refine ⟨d, ?_, hd⟩
  rw [List.getLast?_append, Option.mem_def.mp hlast]
  rfl

theorem endsInDigit_of_mem_digits {cs : List Char}
    (h : cs ∈ oneOf Char.isDigit * (oneOf Char.isDigit)∗) : EndsInDigit cs := by
  rw [← Language.mul_self_kstar_comm] at h
  obtain ⟨front, -, last, ⟨d, hd, rfl⟩, rfl⟩ := Language.mem_mul.mp h
  exact ⟨d, by simp, hd⟩

/-- Whatever ends a floating point number ends in a digit. -/
theorem endsInDigit_of_mem_floats {cs : List Char} (h : cs ∈ floats) : EndsInDigit cs := by
  have hexponent : ∀ power ∈ exponents, EndsInDigit power := by
    intro power hpower
    obtain ⟨mark, -, ds, hds, rfl⟩ := Language.mem_mul.mp hpower
    exact (endsInDigit_of_mem_digits hds).append mark
  have hfraction : ∀ point ∈ fractions, EndsInDigit point := by
    intro point hpoint
    obtain ⟨mark, -, ds, hds, rfl⟩ := Language.mem_mul.mp hpoint
    exact (endsInDigit_of_mem_digits hds).append mark
  obtain ⟨whole, -, parts, hparts, rfl⟩ := Language.mem_mul.mp h
  obtain hboth | hpower := hparts
  · obtain ⟨point, hpoint, power, hpower, rfl⟩ := Language.mem_mul.mp hboth
    obtain rfl | hpower := hpower
    · rw [List.append_nil]
      exact (hfraction point hpoint).append whole
    · exact ((hexponent power hpower).append point).append whole
  · exact (hexponent parts hpower).append whole

/-- An exponent at the end of a number that ends in a digit has digits. -/
theorem PowerPart.mem_exponents {front power : List Char} (h : PowerPart power) (hne : power ≠ [])
    (hend : EndsInDigit (front ++ power)) : power ∈ exponents := by
  cases h with
  | none => exact absurd rfl hne
  | @power e sign ds he hsign hds =>
    cases ds with
    | nil =>
      -- Then the number ends in the mark of the exponent or in its sign.
      obtain ⟨d, hlast, hd⟩ := hend
      rw [List.append_nil, List.getLast?_append_of_ne_nil front (List.cons_ne_nil e sign)] at hlast
      have hmarks : ∀ e ∈ ['e', 'E'], e.isDigit = false :=
        List.forall_mem_cons.mpr ⟨rfl, List.forall_mem_singleton.mpr rfl⟩
      have hsigns : ∀ sign ∈ [[], ['+'], ['-']], ∀ d ∈ sign, d.isDigit = false :=
        List.forall_mem_cons.mpr ⟨List.forall_mem_nil _, List.forall_mem_cons.mpr
          ⟨List.forall_mem_singleton.mpr rfl, List.forall_mem_singleton.mpr
            (List.forall_mem_singleton.mpr rfl)⟩⟩
      have hnone : d.isDigit = false := by
        obtain rfl | hsigned := List.mem_cons.mp (List.mem_of_getLast? hlast)
        · exact hmarks d he
        · exact hsigns sign hsign d hsigned
      exact absurd hd (by rw [hnone]; decide)
    | cons d ds =>
      obtain ⟨hd, hds⟩ := List.forall_mem_cons.mp hds
      exact Language.append_mem_mul (a := e :: sign) (mem_exponentMarks he hsign)
        (mem_oneOf_mul_kstar hd hds)

/-! ## Spellings and classes -/

section Spelled

variable {cs : List Char}

theorem Spelled.mem_integers (h : Spelled .int cs) : cs ∈ integers := by
  generalize hkind : TokenKind.int = kind at h
  cases h with
  | word => exact absurd hkind.symm (TokenKind.ofWord_ne _ rfl)
  | int hsign hwhole => exact ResolverContracts.mem_integers hsign hwhole
  | _ => exact nomatch hkind

/-- A number with a fraction or an exponent. Without digits behind the mark of the exponent it is
none of the `floats`. -/
theorem Spelled.mem_openFloats (h : Spelled .float cs) :
    cs ∈ openFloats ∧ (cs ∈ floats ↔ EndsInDigit cs) := by
  generalize hkind : TokenKind.float = kind at h
  cases h with
  | word => exact absurd hkind.symm (TokenKind.ofWord_ne _ rfl)
  | @float sign whole point power hsign hwhole hpoint hpower hpart =>
    refine ⟨mem_floatsWith hsign hwhole hpoint hpower.mem_openExponents hpart,
      endsInDigit_of_mem_floats, ?_⟩
    intro hend
    rw [← List.append_assoc, ← List.append_assoc] at hend
    exact mem_floatsWith hsign hwhole hpoint (fun hne => hpower.mem_exponents hne hend) hpart
  | _ => exact nomatch hkind

theorem Spelled.string_eq (h : Spelled .string cs) :
    ∃ body, QuotedPart body ∧ cs = '"' :: (body ++ ['"']) := by
  generalize hkind : TokenKind.string = kind at h
  cases h with
  | word => exact absurd hkind.symm (TokenKind.ofWord_ne _ rfl)
  | string hbody => exact ⟨_, hbody, rfl⟩
  | _ => exact nomatch hkind

theorem Spelled.blockString_eq (h : Spelled .blockString cs) :
    ∃ body, BlockPart body ∧ cs = blockQuotes ++ (body ++ blockQuotes) := by
  generalize hkind : TokenKind.blockString = kind at h
  cases h with
  | word => exact absurd hkind.symm (TokenKind.ofWord_ne _ rfl)
  | blockString hbody => exact ⟨_, hbody, rfl⟩
  | _ => exact nomatch hkind

/-- In a string a line feed stands behind a backslash only. -/
theorem QuotedPart.feeds_escaped {body : List Char} (h : QuotedPart body) :
    ∀ before behind, body = before ++ '\n' :: behind → ∃ front, before = front ++ ['\\'] := by
  induction h with
  | nil => intro before behind heq; simp at heq
  | @plain c cs hc _ ih =>
    intro before behind heq
    cases before with
    | nil =>
      rw [List.nil_append, List.cons.injEq] at heq
      exact absurd (by simp [heq.1]) hc
    | cons d before =>
      rw [List.cons_append, List.cons.injEq] at heq
      obtain ⟨front, rfl⟩ := ih before behind heq.2
      exact ⟨d :: front, rfl⟩
  | @escaped c cs _ ih =>
    intro before behind heq
    -- The backslash and what it claims are two characters, so the line feed is the second of them or
    -- stands behind both.
    match before with
    | [] => simp at heq
    | [d] =>
      rw [List.singleton_append, List.cons.injEq] at heq
      exact ⟨[], by rw [← heq.1]; rfl⟩
    | d :: e :: before =>
      simp only [List.cons_append, List.cons.injEq] at heq
      obtain ⟨front, rfl⟩ := ih before behind heq.2.2
      exact ⟨d :: e :: front, rfl⟩

end Spelled

/-- What the scanner leaves behind a word continues no word. -/
theorem stops_of_scan {c : Char} {cs : List Char} (h : (scan c cs).kind.isName = true) :
    (scan c cs).taken ∈ wordTexts ∧ Stops isNameChar (scan c cs).rest := by
  obtain hstray | ⟨-, hspelled⟩ := scan_spelled c cs
  · rw [hstray] at h
    exact absurd h (by decide)
  · obtain ⟨ts, hts⟩ := scan_taken_eq_cons c cs
    rw [hts] at hspelled
    -- Of all spellings only that of a word has the kind of a name.
    have hstart : isNameStart c = true := by
      generalize (scan c cs).kind = kind at h hspelled
      generalize hcs : c :: ts = text at hspelled
      cases hspelled with
      | word hc => rwa [(List.cons.inj hcs).1]
      | _ => simp [TokenKind.isName] at h
    rw [scan_of_isNameStart cs hstart]
    refine ⟨mem_oneOf_mul_kstar hstart fun x hx => List.mem_takeWhile_imp hx, ?_⟩
    intro d hd
    have hnot := List.head?_dropWhile_not isNameChar cs
    change (cs.dropWhile isNameChar).head? = some d at hd
    rw [hd] at hnot
    exact hnot

/-! ## Tokens -/

/-- What the kind of a token says of its text, and of what the text has behind it. -/
structure Token.Classified (t : Token) (text : List Char) : Prop where
  slice : t.span.slice text = t.text.toList
  /-- A name or a keyword is a word that goes on as far as it can. -/
  word : t.kind.isName = true → t.text.toList ∈ wordTexts ∧ ∃ before behind,
    text = before ++ (t.text.toList ++ behind) ∧
      t.span = ⟨byteLength before, byteLength before + byteLength t.text.toList⟩ ∧
        Stops isNameChar behind
  keyword : ∀ k, t.kind = .keyword k ↔ t.text = k.text
  int : t.kind = .int → t.text.toList ∈ integers
  /-- An exponent may lack its digits. -/
  float : t.kind = .float →
    t.text.toList ∈ openFloats ∧ (t.text.toList ∈ floats ↔ EndsInDigit t.text.toList)
  /-- No quote inside but behind a backslash that claims it, and no line feed either. -/
  string : t.kind = .string → ∃ body, t.text.toList = '"' :: (body ++ ['"']) ∧ QuotedPart body ∧
    ∀ before behind, body = before ++ '\n' :: behind → ∃ front, before = front ++ ['\\']
  blockString : t.kind = .blockString →
    ∃ body, t.text.toList = blockQuotes ++ (body ++ blockQuotes) ∧ BlockPart body

/-- **Token kinds mean what they say.** Every token of a text is in the class that its kind names. -/
theorem Lexed.classified_ofText (text : String) :
    ∀ t ∈ (Lexed.ofText text).tokens, t.Classified text.toList := by
  intro t ht
  have hscanned : t.lexeme.IsScanned :=
    isScanned_lexemesFrom 0 text.toList _ (List.mem_map_of_mem ht)
  have hspelled {kind : TokenKind} (hkind : t.kind = kind) (hstray : kind ≠ .stray) :
      Spelled kind t.text.toList := by
    rw [← hkind] at hstray ⊢
    exact hscanned.isSpelled hstray
  refine ⟨slice_ofText text t (List.mem_append_left _ ht), ?_, ?_, ?_, ?_, ?_, ?_⟩
  · intro hname
    obtain ⟨before, c, behind, htext, -, rfl⟩ := token_splits ht
    rw [Nat.zero_add]
    -- Only a stray token leaves the text, and a word is none.
    have hbeyond : (scan c behind).beyond = 0 := by
      by_contra hbeyond
      have hkind : (scan c behind).kind = .stray := (scan_overruns hbeyond).stray
      exact absurd hname (by simp [Scan.tokenAt, hkind, TokenKind.isName])
    have hsplit : (scan c behind).taken ++ (scan c behind).rest = c :: behind := scan_split c behind
    obtain ⟨hword, hstops⟩ := stops_of_scan hname
    simp only [Scan.tokenAt, Scan.text, Scan.width, hbeyond, if_true, String.toList_ofList]
    exact ⟨hword, before, (scan c behind).rest, by rw [htext, hsplit], rfl, hstops⟩
  · intro k
    constructor
    · exact fun hkind => congrArg Lexeme.text (hscanned.eq_keyword hkind)
    · -- The text of a keyword is a word, and a word has but one kind.
      intro hk
      have hword : isWord t.lexeme.text = true := by
        change isWord t.text = true
        rw [hk]
        cases k <;> decide
      have heq := hscanned.eq_word_of_isWord hword
      change t.lexeme = Lexeme.word t.text at heq
      rw [hk, Lexeme.word_text] at heq
      exact congrArg Lexeme.kind heq
  · exact fun hkind => (hspelled hkind (by decide)).mem_integers
  · exact fun hkind => (hspelled hkind (by decide)).mem_openFloats
  · intro hkind
    obtain ⟨body, hbody, htext⟩ := (hspelled hkind (by decide)).string_eq
    exact ⟨body, htext, hbody, hbody.feeds_escaped⟩
  · intro hkind
    obtain ⟨body, hbody, htext⟩ := (hspelled hkind (by decide)).blockString_eq
    exact ⟨body, htext, hbody⟩

/-- A number with a fraction. -/
theorem Lexed.classified_ofText_fraction :
    ⟨.float, "1.5", ⟨0, 3⟩⟩ ∈ (Lexed.ofText "1.5").tokens ∧
      Token.Classified ⟨.float, "1.5", ⟨0, 3⟩⟩ "1.5".toList := by
  have hmem : ⟨.float, "1.5", ⟨0, 3⟩⟩ ∈ (Lexed.ofText "1.5").tokens := by
    change _ ∈ (lexemesFrom 0 ['1', '.', '5']).tokens
    rw [lexemesFrom_cons (by decide)]
    exact List.mem_cons_self
  exact ⟨hmem, classified_ofText _ _ hmem⟩

/-- The mark of an exponent ends a number, and a string runs over a line feed behind a backslash: one
is no floating point number, and the other is not on one line. -/
theorem Lexed.classified_ofText_not_strict :
    (⟨.float, "1e", ⟨0, 2⟩⟩ ∈ (Lexed.ofText "1e").tokens ∧ "1e".toList ∉ floats) ∧
      ⟨.string, "\"\\\n\"", ⟨0, 4⟩⟩ ∈ (Lexed.ofText "\"\\\n\"").tokens ∧
        '\n' ∈ "\"\\\n\"".toList := by
  have hfloat : ⟨.float, "1e", ⟨0, 2⟩⟩ ∈ (Lexed.ofText "1e").tokens := by
    change _ ∈ (lexemesFrom 0 ['1', 'e']).tokens
    rw [lexemesFrom_cons (by decide)]
    exact List.mem_cons_self
  have hstring : ⟨.string, "\"\\\n\"", ⟨0, 4⟩⟩ ∈ (Lexed.ofText "\"\\\n\"").tokens := by
    change _ ∈ (lexemesFrom 0 ['"', '\\', '\n', '"']).tokens
    rw [lexemesFrom_cons (by decide)]
    exact List.mem_cons_self
  refine ⟨⟨hfloat, fun h => ?_⟩, hstring, by decide⟩
  obtain ⟨d, hlast, hd⟩ := endsInDigit_of_mem_floats h
  obtain rfl : 'e' = d := Option.some.inj hlast
  exact absurd hd (by decide)

end ResolverContracts
