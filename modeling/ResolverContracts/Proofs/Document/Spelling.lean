import ResolverContracts.Document.Lexeme
/-!
# Spellings

Which texts are tokens, said without a scanner: `Spelled kind cs` lists the spellings of each kind of
token as the schema language has them. The main result, `Spelled.scan`, is that the scanner finds a
spelling whole where something follows that separates tokens, or nothing at all.

A scanner takes as much as it can, so for every open-ended spelling there is one thing to see: a
separating character continues no word, no number and no string (`Boundary.stops`).
-/

set_option autoImplicit false

namespace ResolverContracts

/-! ## Separating characters -/

/-- The characters that can stand behind a token without being part of one: blanks, and the sign
that starts a comment. -/
def separators : List Char := [' ', '\t', '\r', '\n', ',', '\ufeff', '#']

theorem mem_separators_iff {c : Char} : c ∈ separators ↔ (isBlankChar c || c == '#') = true := by
  simp [separators, isBlankChar, or_assoc]

/-- A text that is empty or starts with a separating character. -/
def Boundary (cs : List Char) : Prop := ∀ c ∈ cs.head?, c ∈ separators

theorem boundary_nil : Boundary [] := by simp [Boundary]

theorem boundary_cons {c : Char} {cs : List Char} (h : c ∈ separators) : Boundary (c :: cs) := by
  simpa [Boundary] using h

/-- A text that does not start with such a character. -/
def Stops (p : Char → Bool) (cs : List Char) : Prop := ∀ c ∈ cs.head?, p c = false

/-- A class without separators in it stops at a boundary. Every class of characters that a token goes
on with is of this sort. -/
theorem Boundary.stops {cs : List Char} (h : Boundary cs) {p : Char → Bool}
    (hp : separators.any p = false) : Stops p cs :=
  fun c hc => Bool.eq_false_iff.mpr (List.any_eq_false.mp hp c (h c hc))

theorem stops_cons {p : Char → Bool} {c : Char} {cs : List Char} (h : p c = false) :
    Stops p (c :: cs) := by
  simpa [Stops] using h

/-- What follows the characters of a class is not taken with them. -/
theorem takeWhile_append_of_stops {p : Char → Bool} {cs rest : List Char}
    (hcs : ∀ c ∈ cs, p c = true) (hrest : Stops p rest) : (cs ++ rest).takeWhile p = cs := by
  rw [List.takeWhile_append_of_pos hcs]
  cases rest with
  | nil => simp
  | cons c rest => simp [hrest c rfl]

theorem dropWhile_append_of_stops {p : Char → Bool} {cs rest : List Char}
    (hcs : ∀ c ∈ cs, p c = true) (hrest : Stops p rest) : (cs ++ rest).dropWhile p = rest := by
  rw [List.dropWhile_append_of_pos hcs]
  cases rest with
  | nil => rfl
  | cons c rest => simp [hrest c rfl]

/-! ## Spellings -/

/-- The kind of a word: a keyword, or a name. -/
def TokenKind.ofWord (word : String) : TokenKind :=
  match Keyword.ofText? word with
  | some k => .keyword k
  | none => .name

/-- The sign of a number, if it has one. -/
inductive SignPart : List Char → Prop
  | none : SignPart []
  | minus : SignPart ['-']

/-- A whole number without its sign: a zero, or digits that do not start with one. -/
inductive WholePart : List Char → Prop
  | zero : WholePart ['0']
  | digits {d : Char} {ds : List Char} (hd : d.isDigit = true) (hzero : d ≠ '0')
      (hds : ∀ x ∈ ds, x.isDigit = true) : WholePart (d :: ds)

/-- A point and at least one digit, or nothing. -/
inductive PointPart : List Char → Prop
  | none : PointPart []
  | point {d : Char} {ds : List Char} (hd : d.isDigit = true) (hds : ∀ x ∈ ds, x.isDigit = true) :
      PointPart ('.' :: d :: ds)

/-- An exponent, or nothing. The mark of an exponent is enough. -/
inductive PowerPart : List Char → Prop
  | none : PowerPart []
  | power {e : Char} {sign ds : List Char} (he : e ∈ ['e', 'E']) (hsign : sign ∈ [[], ['+'], ['-']])
      (hds : ∀ x ∈ ds, x.isDigit = true) : PowerPart (e :: (sign ++ ds))

/-- What may stand between the quotes of a string. A backslash claims the character behind it. -/
inductive QuotedPart : List Char → Prop
  | nil : QuotedPart []
  | plain {c : Char} {cs : List Char} (hc : c ∉ ['"', '\\', '\n']) (hcs : QuotedPart cs) :
      QuotedPart (c :: cs)
  | escaped {c : Char} {cs : List Char} (hcs : QuotedPart cs) : QuotedPart ('\\' :: c :: cs)

/-- The quotes that open and close a block string. -/
def blockQuotes : List Char := ['"', '"', '"']

/-- What may stand between the quotes of a block string: anything in which three quotes have a
backslash in front, the closing quotes included. -/
inductive BlockPart : List Char → Prop
  | nil : BlockPart []
  | plain {c : Char} {cs : List Char} (hclose : ¬ blockQuotes <+: c :: (cs ++ blockQuotes))
      (hescape : ¬ '\\' :: blockQuotes <+: c :: (cs ++ blockQuotes)) (hcs : BlockPart cs) :
      BlockPart (c :: cs)
  | escaped {cs : List Char} (hcs : BlockPart cs) : BlockPart ('\\' :: (blockQuotes ++ cs))

/-- The spellings of each kind of token. -/
inductive Spelled : TokenKind → List Char → Prop
  | word {c : Char} {cs : List Char} (hc : isNameStart c = true)
      (hcs : ∀ x ∈ cs, isNameChar x = true) : Spelled (.ofWord (String.ofList (c :: cs))) (c :: cs)
  | int {sign whole : List Char} (hsign : SignPart sign) (hwhole : WholePart whole) :
      Spelled .int (sign ++ whole)
  | float {sign whole point power : List Char} (hsign : SignPart sign) (hwhole : WholePart whole)
      (hpoint : PointPart point) (hpower : PowerPart power) (hpart : point ≠ [] ∨ power ≠ []) :
      Spelled .float (sign ++ (whole ++ (point ++ power)))
  | string {cs : List Char} (hcs : QuotedPart cs) : Spelled .string ('"' :: (cs ++ ['"']))
  | blockString {cs : List Char} (hcs : BlockPart cs) :
      Spelled .blockString (blockQuotes ++ (cs ++ blockQuotes))
  | punct (mark : Punctuator) : Spelled (.punct mark) mark.text.toList

/-! ## Words -/

theorem scanWord_of_boundary {c : Char} {cs rest : List Char} (hcs : ∀ x ∈ cs, isNameChar x = true)
    (hrest : Boundary rest) :
    scanWord c (cs ++ rest) = ⟨.ofWord (String.ofList (c :: cs)), c :: cs, rest, 0⟩ := by
  have hstop : Stops isNameChar rest := hrest.stops (by decide)
  simp only [scanWord, takeWhile_append_of_stops hcs hstop, dropWhile_append_of_stops hcs hstop]
  rfl

/-! ## Numbers -/

theorem WholePart.integerPart {whole rest : List Char} (h : WholePart whole)
    (hrest : Stops Char.isDigit rest) : integerPart (whole ++ rest) = whole := by
  cases h with
  | zero => rfl
  | @digits d ds hd hzero hds =>
    rw [List.cons_append, integerPart.eq_2 _ (by simp [hzero])]
    exact takeWhile_append_of_stops (List.forall_mem_cons.mpr ⟨hd, hds⟩) hrest

/-- Without a fraction no point may follow, as it would be taken for one. -/
theorem PointPart.fractionPart {point rest : List Char} (h : PointPart point)
    (hrest : Stops Char.isDigit rest) (hpoint : Stops (· == '.') rest) :
    fractionPart (point ++ rest) = point := by
  cases h with
  | none =>
    cases rest with
    | nil => rfl
    | cons c rest =>
      have hc : c ≠ '.' := by simpa using hpoint c rfl
      simp [ResolverContracts.fractionPart, hc]
  | point hd hds =>
    simp only [List.cons_append, ResolverContracts.fractionPart, hd, if_true,
      takeWhile_append_of_stops hds hrest]

theorem exponentSign_append {sign cs : List Char} (hsign : sign ∈ [[], ['+'], ['-']])
    (hcs : Stops (fun c => c == '+' || c == '-') cs) : exponentSign (sign ++ cs) = sign := by
  simp only [List.mem_cons, List.not_mem_nil, or_false] at hsign
  obtain rfl | rfl | rfl := hsign
  · cases cs with
    | nil => rfl
    | cons c cs =>
      have hc : c ≠ '+' ∧ c ≠ '-' := by simpa using hcs c rfl
      simp [exponentSign, hc]
  · rfl
  · rfl

/-- Digits, or else the rest, start with no sign. -/
theorem stops_sign_append {ds rest : List Char} (hds : ∀ x ∈ ds, x.isDigit = true)
    (hrest : Stops (fun c => c == '+' || c == '-') rest) :
    Stops (fun c => c == '+' || c == '-') (ds ++ rest) := by
  cases ds with
  | nil => exact hrest
  | cons d ds =>
    have hd : d.isDigit = true := hds d (List.mem_cons_self ..)
    refine stops_cons ?_
    simp only [Bool.or_eq_false_iff, beq_eq_false_iff_ne]
    constructor <;> rintro rfl <;> exact absurd hd (by decide)

theorem PowerPart.exponentPart {power rest : List Char} (h : PowerPart power)
    (hrest : Boundary rest) : exponentPart (power ++ rest) = power := by
  cases h with
  | none =>
    cases rest with
    | nil => rfl
    | cons c rest =>
      have hc : (c == 'e' || c == 'E') = false :=
        hrest.stops (p := fun c => c == 'e' || c == 'E') (by decide) c rfl
      simp [ResolverContracts.exponentPart, hc]
  | @power e sign ds he hsign hds =>
    have hmark : (e == 'e' || e == 'E') = true := by simpa using he
    have hs : exponentSign (sign ++ (ds ++ rest)) = sign :=
      exponentSign_append hsign (stops_sign_append hds (hrest.stops (by decide)))
    simp only [List.cons_append, List.append_assoc, ResolverContracts.exponentPart, hmark, if_true,
      hs, List.drop_left, takeWhile_append_of_stops hds (hrest.stops (by decide))]

/-- Behind a whole number stands no digit: a point or a mark comes first, or the number ends. -/
theorem stops_digit_append {point power rest : List Char} (hpoint : PointPart point)
    (hpower : PowerPart power) (hrest : Boundary rest) :
    Stops Char.isDigit (point ++ (power ++ rest)) ∧ Stops Char.isDigit (power ++ rest) := by
  have hlast : Stops Char.isDigit (power ++ rest) := by
    cases hpower with
    | none => exact hrest.stops (by decide)
    | @power e sign ds he =>
      simp only [List.mem_cons, List.not_mem_nil, or_false] at he
      obtain rfl | rfl := he <;> exact stops_cons (by decide)
  refine ⟨?_, hlast⟩
  cases hpoint with
  | none => exact hlast
  | point => exact stops_cons (by decide)

/-- An exponent starts with no point, and neither does what follows a number. -/
theorem PowerPart.stops_point {power rest : List Char} (h : PowerPart power)
    (hrest : Boundary rest) : Stops (· == '.') (power ++ rest) := by
  cases h with
  | none => exact hrest.stops (by decide)
  | @power e sign ds he =>
    simp only [List.mem_cons, List.not_mem_nil, or_false] at he
    obtain rfl | rfl := he <;> exact stops_cons (by decide)

theorem WholePart.ne_nil {whole : List Char} (h : WholePart whole) : whole ≠ [] := by
  cases h <;> simp

/-- A number in three parts, each of which ends where the next begins. -/
theorem scanUnsigned_of_boundary {sign whole point power rest : List Char}
    (hwhole : WholePart whole) (hpoint : PointPart point) (hpower : PowerPart power)
    (hrest : Boundary rest) :
    scanUnsigned sign (whole ++ (point ++ (power ++ rest))) =
      ⟨if point.isEmpty && power.isEmpty then .int else .float,
        sign ++ (whole ++ (point ++ power)), rest, 0⟩ := by
  -- Each part ends where the next one starts, so all of them are found from the left.
  obtain ⟨hfirst, hlast⟩ := stops_digit_append hpoint hpower hrest
  have hw : integerPart (whole ++ (point ++ (power ++ rest))) = whole := hwhole.integerPart hfirst
  have hp : fractionPart (point ++ (power ++ rest)) = point :=
    hpoint.fractionPart hlast (hpower.stops_point hrest)
  have he : exponentPart (power ++ rest) = power := hpower.exponentPart hrest
  have hne : whole.isEmpty = false := by simpa using hwhole.ne_nil
  simp [scanUnsigned, hw, hp, he, hne]

/-! ## Strings -/

theorem QuotedPart.scanString {cs : List Char} (h : QuotedPart cs) (rest : List Char) :
    scanString (cs ++ '"' :: rest) = ⟨.string, cs ++ ['"'], rest, 0⟩ := by
  induction h with
  | nil => rfl
  | @plain c cs hc hcs ih =>
    simp only [List.mem_cons, List.not_mem_nil, or_false, not_or] at hc
    obtain ⟨hquote, hslash, hfeed⟩ := hc
    rw [List.cons_append, ResolverContracts.scanString.eq_6 _ _ hfeed hquote (by simp [hslash])
      (by simp [hslash]), ih]
    rfl
  | @escaped c cs hcs ih =>
    simp only [List.cons_append, ResolverContracts.scanString, ih]
    rfl

/-- What stands in front of a text is in front of every longer one. -/
theorem not_front_append {front cs : List Char} (h : ¬ front <+: cs)
    (hlength : front.length ≤ cs.length) (rest : List Char) : ¬ front <+: cs ++ rest :=
  fun hfront => h (List.prefix_of_prefix_length_le hfront (List.prefix_append cs rest) hlength)

theorem BlockPart.scanBlockString {cs : List Char} (h : BlockPart cs) (rest : List Char) :
    scanBlockString (cs ++ (blockQuotes ++ rest)) = ⟨.blockString, cs ++ blockQuotes, rest, 0⟩ := by
  induction h with
  | nil => rfl
  | @plain c cs hclose hescape hcs ih =>
    -- The quotes that close the string are long enough to decide both questions.
    have hc : ¬ blockQuotes <+: c :: (cs ++ (blockQuotes ++ rest)) := by
      simpa using not_front_append hclose (by simp [blockQuotes]) rest
    have he : ¬ '\\' :: blockQuotes <+: c :: (cs ++ (blockQuotes ++ rest)) := by
      simpa using not_front_append hescape (by simp [blockQuotes]) rest
    rw [List.cons_append, ResolverContracts.scanBlockString.eq_4, ih]
    · rfl
    · rintro ds rfl hds
      exact hc ⟨ds, by rw [hds]; rfl⟩
    · rintro ds rfl hds
      exact he ⟨ds, by rw [hds]; rfl⟩
  | @escaped cs hcs ih =>
    simp only [blockQuotes, List.cons_append, List.nil_append, ResolverContracts.scanBlockString]
      at ih ⊢
    rw [ih]
    rfl

/-- A string is no block string: behind two quotes with nothing in between stands no third one. -/
theorem scanQuoted_of_quotedPart {cs rest : List Char} (h : QuotedPart cs) (hrest : Boundary rest) :
    scanQuoted (cs ++ '"' :: rest) = ⟨.string, '"' :: (cs ++ ['"']), rest, 0⟩ := by
  rw [scanQuoted.eq_2, h.scanString]
  · rfl
  · intro ds hds
    cases h with
    | nil =>
      obtain ⟨-, rfl⟩ : True ∧ rest = '"' :: ds := by simpa using hds
      exact absurd (hrest '"' rfl) (by decide)
    | plain hc => simp_all
    | escaped => simp at hds

/-! ## All tokens -/

/-- A character that is certainly not one of a class. -/
theorem beq_false_of_class {p : Char → Bool} {c d : Char} (hc : p c = true) (hd : p d = false) :
    (c == d) = false := by
  rw [beq_eq_false_iff_ne]
  rintro rfl
  simp [hc] at hd

/-- Letters and the underscore come behind the digits. -/
theorem le_toNat_of_isNameStart {c : Char} (h : isNameStart c = true) : 'A'.toNat ≤ c.toNat := by
  rw [isNameStart, Bool.or_eq_true, beq_iff_eq] at h
  obtain halpha | rfl := h
  · have hcases : c.isUpper = true ∨ c.isLower = true := Bool.or_eq_true_iff.mp halpha
    obtain hupper | hlower := hcases
    · exact (of_decide_eq_true hupper).1
    · have ha : 'a'.val ≤ c.val := of_decide_eq_true (Bool.and_eq_true_iff.mp hlower).1
      exact Nat.le_trans (by decide) (UInt32.le_iff_toNat_le.mp ha)
  · decide

/-- The scanner asks for digits first, so a name must not start with one. -/
theorem isDigit_of_isNameStart {c : Char} (h : isNameStart c = true) : c.isDigit = false := by
  rw [Bool.eq_false_iff]
  intro hdigit
  have hstart := le_toNat_of_isNameStart h
  have hlast : c.toNat ≤ '9'.toNat := (Char.isDigit_iff_toNat.mp hdigit).2
  exact absurd (Nat.le_trans hstart hlast) (by decide)

theorem scan_of_isNameStart {c : Char} (cs : List Char) (h : isNameStart c = true) :
    scan c cs = scanWord c cs := by
  simp only [scan, beq_false_of_class (d := '.') h rfl, beq_false_of_class (d := '"') h rfl,
    beq_false_of_class (d := '-') h rfl, isDigit_of_isNameStart h, h, if_true, Bool.false_eq_true,
    if_false]

theorem scan_of_isDigit {c : Char} (cs : List Char) (h : c.isDigit = true) :
    scan c cs = scanUnsigned [] (c :: cs) := by
  simp only [scan, beq_false_of_class (d := '.') h rfl, beq_false_of_class (d := '"') h rfl,
    beq_false_of_class (d := '-') h rfl, h, if_true, Bool.false_eq_true, if_false]

/-- A token found whole: its first character is no separator, and the scanner takes the token and
nothing else wherever a boundary follows. -/
def ScansAs (kind : TokenKind) (text : List Char) : Prop :=
  ∃ c cs, text = c :: cs ∧ c ∉ separators ∧
    ∀ rest, Boundary rest → scan c (cs ++ rest) = ⟨kind, text, rest, 0⟩

theorem not_mem_separators {p : Char → Bool} {c : Char} (hc : p c = true)
    (hp : separators.any p = false) : c ∉ separators :=
  fun h => List.any_eq_false.mp hp c h hc

theorem WholePart.starts {whole : List Char} (h : WholePart whole) :
    ∃ d ds, whole = d :: ds ∧ d.isDigit = true := by
  cases h with
  | zero => exact ⟨'0', [], rfl, rfl⟩
  | digits hd => exact ⟨_, _, rfl, hd⟩

/-- A number with all its parts. Behind a sign the scanner reads on as it does without one. -/
theorem scansAs_number {sign whole point power : List Char} (hsign : SignPart sign)
    (hwhole : WholePart whole) (hpoint : PointPart point) (hpower : PowerPart power) :
    ScansAs (if point.isEmpty && power.isEmpty then .int else .float)
      (sign ++ (whole ++ (point ++ power))) := by
  have hscan : ∀ rest, Boundary rest → scanUnsigned sign (whole ++ (point ++ (power ++ rest))) = _ :=
    fun rest => scanUnsigned_of_boundary hwhole hpoint hpower
  cases hsign with
  | none =>
    obtain ⟨d, ds, rfl, hd⟩ := hwhole.starts
    refine ⟨d, ds ++ (point ++ power), rfl, not_mem_separators hd (by decide), fun rest hrest => ?_⟩
    rw [scan_of_isDigit _ hd, ← hscan rest hrest]
    simp
  | minus =>
    refine ⟨'-', whole ++ (point ++ power), rfl, by decide, fun rest hrest => ?_⟩
    rw [← hscan rest hrest]
    simp [scan]

theorem scansAs_punct (mark : Punctuator) : ScansAs (.punct mark) mark.text.toList := by
  cases mark <;> exact ⟨_, _, rfl, by decide, fun rest _ => rfl⟩

/-- The scanner finds every spelling whole. -/
theorem Spelled.scansAs {kind : TokenKind} {text : List Char} (h : Spelled kind text) :
    ScansAs kind text := by
  cases h with
  | @word c cs hc hcs =>
    refine ⟨c, cs, rfl, not_mem_separators hc (by decide), fun rest hrest => ?_⟩
    rw [scan_of_isNameStart _ hc, scanWord_of_boundary hcs hrest]
  | int hsign hwhole => simpa using scansAs_number hsign hwhole .none .none
  | @float sign whole point power hsign hwhole hpoint hpower hpart =>
    have hkind : (point.isEmpty && power.isEmpty) = false := by
      rw [Bool.and_eq_false_iff]
      exact hpart.imp (by simp) (by simp)
    simpa [hkind] using scansAs_number hsign hwhole hpoint hpower
  | @string cs hcs =>
    refine ⟨'"', cs ++ ['"'], rfl, by decide, fun rest hrest => ?_⟩
    rw [List.append_assoc]
    exact scanQuoted_of_quotedPart hcs hrest
  | @blockString cs hcs =>
    refine ⟨'"', '"' :: '"' :: (cs ++ blockQuotes), rfl, by decide, fun rest _ => ?_⟩
    rw [List.cons_append, List.cons_append, List.append_assoc]
    change (scanBlockString (cs ++ (blockQuotes ++ rest))).after blockQuotes = _
    rw [hcs.scanBlockString rest]
    rfl
  | punct mark => exact scansAs_punct mark

end ResolverContracts
