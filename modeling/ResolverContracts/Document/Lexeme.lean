import ResolverContracts.Document.Token
/-!
# From text to tokens

A text is cut into blanks and lexemes. Blanks are spaces, tabs, line ends, commas, byte order marks
and comments; they separate lexemes and mean nothing. A scanner takes one lexeme off the front of a
text that starts with no blank, as a `Scan`: what it took, what it left, and the kind.

Every scanner takes at least one character and loses none: `scan_split` says that what it took
followed by what it left is what it was given. So the rest is shorter than the text
(`length_rest_scan_lt`), and `lexemesFrom` needs no bound from outside to end.

One count is peculiar. A backslash in a string claims the character behind it; when the text ends
right there, the claim is counted as one byte behind the end of the text (`Scan.beyond`), and the
end of the text is reported there too. Such a token has the empty text, as its span leaves the text.

Places are counted without a bound. For a text of less than 4 GiB, that one byte included, they fit into
the 32 bits that a place has; longer texts are left out.
-/

set_option autoImplicit false

namespace ResolverContracts

/-! ## Classes of characters -/

/-- A character that starts a word: a letter of the Latin alphabet or an underscore. -/
def isNameStart (c : Char) : Bool := c.isAlpha || c == '_'

/-- A character that continues a word. -/
def isNameChar (c : Char) : Bool := c.isAlphanum || c == '_'

/-- A character that separates tokens. Commas count, and so does a byte order mark anywhere. -/
def isBlankChar (c : Char) : Bool :=
  c == ' ' || c == '\t' || c == '\r' || c == '\n' || c == ',' || c == '\ufeff'

/-! ## Blanks -/

/-- The blanks at the front of a text, and what follows. The flag says that a comment has begun; a
comment ends before a line feed, which is a blank itself. -/
def splitBlanks : Bool → List Char → List Char × List Char
  | _, [] => ([], [])
  | true, c :: cs =>
    let (blanks, rest) := splitBlanks (c != '\n') cs
    (c :: blanks, rest)
  | false, c :: cs =>
    if isBlankChar c || c == '#' then
      let (blanks, rest) := splitBlanks (c == '#') cs
      (c :: blanks, rest)
    else ([], c :: cs)

/-- Nothing is lost between the blanks and the rest. -/
theorem splitBlanks_append (comment : Bool) (cs : List Char) :
    (splitBlanks comment cs).1 ++ (splitBlanks comment cs).2 = cs := by
  fun_induction splitBlanks comment cs with
  | case1 => rfl
  | case2 c cs blanks rest h ih => simpa [h] using ih
  | case3 c cs hc blanks rest h ih => simpa [h] using ih
  | case4 c cs hc => rfl

/-! ## Scanners -/

/-- One lexeme taken off the front of a text. -/
structure Scan where
  kind : TokenKind
  taken : List Char
  rest : List Char
  /-- Bytes claimed behind the end of the text. -/
  beyond : Nat

namespace Scan

/-- The same scan with more characters taken in front. -/
def after (s : Scan) (front : List Char) : Scan := { s with taken := front ++ s.taken }

/-- Bytes from the start of the lexeme to where scanning goes on. -/
def width (s : Scan) : Nat := byteLength s.taken + s.beyond

/-- The text of the lexeme. One that claims bytes behind the end of the text has no text there. -/
def text (s : Scan) : String := if s.beyond = 0 then String.ofList s.taken else ""

end Scan

/-- A word: as many word characters as follow. -/
def scanWord (c : Char) (cs : List Char) : Scan :=
  let taken := c :: cs.takeWhile isNameChar
  let kind := match Keyword.ofText? (String.ofList taken) with
    | some k => .keyword k
    | none => .name
  ⟨kind, taken, cs.dropWhile isNameChar, 0⟩

/-- The digits of a whole number: a single zero, or digits that start with another one. -/
def integerPart (cs : List Char) : List Char :=
  match cs with
  | '0' :: _ => ['0']
  | _ => cs.takeWhile Char.isDigit

/-- A point and the digits behind it, or nothing where no digit follows a point. -/
def fractionPart (cs : List Char) : List Char :=
  match cs with
  | '.' :: d :: ds => if d.isDigit then '.' :: d :: ds.takeWhile Char.isDigit else []
  | _ => []

/-- The sign of an exponent. -/
def exponentSign (cs : List Char) : List Char :=
  match cs with
  | '+' :: _ => ['+']
  | '-' :: _ => ['-']
  | _ => []

/-- An exponent mark, its sign and its digits. The mark alone is taken, too: a number that ends in
it is a number without a value. -/
def exponentPart (cs : List Char) : List Char :=
  match cs with
  | c :: cs =>
    if c == 'e' || c == 'E' then
      let sign := exponentSign cs
      c :: (sign ++ (cs.drop sign.length).takeWhile Char.isDigit)
    else []
  | [] => []

/-- A number behind its sign. Without a digit there the sign alone is a stray lexeme. -/
def scanUnsigned (sign : List Char) (cs : List Char) : Scan :=
  let whole := integerPart cs
  if whole.isEmpty then ⟨.stray, sign, cs, 0⟩
  else
    let afterWhole := cs.drop whole.length
    let fraction := fractionPart afterWhole
    let afterFraction := afterWhole.drop fraction.length
    let exponent := exponentPart afterFraction
    let kind := if fraction.isEmpty && exponent.isEmpty then .int else .float
    ⟨kind, sign ++ (whole ++ (fraction ++ exponent)), afterFraction.drop exponent.length, 0⟩

/-- A string behind its opening quote. It ends at the next quote that no backslash claims; a line
feed or the end of the text before that leaves a stray lexeme. -/
def scanString : List Char → Scan
  | [] => ⟨.stray, [], [], 0⟩
  | '\n' :: cs => ⟨.stray, [], '\n' :: cs, 0⟩
  | '"' :: cs => ⟨.string, ['"'], cs, 0⟩
  | '\\' :: [] => ⟨.stray, ['\\'], [], 1⟩
  | '\\' :: c :: cs => (scanString cs).after ['\\', c]
  | c :: cs => (scanString cs).after [c]

/-- A block string behind its opening quotes. It ends at the next three quotes without a backslash
in front; the end of the text before that leaves a stray lexeme. -/
def scanBlockString : List Char → Scan
  | [] => ⟨.stray, [], [], 0⟩
  | '"' :: '"' :: '"' :: cs => ⟨.blockString, ['"', '"', '"'], cs, 0⟩
  | '\\' :: '"' :: '"' :: '"' :: cs => (scanBlockString cs).after ['\\', '"', '"', '"']
  | c :: cs => (scanBlockString cs).after [c]

/-- Either kind of string, behind the first quote. -/
def scanQuoted : List Char → Scan
  | '"' :: '"' :: cs => (scanBlockString cs).after ['"', '"', '"']
  | cs => (scanString cs).after ['"']

/-- Three points are one lexeme; a point alone is a stray one. -/
def scanPoints : List Char → Scan
  | '.' :: '.' :: cs => ⟨.punct .ellipsis, ['.', '.', '.'], cs, 0⟩
  | cs => ⟨.stray, ['.'], cs, 0⟩

/-- The lexeme at the front of a text that starts with `c`, which is no blank. A character that
starts no lexeme is a stray lexeme of its own. -/
def scan (c : Char) (cs : List Char) : Scan :=
  if c == '.' then scanPoints cs
  else if c == '"' then scanQuoted cs
  else if c == '-' then scanUnsigned ['-'] cs
  else if c.isDigit then scanUnsigned [] (c :: cs)
  else if isNameStart c then scanWord c cs
  else match Punctuator.ofChar? c with
    | some p => ⟨.punct p, [c], cs, 0⟩
    | none => ⟨.stray, [c], cs, 0⟩

/-! ## Nothing is lost -/

/-- A scan splits a text: what was taken, then what was left. -/
def Scan.Splits (s : Scan) (cs : List Char) : Prop := s.taken ++ s.rest = cs

theorem Scan.Splits.after {s : Scan} {cs : List Char} (h : s.Splits cs) (front : List Char) :
    (s.after front).Splits (front ++ cs) := by
  simp only [Splits, Scan.after] at h ⊢
  rw [List.append_assoc, h]

theorem scanString_splits (cs : List Char) : (scanString cs).Splits cs := by
  fun_induction scanString cs with
  | case1 => rfl
  | case2 => rfl
  | case3 => rfl
  | case4 => rfl
  | case5 c cs ih => exact ih.after ['\\', c]
  | case6 c cs _ _ _ _ ih => exact ih.after [c]

theorem scanBlockString_splits (cs : List Char) : (scanBlockString cs).Splits cs := by
  fun_induction scanBlockString cs with
  | case1 => rfl
  | case2 => rfl
  | case3 cs ih => exact ih.after ['\\', '"', '"', '"']
  | case4 c cs _ _ ih => exact ih.after [c]

theorem scanQuoted_splits (cs : List Char) : (scanQuoted cs).Splits ('"' :: cs) := by
  fun_cases scanQuoted cs with
  | case1 cs => exact (scanBlockString_splits cs).after ['"', '"', '"']
  | case2 cs => exact (scanString_splits cs).after ['"']

theorem scanPoints_splits (cs : List Char) : (scanPoints cs).Splits ('.' :: cs) := by
  fun_cases scanPoints cs <;> rfl

/-- A front part of a text, followed by what is left after its length, is the text. -/
theorem append_drop_of_isFront {xs ys : List Char} (h : xs <+: ys) :
    xs ++ ys.drop xs.length = ys := by
  obtain ⟨zs, rfl⟩ := h
  simp

/-- Each part of a number is a front of what the parts before it left. -/
theorem integerPart_isFront (cs : List Char) : integerPart cs <+: cs := by
  fun_cases integerPart cs with
  | case1 cs => exact ⟨cs, rfl⟩
  | case2 => exact List.takeWhile_prefix _

theorem fractionPart_isFront (cs : List Char) : fractionPart cs <+: cs := by
  fun_cases fractionPart cs with
  | case1 d ds => simpa using List.takeWhile_prefix Char.isDigit (l := ds)
  | case2 => exact List.nil_prefix
  | case3 => exact List.nil_prefix

theorem exponentSign_isFront (cs : List Char) : exponentSign cs <+: cs := by
  fun_cases exponentSign cs with
  | case1 cs => exact ⟨cs, rfl⟩
  | case2 cs => exact ⟨cs, rfl⟩
  | case3 => exact List.nil_prefix

theorem exponentPart_isFront (cs : List Char) : exponentPart cs <+: cs := by
  fun_cases exponentPart cs with
  | case1 c cs _ sign =>
    obtain ⟨zs, hz⟩ := List.takeWhile_prefix (l := cs.drop sign.length) Char.isDigit
    have hs : sign ++ cs.drop sign.length = cs := append_drop_of_isFront (exponentSign_isFront cs)
    exact ⟨zs, by simp only [List.cons_append, List.append_assoc, hz, hs]⟩
  | case2 => exact List.nil_prefix
  | case3 => exact List.nil_prefix

theorem scanUnsigned_splits (sign cs : List Char) : (scanUnsigned sign cs).Splits (sign ++ cs) := by
  fun_cases scanUnsigned sign cs with
  | case1 => rfl
  | case2 whole hw afterWhole fraction afterFraction exponent kind =>
    have h₁ : exponent ++ afterFraction.drop exponent.length = afterFraction :=
      append_drop_of_isFront (exponentPart_isFront _)
    have h₂ : fraction ++ afterFraction = afterWhole :=
      append_drop_of_isFront (fractionPart_isFront _)
    have h₃ : whole ++ afterWhole = cs := append_drop_of_isFront (integerPart_isFront _)
    simp only [Scan.Splits, List.append_assoc, h₁, h₂, h₃]

theorem scanWord_splits (c : Char) (cs : List Char) : (scanWord c cs).Splits (c :: cs) := by
  simp only [Scan.Splits, scanWord, List.cons_append, List.takeWhile_append_dropWhile]

/-- What a scan took, followed by what it left, is the text it was given. -/
theorem scan_split (c : Char) (cs : List Char) : (scan c cs).Splits (c :: cs) := by
  unfold scan
  split
  · next h => rw [beq_iff_eq.mp h]; exact scanPoints_splits cs
  split
  · next h => rw [beq_iff_eq.mp h]; exact scanQuoted_splits cs
  split
  · next h => rw [beq_iff_eq.mp h]; exact scanUnsigned_splits ['-'] cs
  split
  · exact scanUnsigned_splits [] (c :: cs)
  split
  · exact scanWord_splits c cs
  split <;> rfl

/-! ## Something is taken -/

theorem integerPart_ne_nil {c : Char} (cs : List Char) (h : c.isDigit = true) :
    integerPart (c :: cs) ≠ [] := by
  unfold integerPart
  split
  · simp
  · simp [h]

/-- What looks like a number takes its sign at least. -/
theorem scanUnsigned_taken_ne_nil {sign cs : List Char} (h : sign ≠ [] ∨ integerPart cs ≠ []) :
    (scanUnsigned sign cs).taken ≠ [] := by
  fun_cases scanUnsigned sign cs with
  | case1 whole hw => simpa using h.resolve_right (by simpa [whole] using hw)
  | case2 whole hw =>
    have : whole ≠ [] := by simpa using hw
    simp [this]

/-- Every lexeme has at least one character. -/
theorem scan_taken_ne_nil (c : Char) (cs : List Char) : (scan c cs).taken ≠ [] := by
  unfold scan
  split
  · fun_cases scanPoints cs <;> simp
  split
  · fun_cases scanQuoted cs <;> simp [Scan.after]
  split
  · exact scanUnsigned_taken_ne_nil (.inl (by simp))
  split
  · next h => exact scanUnsigned_taken_ne_nil (.inr (integerPart_ne_nil cs h))
  split
  · simp [scanWord]
  split <;> simp

/-- Every lexeme leaves less than it was given. -/
theorem length_rest_scan_lt (c : Char) (cs : List Char) :
    (scan c cs).rest.length < (c :: cs).length := by
  have hs : ((scan c cs).taken ++ (scan c cs).rest).length = (c :: cs).length :=
    congrArg List.length (scan_split c cs)
  have := List.length_pos_iff.mpr (scan_taken_ne_nil c cs)
  rw [List.length_append] at hs
  omega

/-! ## The whole text -/

/-- A text as tokens: those before the end of the text, and where the end of the text is. -/
structure Lexed where
  tokens : List Token
  stop : Nat

/-- The tokens of a text that begins at the byte `place`. -/
def lexemesFrom (place : Nat) (cs : List Char) : Lexed :=
  let start := place + byteLength (splitBlanks false cs).1
  match _h : (splitBlanks false cs).2 with
  | [] => ⟨[], start⟩
  | c :: rest =>
    let s := scan c rest
    let later := lexemesFrom (start + s.width) s.rest
    ⟨⟨s.kind, s.text, ⟨start, start + s.width⟩⟩ :: later.tokens, later.stop⟩
termination_by cs.length
decreasing_by
  have hs := length_rest_scan_lt c rest
  have hb := congrArg List.length (splitBlanks_append false cs)
  rw [List.length_append, _h] at hb
  omega

/-- The tokens of a text. -/
def Lexed.ofText (text : String) : Lexed := lexemesFrom 0 text.toList

/-- All tokens, the end of the text included. -/
def Lexed.all (l : Lexed) : List Token := l.tokens ++ [.endAt l.stop]

end ResolverContracts
