import ResolverContracts.Proofs.Document.Spelling
/-!
# Layouts

How a row of tokens may be set in a text: each token spelled out, with at least one separating
character or comment between two of them, and with any of those in front and behind. `Layout ls cs`
says that the text `cs` is the row `ls` set so. A comment runs to the end of its line, and the one
behind the last token may run to the end of the text.

Cutting such a text into tokens gives the row back (`Layout.lexemes`), wherever the text begins.
-/

set_option autoImplicit false

namespace ResolverContracts

/-! ## Lexemes -/

/-- A token apart from its place. -/
structure Lexeme where
  kind : TokenKind
  text : String
  deriving DecidableEq

/-- What is left of a token without its place. -/
def Token.lexeme (t : Token) : Lexeme := ⟨t.kind, t.text⟩

namespace Lexeme

/-- A word, be it a keyword or not. -/
def word (text : String) : Lexeme := ⟨.ofWord text, text⟩

/-- A keyword where it has its own meaning. -/
def keyword (k : Keyword) : Lexeme := ⟨.keyword k, k.text⟩

/-- Punctuation. -/
def mark (p : Punctuator) : Lexeme := ⟨.punct p, p.text⟩

/-- The text of the lexeme is a spelling of its kind. -/
def IsSpelled (l : Lexeme) : Prop := Spelled l.kind l.text.toList

/-- A keyword is a word like any other. -/
theorem word_text (k : Keyword) : word k.text = keyword k := by
  simp [word, keyword, TokenKind.ofWord, Keyword.ofText?_text]

theorem isName_word (text : String) : (word text).kind.isName = true := by
  simp only [word, TokenKind.ofWord]
  split <;> rfl

theorem kind_word_ne_punct (text : String) (p : Punctuator) : (word text).kind ≠ .punct p := by
  intro h
  have hname := isName_word text
  simp [h, TokenKind.isName] at hname

end Lexeme

/-- A text that is a word: a character that starts one, and characters that continue it. -/
def isWord (text : String) : Bool :=
  match text.toList with
  | c :: cs => isNameStart c && cs.all isNameChar
  | [] => false

theorem Lexeme.isSpelled_word {text : String} (h : isWord text = true) : (word text).IsSpelled := by
  unfold isWord at h
  split at h
  · next c cs htext =>
    rw [Bool.and_eq_true, List.all_eq_true] at h
    have hspelled : Spelled (.ofWord (String.ofList (c :: cs))) (c :: cs) := .word h.1 h.2
    rwa [← htext, String.ofList_toList] at hspelled
  · exact absurd h (by decide)

theorem Lexeme.isSpelled_keyword (k : Keyword) : (keyword k).IsSpelled := by
  rw [← word_text]
  exact isSpelled_word (by cases k <;> decide)

theorem Lexeme.isSpelled_mark (p : Punctuator) : (mark p).IsSpelled := .punct p

/-- The lexemes of a text. -/
def Lexed.lexemes (l : Lexed) : List Lexeme := l.tokens.map Token.lexeme

/-! ## Blanks -/

/-- What may stand between two tokens. -/
inductive Blanks : List Char → Prop
  | nil : Blanks []
  | blank {c : Char} {cs : List Char} (hc : isBlankChar c = true) (hcs : Blanks cs) : Blanks (c :: cs)
  | comment {body cs : List Char} (hbody : '\n' ∉ body) (hcs : Blanks cs) :
      Blanks ('#' :: (body ++ '\n' :: cs))

/-- What may stand behind the last token: a comment there needs no end of line. -/
inductive LastBlanks : List Char → Prop
  | blanks {cs : List Char} (hcs : Blanks cs) : LastBlanks cs
  | comment {cs body : List Char} (hcs : Blanks cs) (hbody : '\n' ∉ body) :
      LastBlanks (cs ++ '#' :: body)

/-- A row of tokens set in a text. Where one token ends, the text ends or something separates it from
the next one. -/
inductive Layout : List Lexeme → List Char → Prop
  | blank {cs : List Char} (hcs : LastBlanks cs) : Layout [] cs
  | token {gap : List Char} {l : Lexeme} {ls : List Lexeme} {cs : List Char} (hgap : Blanks gap)
      (hl : l.IsSpelled) (hend : Boundary cs) (hcs : Layout ls cs) :
      Layout (l :: ls) (gap ++ (l.text.toList ++ cs))

/-- A token behind a single space. -/
theorem Layout.spaced {l : Lexeme} {ls : List Lexeme} {cs : List Char} (hl : l.IsSpelled)
    (hend : Boundary cs) (hcs : Layout ls cs) : Layout (l :: ls) (' ' :: (l.text.toList ++ cs)) :=
  .token (.blank rfl .nil) hl hend hcs

/-! ## Cutting -/

/-- Within a comment everything is blank up to the end of the line. -/
theorem splitBlanks_comment {body : List Char} (hbody : '\n' ∉ body) (rest : List Char) :
    (splitBlanks true (body ++ rest)).2 = (splitBlanks true rest).2 := by
  induction body with
  | nil => rfl
  | cons c body ih =>
    obtain ⟨hc, hbody⟩ : '\n' ≠ c ∧ '\n' ∉ body := by simpa using hbody
    have hflag : (c != '\n') = true := by simpa using hc.symm
    simp only [List.cons_append, splitBlanks, hflag, ih hbody]

/-- A comment up to the end of its line, and the line feed. -/
theorem splitBlanks_line {body rest : List Char} (hbody : '\n' ∉ body) :
    (splitBlanks false ('#' :: (body ++ '\n' :: rest))).2 = (splitBlanks false rest).2 :=
  splitBlanks_comment hbody _

/-- Blanks in front are cut off. -/
theorem Blanks.splitBlanks {gap : List Char} (h : Blanks gap) (rest : List Char) :
    (splitBlanks false (gap ++ rest)).2 = (splitBlanks false rest).2 := by
  induction h with
  | nil => rfl
  | @blank c cs hc hcs ih =>
    have hflag : (c == '#') = false := by
      rw [beq_eq_false_iff_ne]
      rintro rfl
      exact absurd hc (by decide)
    simp only [List.cons_append, ResolverContracts.splitBlanks, hc, Bool.true_or, if_true, hflag, ih]
  | comment hbody hcs ih =>
    rw [List.cons_append, List.append_assoc, List.cons_append, splitBlanks_line hbody, ih]

theorem LastBlanks.splitBlanks {cs : List Char} (h : LastBlanks cs) :
    (splitBlanks false cs).2 = [] := by
  cases h with
  | blanks hcs =>
    have hnil := hcs.splitBlanks []
    rw [List.append_nil] at hnil
    exact hnil
  | @comment cs body hcs hbody =>
    have hnil := splitBlanks_comment hbody []
    rw [List.append_nil] at hnil
    rw [hcs.splitBlanks]
    exact hnil

theorem splitBlanks_of_not_mem {c : Char} {cs : List Char} (h : c ∉ separators) :
    (splitBlanks false (c :: cs)).2 = c :: cs := by
  rw [mem_separators_iff, Bool.not_eq_true] at h
  simp [splitBlanks, h]

/-- A text of blanks has no tokens. -/
theorem lexemesFrom_of_blank {place : Nat} {cs : List Char} (h : (splitBlanks false cs).2 = []) :
    (lexemesFrom place cs).lexemes = [] := by
  rw [lexemesFrom]
  split
  · rfl
  · next hc => simp [h] at hc

/-- The first token of a text, and the tokens of what it leaves. -/
theorem lexemesFrom_of_scan (place : Nat) {cs rest : List Char} {c : Char}
    (h : (splitBlanks false cs).2 = c :: rest) :
    ∃ next, (lexemesFrom place cs).lexemes =
      ⟨(scan c rest).kind, (scan c rest).text⟩ :: (lexemesFrom next (scan c rest).rest).lexemes := by
  rw [lexemesFrom]
  split
  · next hc => simp [h] at hc
  · next d ds hc =>
    obtain ⟨rfl, rfl⟩ : d = c ∧ ds = rest := by simpa [h, eq_comm] using hc
    exact ⟨_, rfl⟩

/-- The tokens of a text that was set from a row of tokens are that row. The induction is on the row:
the scanner finds the first token whole because a boundary follows it. -/
theorem Layout.lexemes {ls : List Lexeme} {cs : List Char} (h : Layout ls cs) :
    ∀ place, (lexemesFrom place cs).lexemes = ls := by
  induction h with
  | blank hcs => exact fun place => lexemesFrom_of_blank hcs.splitBlanks
  | @token gap l ls cs hgap hl hend hcs ih =>
    intro place
    obtain ⟨c, text, htext, hc, hscan⟩ := hl.scansAs
    have hfront : (splitBlanks false (gap ++ (l.text.toList ++ cs))).2 = c :: (text ++ cs) := by
      rw [hgap.splitBlanks, htext]
      exact splitBlanks_of_not_mem hc
    obtain ⟨next, hnext⟩ := lexemesFrom_of_scan place hfront
    rw [hnext, hscan cs hend, ih next]
    simp [Scan.text]

/-! ## Spaces -/

/-- The text of a row of tokens with a space in front of each. -/
def spacedText (ls : List Lexeme) : String :=
  String.ofList (ls.flatMap fun l => ' ' :: l.text.toList)

theorem Layout.spacedText {ls : List Lexeme} (h : ∀ l ∈ ls, l.IsSpelled) :
    Layout ls (spacedText ls).toList := by
  rw [ResolverContracts.spacedText, String.toList_ofList]
  induction ls with
  | nil => exact .blank (.blanks .nil)
  | cons l ls ih =>
    obtain ⟨hl, hls⟩ := List.forall_mem_cons.mp h
    refine .spaced hl ?_ (ih hls)
    cases ls with
    | nil => exact boundary_nil
    | cons => exact boundary_cons (by decide)

/-- Spaces separate all tokens. -/
theorem lexemes_spacedText {ls : List Lexeme} (h : ∀ l ∈ ls, l.IsSpelled) :
    (Lexed.ofText (spacedText ls)).lexemes = ls := (Layout.spacedText h).lexemes 0

end ResolverContracts
