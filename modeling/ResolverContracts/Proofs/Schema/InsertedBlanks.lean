import ResolverContracts.Proofs.Document.Cuts
import ResolverContracts.Proofs.Document.ReadersFollow
import ResolverContracts.Proofs.Schema.Moved
/-!
# Inserted blanks

Blanks in front of a token mean nothing, whatever the text is. The tokens in front of the place are
those of before, because a blank ends none of them that did not end there; the tokens behind are moved.
So the two texts have the same tokens as far as their places do not matter
(`lexemesFrom_insert_blanks`), and reading and lowering take no notice of places.
-/

set_option autoImplicit false

namespace ResolverContracts

/-- Every place taken to the start of the text: for comparing what differs in places only. -/
def nowhere : Nat → Nat := fun _ => 0

/-! ## Tokens -/

theorem Lexed.move_behind (m : Nat → Nat) (l : Lexed) (front : List Token) :
    (l.behind front).move m = (l.move m).behind (front.map (·.move m)) := by
  simp [behind, move]

/-- The lexemes of a text that stands somewhere else. -/
theorem Lexed.lexemes_move (m : Nat → Nat) (l : Lexed) : (l.move m).lexemes = l.lexemes := by
  rw [lexemes, move, List.map_map]
  rfl

/-- A text moved before its places are forgotten. -/
theorem Lexed.move_nowhere_of_move (m : Nat → Nat) (l : Lexed) :
    (l.move m).move nowhere = l.move nowhere := by
  rw [move, move, List.map_map]
  rfl

/-- With blanks in front of a token a text has the same tokens at other places. -/
theorem lexemesFrom_insert_blanks {gap : List Char} (hgap : Blanks gap) {place : Nat}
    {before behind : List Char} {c : Char} (hc : c ∉ separators) {t : Token}
    (ht : t ∈ (lexemesFrom place (before ++ c :: behind)).tokens)
    (hstart : t.span.start = place + byteLength before) :
    (lexemesFrom place (before ++ (gap ++ c :: behind))).move nowhere =
      (lexemesFrom place (before ++ c :: behind)).move nowhere := by
  cases gap with
  | nil => rfl
  | cons b gap =>
    have hblank : b ∈ separators := by
      cases hgap with
      | blank hb => simp [mem_separators_iff, hb]
      | comment => decide
    have hfeed : c ≠ '\n' := fun heq => hc (by rw [heq]; decide)
    have hex : Exchange (c :: behind) (b :: gap ++ c :: behind) :=
      ⟨List.cons_ne_nil _ _, by simpa using hfeed, ⟨List.mem_cons_of_mem _ hblank⟩⟩
    obtain ⟨front, hfront⟩ := lexemesFrom_cut hex ht hstart
    rw [hfront _ (by simp), hfront _ (by simp), lexemesFrom_blanks hgap, lexemesFrom_add,
      Lexed.move_behind, Lexed.move_behind, Lexed.move_nowhere_of_move]

/-! ## Schemas -/

/-- Texts with the same tokens are schemas alike. -/
theorem same_schema_of_same_tokens {text other : String}
    (h : (Lexed.ofText other).move nowhere = (Lexed.ofText text).move nowhere) :
    (Document.parse other).move nowhere = (Document.parse text).move nowhere := by
  have hread (l : Lexed) : Parsed.ofLexed (l.move nowhere) = (Parsed.ofLexed l).move nowhere :=
    Parsed.ofLexed_move (fun _ _ => rfl) rfl l
  rw [Document.parse, Document.parse, ← hread, ← hread, h]

/-- **Blanks are insignificant.** A token starts where a character does, and with any blanks inserted
there a text has the same tokens, gives the same document and the same diagnostics, and is accepted
with the same catalogue or refused with the same diagnostics, apart from places. -/
theorem Catalogue.load_insert_blanks {text : String} {t : Token}
    (ht : t ∈ (Lexed.ofText text).tokens) {gap : List Char} (hgap : Blanks gap) :
    ∃ before behind, text.toList = before ++ behind ∧ byteLength before = t.span.start ∧
      let changed := String.ofList (before ++ (gap ++ behind))
      (Lexed.ofText changed).lexemes = (Lexed.ofText text).lexemes ∧
      (Document.parse changed).document.unplaced = (Document.parse text).document.unplaced ∧
      (Document.parse changed).diagnostics.move nowhere =
        (Document.parse text).diagnostics.move nowhere ∧
      (Catalogue.load changed).mapError (·.move nowhere) =
        (Catalogue.load text).mapError (·.move nowhere) := by
  obtain ⟨before, c, behind, htext, hc, hspan⟩ := token_splits ht
  have hstart : t.span.start = 0 + byteLength before := by rw [hspan]; rfl
  refine ⟨before, c :: behind, htext, by omega, ?_⟩
  intro changed
  have htokens : (Lexed.ofText changed).move nowhere = (Lexed.ofText text).move nowhere := by
    rw [Lexed.ofText, htext] at ht
    rw [Lexed.ofText, Lexed.ofText, htext, String.toList_ofList]
    exact lexemesFrom_insert_blanks hgap hc ht hstart
  have hparse := same_schema_of_same_tokens htokens
  refine ⟨?_, ?_, ?_, ?_⟩
  · rw [← Lexed.lexemes_move nowhere, htokens, Lexed.lexemes_move]
  · rw [← Document.unplaced_move nowhere]
    change ((Document.parse changed).move nowhere).document.unplaced = _
    rw [hparse]
    exact Document.unplaced_move nowhere _
  · rw [← Parsed.diagnostics_move, hparse, Parsed.diagnostics_move]
  · rw [load_eq, load_eq, ← Parsed.load_move, hparse, Parsed.load_move]

/-- A comment inserted in a text that is no schema, behind a stray point. -/
theorem Catalogue.load_insert_blanks_stray :
    ⟨.name, "b", ⟨2, 3⟩⟩ ∈ (Lexed.ofText "1.b").tokens ∧ Blanks ['#', 'c', '\n'] ∧
      ∃ before behind, "1.b".toList = before ++ behind ∧ byteLength before = 2 ∧
        let changed := String.ofList (before ++ (['#', 'c', '\n'] ++ behind))
        (Lexed.ofText changed).lexemes = (Lexed.ofText "1.b").lexemes ∧
        (Document.parse changed).document.unplaced = (Document.parse "1.b").document.unplaced ∧
        (Document.parse changed).diagnostics.move nowhere =
          (Document.parse "1.b").diagnostics.move nowhere ∧
        (Catalogue.load changed).mapError (·.move nowhere) =
          (Catalogue.load "1.b").mapError (·.move nowhere) := by
  have hmem : ⟨.name, "b", ⟨2, 3⟩⟩ ∈ (Lexed.ofText "1.b").tokens := by
    change _ ∈ (lexemesFrom 0 ['1', '.', 'b']).tokens
    rw [lexemesFrom_cons (by decide)]
    refine List.mem_cons_of_mem _ ?_
    change _ ∈ (lexemesFrom 1 ['.', 'b']).tokens
    rw [lexemesFrom_cons (by decide)]
    refine List.mem_cons_of_mem _ ?_
    change _ ∈ (lexemesFrom 2 ['b']).tokens
    rw [lexemesFrom_cons (by decide)]
    exact List.mem_cons_self
  have hgap : Blanks ['#', 'c', '\n'] := @Blanks.comment ['c'] [] (by decide) .nil
  exact ⟨hmem, hgap, load_insert_blanks hmem hgap⟩

end ResolverContracts
