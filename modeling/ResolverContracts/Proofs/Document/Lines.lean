import ResolverContracts.Proofs.Document.Concatenation
import ResolverContracts.Proofs.Document.Tiling
/-!
# Lines behind a text

A text whose last token is a closing brace may end in blanks and in a comment. The line feed behind it
ends the comment, too, so another text on the lines behind is cut into the tokens it has on its own, at
the places it has there (`Lexed.ofText_line`).
-/

set_option autoImplicit false

namespace ResolverContracts

/-- Blanks that are ended by a line feed, which ends a comment, too. -/
theorem LastBlanks.blanks_line {cs : List Char} (h : LastBlanks cs) : Blanks (cs ++ ['\n']) := by
  have hfeed : Blanks ['\n'] := .blank rfl .nil
  have happend {gap more : List Char} (hgap : Blanks gap) (hmore : Blanks more) :
      Blanks (gap ++ more) := by
    induction hgap with
    | nil => exact hmore
    | blank hc _ ih => exact .blank hc ih
    | comment hbody _ ih =>
      rw [List.cons_append, List.append_assoc]
      exact .comment hbody ih
  cases h with
  | blanks hcs => exact happend hcs hfeed
  | comment hcs hbody =>
    rw [List.append_assoc]
    exact happend hcs (.comment hbody .nil)

/-- A text whose last token is a closing brace: behind the brace it is blank, and whatever stands behind
that instead, the tokens up to the brace are the same. -/
theorem exists_lastBrace {cs : List Char} {t : Token}
    (hlast : (lexemesFrom 0 cs).tokens.getLast? = some t) (hbrace : t.kind = .punct .braceClose) :
    ∃ before behind, cs = before ++ '}' :: behind ∧ LastBlanks behind ∧
      t.span.stop = byteLength before + 1 ∧
        ∀ more, lexemesFrom 0 (before ++ '}' :: (behind ++ more)) =
          (lexemesFrom (byteLength before + 1) (behind ++ more)).behind (lexemesFrom 0 cs).tokens := by
  have hmem := List.mem_of_getLast? hlast
  obtain ⟨before, c, behind, rfl, hc, rfl⟩ := token_splits hmem
  obtain rfl : c = '}' := eq_brace_of_scan hbrace
  obtain ⟨place, hplace⟩ : ∃ place, 0 + byteLength before = place := ⟨_, rfl⟩
  have hfront (more : List Char) : ∃ front,
      lexemesFrom 0 (before ++ '}' :: behind) = (lexemesFrom (place + 1) behind).behind
          (front ++ [(scan '}' behind).tokenAt place]) ∧
        lexemesFrom 0 (before ++ '}' :: (behind ++ more)) =
          (lexemesFrom (place + 1) (behind ++ more)).behind
            (front ++ [(scan '}' behind).tokenAt place]) := by
    have hex : Exchange ('}' :: behind) ('}' :: (behind ++ more)) :=
      ⟨List.cons_ne_nil _ _, by simp, ⟨List.mem_cons_self⟩⟩
    have hbehind (rest : List Char) : lexemesFrom place ('}' :: rest) =
        (lexemesFrom (place + 1) rest).behind [(scan '}' behind).tokenAt place] :=
      lexemesFrom_cons hc _ rest
    obtain ⟨front, hfront⟩ := lexemesFrom_cut hex hmem rfl
    rw [hplace] at hfront
    refine ⟨front, ?_, ?_⟩
    · rw [hfront _ List.mem_cons_self, hbehind, Lexed.behind_behind]
    · rw [hfront _ (List.mem_cons_of_mem _ List.mem_cons_self), hbehind, Lexed.behind_behind]
  rw [hplace] at hlast
  -- The brace is the last token, so there is none behind it.
  have hnone : (lexemesFrom (place + 1) behind).tokens = [] := by
    by_contra hsome
    obtain ⟨front, hshort, -⟩ := hfront []
    rw [hshort, Lexed.behind, List.getLast?_append, List.getLast?_eq_some_getLast hsome,
      Option.some_or] at hlast
    have hmem : (scan '}' behind).tokenAt place ∈ (lexemesFrom (place + 1) behind).tokens :=
      Option.some.inj hlast ▸ List.getLast_mem hsome
    have hle : place + 1 ≤ place := le_start_of_mem hmem
    omega
  have hblank : (splitBlanks false behind).2 = [] := by
    cases hsplit : (splitBlanks false behind).2 with
    | nil => rfl
    | cons d rest =>
      rw [lexemesFrom_of_cons hsplit rfl] at hnone
      exact absurd hnone (List.cons_ne_nil _ _)
  rw [Nat.zero_add] at hplace ⊢
  refine ⟨before, behind, rfl, lastBlanks_of_splitBlanks false behind hblank, rfl, fun more => ?_⟩
  obtain ⟨front, hshort, hlong⟩ := hfront more
  rw [hlong, hshort, hplace, Lexed.behind, Lexed.behind, Lexed.behind, hnone, List.append_nil]

/-- On the line behind a text whose last token is a closing brace, the tokens of another text follow. -/
theorem Lexed.ofText_line {text : String} {t : Token}
    (hlast : (Lexed.ofText text).tokens.getLast? = some t) (hbrace : t.kind = .punct .braceClose)
    (more : String) :
    t.span.stop ≤ byteLength text.toList ∧
      Lexed.ofText (text ++ "\n" ++ more) =
        ((Lexed.ofText more).move (· + (byteLength text.toList + 1))).behind
          (Lexed.ofText text).tokens := by
  obtain ⟨before, behind, htext, hblank, hstop, hmore⟩ := exists_lastBrace hlast hbrace
  have hclose : '}'.utf8Size = 1 := rfl
  have hfeed : '\n'.utf8Size = 1 := rfl
  have hplace : byteLength before + 1 + byteLength (behind ++ ['\n']) =
      0 + (byteLength text.toList + 1) := by
    simp only [htext, byteLength_append, byteLength, hclose, hfeed]
    omega
  constructor
  · rw [hstop, htext, byteLength_append, byteLength, hclose]
    omega
  · have hall : (text ++ "\n" ++ more).toList =
        before ++ '}' :: (behind ++ (['\n'] ++ more.toList)) := by
      simp [htext]
    rw [Lexed.ofText, hall, hmore, ← List.append_assoc, lexemesFrom_blanks hblank.blanks_line, hplace,
      lexemesFrom_add]
    rfl

end ResolverContracts
