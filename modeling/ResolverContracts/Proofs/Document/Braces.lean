import ResolverContracts.Proofs.Document.Reads
/-!
# Braces and what is skipped

Skipping looks at nothing but braces. A row of tokens is `Balanced` if every brace in it is closed in it,
and such a row does not change how deep in braces a place is; so what is skipped from an opening brace on
is that brace, the balanced row behind it and the brace that closes it (`passes_skipBlock`). The first
opening brace of a balanced row opens such a block (`Balanced.first_block`).
-/

set_option autoImplicit false

namespace ResolverContracts

open Reader
open Lexeme (word keyword mark)

/-! ## Balanced rows -/

/-- The token is no brace. -/
structure Lexeme.NoBrace (l : Lexeme) : Prop where
  not_open : l.kind ≠ .punct .braceOpen
  not_close : l.kind ≠ .punct .braceClose

namespace Lexeme

theorem noBrace_word (text : String) : (word text).NoBrace :=
  ⟨kind_word_ne_punct text _, kind_word_ne_punct text _⟩

theorem noBrace_mark {p : Punctuator} (hopen : p ≠ .braceOpen) (hclose : p ≠ .braceClose) :
    (mark p).NoBrace :=
  ⟨fun h => hopen (TokenKind.punct.inj h), fun h => hclose (TokenKind.punct.inj h)⟩

end Lexeme

/-- Every brace of the row is closed or opened by another one of the row. -/
inductive Balanced : List Lexeme → Prop
  | nil : Balanced []
  | single {l : Lexeme} (h : l.NoBrace) : Balanced [l]
  | block {ls : List Lexeme} (h : Balanced ls) :
      Balanced (mark .braceOpen :: (ls ++ [mark .braceClose]))
  | append {ls more : List Lexeme} (hls : Balanced ls) (hmore : Balanced more) :
      Balanced (ls ++ more)

namespace Balanced

variable {ls : List Lexeme}

/-- A token that is no brace, in front of a balanced row. -/
theorem cons {l : Lexeme} (hl : l.NoBrace) (h : Balanced ls) : Balanced (l :: ls) :=
  .append (.single hl) h

/-- A balanced row in brackets that are no braces. -/
theorem between {opening closing : Lexeme} (hopening : opening.NoBrace) (h : Balanced ls)
    (hclosing : closing.NoBrace) : Balanced (opening :: (ls ++ [closing])) :=
  .cons hopening (.append h (.single hclosing))

/-- Either there is no opening brace, or the first one opens a block. -/
theorem first_block (h : Balanced ls) :
    (∀ l ∈ ls, l.kind ≠ .punct .braceOpen) ∨
      ∃ front inner behind,
        ls = front ++ (mark .braceOpen :: (inner ++ [mark .braceClose]) ++ behind) ∧
          (∀ l ∈ front, l.kind ≠ .punct .braceOpen) ∧ Balanced inner := by
  induction h with
  | nil => exact .inl (List.forall_mem_nil _)
  | single hl => exact .inl (List.forall_mem_singleton.mpr hl.not_open)
  | @block ls h _ =>
    exact .inr ⟨[], ls, [], (List.append_nil _).symm, List.forall_mem_nil _, h⟩
  | @append ls more _ _ ihls ihmore =>
    obtain hls | ⟨front, inner, behind, rfl, hfront, hinner⟩ := ihls
    · obtain hmore | ⟨front, inner, behind, rfl, hfront, hinner⟩ := ihmore
      · exact .inl (List.forall_mem_append.mpr ⟨hls, hmore⟩)
      · exact .inr ⟨ls ++ front, inner, behind, (List.append_assoc _ _ _).symm,
          List.forall_mem_append.mpr ⟨hls, hfront⟩, hinner⟩
    · exact .inr ⟨front, inner, behind ++ more, by simp only [List.append_assoc], hfront, hinner⟩

end Balanced

/-! ## Tokens passed -/

/-- From one cursor to another these tokens were taken, and nothing was found wrong. -/
structure Cursor.Passes (c : Cursor) (ts : List Token) (d : Cursor) : Prop where
  ahead : c.ahead = ts ++ d.ahead
  taken : d.taken = ts.reverse ++ c.taken
  stop : d.stop = c.stop
  faults : d.faults = c.faults

namespace Cursor

variable {c d e : Cursor} {t : Token} {ts us : List Token}

theorem Passes.refl (c : Cursor) : c.Passes [] c := ⟨rfl, rfl, rfl, rfl⟩

theorem Passes.trans (h : c.Passes ts d) (hlater : d.Passes us e) : c.Passes (ts ++ us) e where
  ahead := by rw [h.ahead, hlater.ahead, List.append_assoc]
  taken := by rw [hlater.taken, h.taken, List.reverse_append, List.append_assoc]
  stop := hlater.stop.trans h.stop
  faults := hlater.faults.trans h.faults

theorem current_of_cons (h : c.ahead = t :: ts) : c.current = t := by
  rw [current, h, List.headD_cons]

theorem ahead_advance (h : c.ahead = t :: ts) : c.advance.ahead = ts := congrArg List.tail h

theorem passes_advance (h : c.ahead = t :: ts) : c.Passes [t] c.advance where
  ahead := by rw [h, ahead_advance h, List.singleton_append]
  taken := congrArg (· :: c.taken) (current_of_cons h)
  stop := rfl
  faults := rfl

end Cursor

/-! ## Skipping -/

namespace Reader

/-- Skipping to a mark passes the tokens in front of the first such mark. -/
theorem passes_skipTo {p : Punctuator} {front later : List Token} {t : Token}
    (hfront : ∀ u ∈ front, u.kind ≠ .punct p) (ht : t.kind = .punct p) {c : Cursor}
    (hc : c.ahead = front ++ t :: later) : c.Passes front (skipTo p c).1.2 := by
  induction front generalizing c with
  | nil =>
    have hkind : c.kind = .punct p := by rw [Cursor.kind, Cursor.current_of_cons hc, ht]
    rw [skipTo, dif_pos (by simp [Cursor.atEndOf, hkind])]
    exact .refl c
  | cons u front ih =>
    obtain ⟨hu, hfront⟩ := List.forall_mem_cons.mp hfront
    have hkind : c.kind ≠ .punct p := by rwa [Cursor.kind, Cursor.current_of_cons hc]
    rw [skipTo, dif_neg (by simp [Cursor.atEndOf, hkind, hc])]
    exact (Cursor.passes_advance hc).trans (ih hfront (Cursor.ahead_advance hc))

/-- One token of what is skipped, as long as braces are open behind it. -/
theorem skipBlock_cons {depth : Nat} {c : Cursor} {t : Token} {later : List Token}
    (hc : c.ahead = t :: later) (hdepth : depthBehind depth t.kind ≠ 0) :
    (skipBlock depth c).1 = (skipBlock (depthBehind depth t.kind) c.advance).1 := by
  have hkind : c.kind = t.kind := by rw [Cursor.kind, Cursor.current_of_cons hc]
  rw [skipBlock, dif_neg (by simp [hc])]
  simp only [hkind, hdepth, if_false]
  rfl

/-- What is skipped of a block up to the brace that closes it, when what stands in the block leaves the
depth as it is. -/
theorem skipBlock_opened {inner : List Lexeme} {depth : Nat}
    (hinner : ∀ {c : Cursor} {ts later : List Token}, ts.map Token.lexeme = inner →
      c.ahead = ts ++ later →
        ∃ d, c.Passes ts d ∧ (skipBlock (depth + 1) c).1 = (skipBlock (depth + 1) d).1)
    {c : Cursor} {ts later : List Token}
    (hts : ts.map Token.lexeme = mark .braceOpen :: (inner ++ [mark .braceClose]))
    (hc : c.ahead = ts ++ later) :
    ∃ front u d, ts = front ++ [u] ∧ u.kind = .punct .braceClose ∧ c.Passes front d ∧
      d.ahead = u :: later ∧ (skipBlock depth c).1 = (skipBlock (depth + 1) d).1 := by
  obtain ⟨t, us, rfl, ht, hus⟩ := List.map_eq_cons_iff.mp hts
  obtain ⟨vs, ws, rfl, hvs, hws⟩ := List.map_eq_append_iff.mp hus
  obtain ⟨u, rfl, hu⟩ := List.map_eq_singleton_iff.mp hws
  have hopen : t.kind = .punct .braceOpen := congrArg Lexeme.kind ht
  have hbehind : c.advance.ahead = vs ++ u :: later :=
    (Cursor.ahead_advance hc).trans (List.append_assoc vs [u] later)
  obtain ⟨d, hd, hskip⟩ := hinner hvs hbehind
  -- The opening brace is the first token that is passed, and puts the rest one level deeper.
  have hdeeper : depthBehind depth t.kind = depth + 1 := by rw [hopen, depthBehind]
  refine ⟨t :: vs, u, d, rfl, congrArg Lexeme.kind hu, (Cursor.passes_advance hc).trans hd, ?_, ?_⟩
  · exact List.append_cancel_left (hd.ahead.symm.trans hbehind)
  · rw [skipBlock_cons hc (by omega), hdeeper, hskip]

/-- Inside of braces a balanced row is passed, and the place is as deep behind it. -/
theorem skipBlock_balanced {ls : List Lexeme} (h : Balanced ls) (depth : Nat) {c : Cursor}
    {ts later : List Token} (hts : ts.map Token.lexeme = ls) (hc : c.ahead = ts ++ later) :
    ∃ d, c.Passes ts d ∧ (skipBlock (depth + 1) c).1 = (skipBlock (depth + 1) d).1 := by
  induction h generalizing depth c ts later with
  | nil =>
    obtain rfl := List.map_eq_nil_iff.mp hts
    exact ⟨c, .refl c, rfl⟩
  | single hl =>
    obtain ⟨t, rfl, rfl⟩ := List.map_eq_singleton_iff.mp hts
    -- Only braces change the depth.
    have hdepth : depthBehind (depth + 1) t.kind = depth + 1 := by
      unfold depthBehind
      split
      · next hk => exact absurd hk hl.not_open
      · next hk => exact absurd hk hl.not_close
      · rfl
    refine ⟨c.advance, Cursor.passes_advance hc, ?_⟩
    rw [skipBlock_cons hc (by omega), hdepth]
  | block _ ih =>
    obtain ⟨front, u, d, rfl, hclose, hd, hahead, hskip⟩ :=
      skipBlock_opened (fun hts hc => ih (depth + 1) hts hc) hts hc
    -- The closing brace takes back what the opening one has added.
    have hback : depthBehind (depth + 1 + 1) u.kind = depth + 1 := by
      rw [hclose, depthBehind, Nat.add_sub_cancel]
    refine ⟨d.advance, hd.trans (Cursor.passes_advance hahead), ?_⟩
    rw [hskip, skipBlock_cons hahead (by omega), hback]
  | append _ _ ihls ihmore =>
    obtain ⟨us, vs, rfl, hus, hvs⟩ := List.map_eq_append_iff.mp hts
    rw [List.append_assoc] at hc
    obtain ⟨d, hd, hskip⟩ := ihls depth hus hc
    obtain ⟨e, he, hskip'⟩ := ihmore depth hvs (List.append_cancel_left (hd.ahead.symm.trans hc))
    exact ⟨e, hd.trans he, hskip.trans hskip'⟩

/-- **A block is skipped as a whole**, from its opening brace to the one that closes it. -/
theorem passes_skipBlock {inner : List Lexeme} (h : Balanced inner) {c : Cursor}
    {ts later : List Token}
    (hts : ts.map Token.lexeme = mark .braceOpen :: (inner ++ [mark .braceClose]))
    (hc : c.ahead = ts ++ later) : c.Passes ts (skipBlock 0 c).1.2 := by
  obtain ⟨front, u, d, rfl, hclose, hd, hahead, hskip⟩ :=
    skipBlock_opened (fun hts hc => skipBlock_balanced h 0 hts hc) hts hc
  -- The last brace closes the outermost block, and there the skipping ends.
  have hlast : (skipBlock (0 + 1) d).1.2 = d.advance := by
    have hdepth : depthBehind (0 + 1) d.kind = 0 := by
      rw [Cursor.kind, Cursor.current_of_cons hahead, hclose, depthBehind]
    rw [skipBlock, dif_neg (by simp [hahead])]
    simp only [hdepth, if_true]
  rw [hskip, hlast]
  exact hd.trans (Cursor.passes_advance hahead)

end Reader

end ResolverContracts
