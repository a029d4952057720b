import ResolverContracts.Proofs.Document.DefinitionsAccounted
import ResolverContracts.Proofs.Document.ReadersFollow
/-!
# Texts that end with a brace

A reader that stops at the end of a text may have looked for more there, and go on where the text goes
on. It does not if the last token is a closing brace and no fault is found: the brace closes the last
definition, and nothing is asked behind it. So there the runs of a reader go along to the very end of
the smaller text (`Reader.Closes`).

What stands in front of the block of a definition never ends with a closing brace (`Unclosed`), so
behind it a token is still ahead. A definition that has no block does not end there at all.
-/

set_option autoImplicit false

namespace ResolverContracts

open Reader
open Lexeme (word keyword mark)

/-! ## Rows that end otherwise -/

/-- The row does not end with a closing brace. -/
def Unclosed (ls : List Lexeme) : Prop := ls.getLast? ≠ some (mark .braceClose)

section Rows

variable {ls more : List Lexeme} {l : Lexeme}

theorem unclosed_nil : Unclosed [] := nofun

theorem Unclosed.append (h : Unclosed ls) (hmore : Unclosed more) : Unclosed (ls ++ more) := by
  unfold Unclosed at h hmore ⊢
  rw [List.getLast?_append]
  cases hlast : more.getLast? with
  | none => exact h
  | some l => rwa [hlast] at hmore

theorem unclosed_single (hl : l.kind ≠ .punct .braceClose) : Unclosed [l] := by
  intro h
  exact hl (congrArg Lexeme.kind (Option.some.inj h))

theorem Unclosed.cons (hl : l.kind ≠ .punct .braceClose) (h : Unclosed ls) : Unclosed (l :: ls) :=
  (unclosed_single hl).append h

theorem Unclosed.word {text : String} (h : Unclosed ls) : Unclosed (word text :: ls) :=
  .cons (Lexeme.kind_word_ne_punct _ _) h

theorem Row.unclosed {α : Type} {W : α → List Lexeme → Prop} {xs : List α} (h : Row W xs ls)
    (hW : ∀ x us, W x us → Unclosed us) : Unclosed ls := by
  induction h with
  | nil => exact unclosed_nil
  | cons hx _ ih => exact (hW _ _ hx).append ih

/-- Parts in brackets end with their closing mark, which is a brace in bodies only. -/
theorem Bracketed.unclosed {α : Type} {W : α → List Lexeme → Prop} {opening closing : Punctuator}
    {xs : List α} (h : Bracketed opening closing W xs ls) (hclosing : closing ≠ .braceClose) :
    Unclosed ls := by
  have hmark : (mark closing).kind ≠ .punct .braceClose := fun heq =>
    hclosing (TokenKind.punct.inj heq)
  cases h with
  | absent => exact unclosed_nil
  | @present _ us _ =>
    intro heq
    rw [← List.cons_append, List.getLast?_concat] at heq
    exact unclosed_single hmark heq

theorem Separated.unclosed {α : Type} {p : Punctuator} {text : α → String} {xs : List α}
    (h : Separated p text xs ls) (hp : p ≠ .braceClose) : Unclosed ls := by
  have hmark : (mark p).kind ≠ .punct .braceClose := fun heq => hp (TokenKind.punct.inj heq)
  have hrow {ys : List α} {us : List Lexeme}
      (hys : Row (fun y vs => vs = [mark p, Lexeme.word (text y)]) ys us) : Unclosed us := by
    refine hys.unclosed fun y vs hvs => ?_
    rw [hvs]
    exact .cons hmark (.word unclosed_nil)
  cases h with
  | plain hxs => exact .word (hrow hxs)
  | behindMark hxs => exact .cons hmark (.word (hrow hxs))

theorem Listed.unclosed {opener : Lexeme} {p : Punctuator} {names : List Name}
    (h : Listed opener p names ls) (hopener : opener.kind ≠ .punct .braceClose)
    (hp : p ≠ .braceClose) : Unclosed ls := by
  cases h with
  | absent => exact unclosed_nil
  | present h => exact .cons hopener (h.unclosed hp)

theorem DescriptionWritten.unclosed {d : Option Description} (h : DescriptionWritten d ls) :
    Unclosed ls := by
  cases h with
  | absent => exact unclosed_nil
  | present h => cases h <;> exact unclosed_single nofun

/-- Directives end with a name or a parenthesis, so a definition never closes with them. -/
theorem unclosed_directives {ds : List Directive} (h : Row Directive.Written ds ls) :
    Unclosed ls := by
  refine h.unclosed fun d us hd => ?_
  obtain ⟨harguments⟩ := hd
  exact .cons nofun (.word (harguments.unclosed nofun))

theorem RepeatableWritten.unclosed {b : Bool} (h : RepeatableWritten b ls) : Unclosed ls := by
  cases h with
  | absent => exact unclosed_nil
  | present => exact unclosed_single nofun

/-- Directive definitions end with a place. -/
theorem DirectiveDefinition.Written.unclosed {d : DirectiveDefinition} (h : d.Written ls) :
    Unclosed ls := by
  obtain ⟨hdescription, harguments, hrepeatable, hlocations⟩ := h
  refine hdescription.unclosed.append (.cons nofun (.cons nofun (.word ?_)))
  refine (harguments.unclosed nofun).append (.append ?_ (.cons nofun (hlocations.unclosed nofun)))
  exact hrepeatable.unclosed

end Rows

/-! ## Cursors in front of a brace -/

/-- The tokens ahead end with a closing brace. -/
def Cursor.Closed (c : Cursor) : Prop := c.lexemes.getLast? = some (mark .braceClose)

namespace Cursor

variable {c d : Cursor} {ls : List Lexeme} {s : Surroundings}

theorem Closed.ahead_ne_nil (h : c.Closed) : c.ahead ≠ [] := by
  intro hnil
  simp [Closed, lexemes, hnil] at h

theorem Closed.sees (h : c.Closed) : c.Sees s := .inr h.ahead_ne_nil

/-- What does not end with the brace leaves it ahead. -/
theorem Closed.behind (h : c.Closed) (hls : c.lexemes = ls ++ d.lexemes) (hunclosed : Unclosed ls) :
    d.Closed := by
  rw [Closed, hls, List.getLast?_append] at h
  unfold Closed
  cases hlast : d.lexemes.getLast? with
  | none =>
    rw [hlast] at h
    exact absurd h hunclosed
  | some l => rwa [hlast] at h

/-- What is still ahead later ends with the same brace, if anything is. -/
theorem Closed.of_suffix (h : c.Closed) (hd : d.ahead <:+ c.ahead) : d.ahead = [] ∨ d.Closed := by
  obtain ⟨ts, hts⟩ := hd
  rw [or_iff_not_imp_left]
  intro hne
  have hlexemes : c.lexemes = ts.map Token.lexeme ++ d.lexemes := by
    rw [lexemes, ← hts, List.map_append, lexemes]
  rw [Closed, hlexemes, List.getLast?_append] at h
  unfold Closed
  cases hlast : d.lexemes.getLast? with
  | none => exact absurd (List.map_eq_nil_iff.mp (List.getLast?_eq_none_iff.mp hlast)) hne
  | some l => rwa [hlast] at h

end Cursor

/-! ## Readers -/

namespace Reader

variable {s : Surroundings} {α β γ δ : Type}

/-- In front of tokens that end with a closing brace the readers go along if no fault is found, even
where the larger text goes on and the other one does not. -/
structure Closes (s : Surroundings) (g : α → β) (r : Reader α) (r' : Reader β) : Prop where
  accounts : r.Accounts fun _ _ => True
  follows : ∀ c d : Cursor, c.Scanned → c.Closed → c.Follows s d → (r c).1.2.faults = c.faults →
    (r c).Follows s g (r' d)

section Steps

variable {c d : Cursor} {a : Step c α} {b : Step d β} {V : α → List Lexeme → Prop} {g : α → β}

/-- A row that does not end with the brace leaves it ahead. -/
theorem closed_behind (hclosed : c.Closed) (ha : a.Accounts V) (hV : ∀ x ls, V x ls → Unclosed ls)
    (hfaults : a.1.2.faults = c.faults) : a.1.2.Closed := by
  obtain ⟨ls, hls, hv⟩ := ha.row hfaults
  exact hclosed.behind hls (hV _ _ hv)

/-- A step that is bound to find a fault finds one. -/
theorem follows_of_fault (ha : a.Accounts fun _ _ => False) (hfaults : a.1.2.faults = c.faults) :
    a.Follows s g b :=
  (ha.row hfaults).elim fun _ hls => hls.2.elim

end Steps

/-- Behind a part that leaves the brace ahead. -/
theorem bind_follows {c d : Cursor} (hc : c.Scanned) (hclosed : c.Closed) {r : Reader α}
    {r' : Reader β} {V : α → List Lexeme → Prop} {g : α → β} {h : γ → δ} {next : α → Reader γ}
    {next' : β → Reader δ} (ha : (r c).Accounts V) (hV : ∀ x ls, V x ls → Unclosed ls)
    (hr : (r c).1.2.Sees s → (r c).Follows s g (r' d)) (hclean : (r c).1.2.faults = c.faults)
    (hnext : ∀ x (e e' : Cursor), e.Scanned → e.Closed → e.Follows s e' →
      (next x e).1.2.faults = e.faults → (next x e).Follows s h (next' (g x) e'))
    (hfaults : ((r >>= next) c).1.2.faults = c.faults) :
    ((r >>= next) c).Follows s h ((r' >>= next') d) := by
  have hbehind : (r c).1.2.Closed := closed_behind hclosed ha hV hclean
  obtain ⟨hanswer, hcursor⟩ := hr hbehind.sees
  have hlater : (next (r c).1.1 (r c).1.2).Follows s h (next' (r' d).1.1 (r' d).1.2) := by
    rw [hanswer]
    exact hnext _ _ _ (hc.of_suffix (r c).2) hbehind hcursor (hfaults.trans hclean.symm)
  exact ⟨hlater.answer, hlater.cursor⟩

/-- A look at the current token, which both texts have. -/
theorem look_follows {c d : Cursor} (hclosed : c.Closed) (hcd : c.Follows s d) {h : γ → δ}
    {next : Token → Reader γ} {next' : Token → Reader δ}
    (hnext : (next c.current c).1.2.faults = c.faults →
      (next c.current c).Follows s h (next' (c.current.move s.place) d))
    (hfaults : ((current >>= next) c).1.2.faults = c.faults) :
    ((current >>= next) c).Follows s h ((current >>= next') d) := by
  have hlater := hnext hfaults
  rw [← hcd.current hclosed.sees] at hlater
  exact ⟨hlater.answer, hlater.cursor⟩

namespace Closes

variable {g : α → β} {h : γ → δ} {r : Reader α} {r' : Reader β} {next : α → Reader γ}
  {next' : β → Reader δ} {V : α → List Lexeme → Prop}

/-- A part in front of the block. -/
theorem front (hr : r.Matches s g r') (haccounts : r.Accounts V) (hV : ∀ a ls, V a ls → Unclosed ls)
    (hnext : ∀ a, (next a).Closes s h (next' (g a))) : (r >>= next).Closes s h (r' >>= next') where
  accounts := .bind haccounts fun a => (hnext a).accounts.imp fun _ _ _ _ _ => trivial
  follows c d hc hclosed hcd hfaults := by
    have hlater := (hnext (r c).1.1).accounts (r c).1.2 (hc.of_suffix (r c).2)
    exact bind_follows hc hclosed (haccounts c hc) hV (hr c d hcd)
      ((haccounts c hc).faultless hlater hfaults) (fun x => (hnext x).follows) hfaults

/-- A reader that stops in front of the brace. -/
theorem unclosed (hr : r.Matches s g r') (haccounts : r.Accounts V)
    (hV : ∀ a ls, V a ls → Unclosed ls) : r.Closes s g r' where
  accounts := haccounts.imp fun _ _ _ => trivial
  follows c d hc hclosed hcd hfaults :=
    hr c d hcd (closed_behind hclosed (haccounts c hc) hV hfaults).sees

theorem pure {a : α} {b : β} (hab : b = g a) : Closes s g (Pure.pure a) (Pure.pure b) :=
  .unclosed (.pure hab) (V := fun _ ls => ls = []) (.pure rfl) fun _ _ hls => hls ▸ unclosed_nil

theorem map {f : α → γ} {f' : β → δ} (hr : r.Closes s g r') (hf : ∀ a, f' (g a) = h (f a)) :
    (f <$> r).Closes s h (f' <$> r') where
  accounts := .map hr.accounts
  follows c d hc hclosed hcd hfaults := by
    obtain ⟨hanswer, hcursor⟩ := hr.follows c d hc hclosed hcd hfaults
    refine ⟨?_, hcursor⟩
    change f' (r' d).1.1 = h (f (r c).1.1)
    rw [hanswer, hf]

/-- An answer made of what was read. -/
theorem answer {f : α → γ} {f' : β → δ} (hr : r.Closes s g r') (hf : ∀ a, f' (g a) = h (f a)) :
    Closes s h (do return f (← r)) (do return f' (← r')) :=
  .map hr hf

/-- An answer that needs the place of what was read. The place is known without a look ahead. -/
theorem spanned {start : Nat} {f : α → Span → γ} {f' : β → Span → δ} (hr : r.Closes s g r')
    (hf : ∀ a span, f' (g a) (span.move s.place) = h (f a span)) :
    Closes s h (do let a ← r; return f a (← spanFrom start))
      (do let b ← r'; return f' b (← spanFrom (s.place start))) where
  accounts := .bind hr.accounts fun _ => .spanned fun _ _ _ => trivial
  follows c d hc hclosed hcd hfaults := by
    obtain ⟨hanswer, hcursor⟩ := hr.follows c d hc hclosed hcd hfaults
    refine ⟨?_, hcursor⟩
    change f' (r' d).1.1 ((r' d).1.2.spanFrom (s.place start)) = h (f (r c).1.1 ((r c).1.2.spanFrom start))
    rw [hanswer, hcursor.spanFrom, hf]

/-- The first token of a part that ends with the brace. -/
theorem taken {c d : Cursor} (hc : c.Scanned) (hclosed : c.Closed) (hcd : c.Follows s d)
    (hend : c.kind ≠ .endOfText) (hbrace : c.kind ≠ .punct .braceClose) {next : Reader γ}
    {next' : Reader δ} (hnext : next.Closes s h next')
    (hfaults : ((advance >>= fun _ => next) c).1.2.faults = c.faults) :
    ((advance >>= fun _ => next) c).Follows s h ((advance >>= fun _ => next') d) := by
  have htakes : (advance c).Accounts fun _ ls => ls = [c.current.lexeme] := Cursor.takes_advance hend
  have hsingle : Unclosed [c.current.lexeme] := unclosed_single hbrace
  exact bind_follows hc hclosed htakes (fun _ _ hls => hls ▸ hsingle) (matches_advance c d hcd)
    rfl (fun _ => hnext.follows) hfaults

/-- A look at the first token of a part that ends with the brace. -/
theorem look {next : Token → Reader γ} {next' : Token → Reader δ}
    (haccounts : (current >>= next).Accounts fun _ _ => True)
    (hnext : ∀ c d : Cursor, c.Scanned → c.Closed → c.Follows s d →
      (next c.current c).1.2.faults = c.faults →
        (next c.current c).Follows s h (next' (c.current.move s.place) d)) :
    (current >>= next).Closes s h (current >>= next') where
  accounts := haccounts
  follows c d hc hclosed hcd := look_follows hclosed hcd (hnext c d hc hclosed hcd)

end Closes

/-! ## Blocks -/

theorem eat_of_kind {kind : TokenKind} {c : Cursor} (h : c.kind = kind) :
    (eat kind c).1 = (true, c.advance) := by
  have hcurrent : c.current.kind = kind := h
  exact congrArg (fun r : Reader Bool => (r c).1) (if_pos hcurrent)

theorem eat_of_ne {kind : TokenKind} {c : Cursor} (h : c.kind ≠ kind) :
    (eat kind c).1 = (false, c) := by
  have hcurrent : c.current.kind ≠ kind := h
  exact congrArg (fun r : Reader Bool => (r c).1) (if_neg hcurrent)

/-- A token that is required is taken, or it is missed. -/
theorem expect_cursor (kind : TokenKind) (c : Cursor) :
    (expect kind c).1.2 = if c.kind = kind then c.advance else c.report (.missing kind) := by
  change ((unless (eat kind c).1.1 do report (.missing kind) : Reader Unit) (eat kind c).1.2).1.2 = _
  by_cases h : c.kind = kind
  · rw [if_pos h, eat_of_kind h]
    rfl
  · rw [if_neg h, eat_of_ne h]
    rfl

/-- Items up to the brace. Only at the brace the loop has ended without a fault. -/
theorem closes_itemsIn {g : α → β} {W : α → List Lexeme → Prop} {item : Reader α} {item' : Reader β}
    (hitem : item.Matches s g item') (haccounts : item.Accounts W) (hne : ∀ a, ¬ W a []) :
    (itemsIn .braceClose item).Closes s (·.map g) (itemsIn .braceClose item') where
  accounts := (accounts_itemsIn haccounts hne).imp fun _ _ _ => trivial
  follows c d hc hclosed hcd hfaults := by
    let items := itemsUntil (.punct .braceClose) item c
    let items' := itemsUntil (.punct .braceClose) item' d
    change (expect (.punct .braceClose) items.1.2).1.2.faults = c.faults at hfaults
    have hbrace : items.1.2.kind = .punct .braceClose := by
      -- Anywhere else the brace is missed, which is one fault more than the items had.
      by_contra hkind
      have hgrows : c.faults <+: items.1.2.faults :=
        (accounts_itemsUntil haccounts hne c hc).grows
      have hlength := hgrows.length_le
      rw [expect_cursor, if_neg hkind] at hfaults
      have hmore := congrArg List.length hfaults
      simp only [Cursor.report, List.length_append, List.length_cons, List.length_nil] at hmore
      omega
    have hsees : items.1.2.Sees s := .inr (Cursor.ahead_ne_nil_of_punct hbrace)
    obtain ⟨hanswer, hcursor⟩ : items.Follows s (·.map g) items' :=
      matches_itemsUntil _ hitem c d hcd hsees
    refine ⟨hanswer, ?_⟩
    change (expect (.punct .braceClose) items.1.2).1.2.Follows s
      (expect (.punct .braceClose) items'.1.2).1.2
    rw [expect_cursor, expect_cursor, if_pos hbrace, if_pos (by rwa [hcursor.kind hsees])]
    exact hcursor.advance hsees

/-- A block ends with its brace, or there is none. -/
theorem closes_block {g : α → β} {W : α → List Lexeme → Prop} {item : Reader α} {item' : Reader β}
    (hitem : item.Matches s g item') (haccounts : item.Accounts W) (hne : ∀ a, ¬ W a []) :
    (optionalItems .braceOpen .braceClose item).Closes s (·.map g)
      (optionalItems .braceOpen .braceClose item') := by
  refine .front (matches_eat _) (accounts_eat_mark .braceOpen) ?_ fun found => ?_
  · rintro found _ rfl
    cases found with
    | true => exact unclosed_single nofun
    | false => exact unclosed_nil
  · cases found with
    | true => exact closes_itemsIn hitem haccounts hne
    | false => exact .pure rfl

end Reader

end ResolverContracts
