import ResolverContracts.Proofs.Document.Reads
import ResolverContracts.Proofs.Document.Scanned
/-!
# What readers account for

`r.Accounts W` is about a reader at any token of any text, well-formed or not. It says that a run
which finds no fault took a row of tokens that writes the answer, in the sense of `W`. Since it also
says that no fault is ever taken back, a reader that reports something accounts for anything at all
(`Reader.Accounts.reported`): skipping tokens costs a fault, and so does an answer made up for tokens
that are not there.

This is the converse of `Reader.Reads`, which starts from a writing. The rules follow the ways to build
a reader. Behind a reader with the row `ls` the next one has to complete `ls`, so what it must account
for mentions the rows before it.
-/

set_option autoImplicit false

namespace ResolverContracts

open Lexeme (word keyword mark)

/-! ## Cursors in a text -/

/-- All tokens ahead are as a text can have them. -/
def Cursor.Scanned (c : Cursor) : Prop := ∀ l ∈ c.lexemes, l.IsScanned

namespace Cursor

variable {c d : Cursor}

theorem Scanned.of_suffix (h : c.Scanned) (hd : d.ahead <:+ c.ahead) : d.Scanned :=
  fun l hl => h l ((hd.map Token.lexeme).subset hl)

theorem Scanned.report (h : c.Scanned) (cause : Cause) : (c.report cause).Scanned := h

/-- At a token that is not the end of the text, this token is the first one ahead. -/
theorem lexemes_of_kind (h : c.kind ≠ .endOfText) :
    c.lexemes = c.current.lexeme :: c.advance.lexemes := by
  rw [c.lexemes_advance]
  unfold lexemes current
  cases hahead : c.ahead with
  | nil => simp [kind, current, hahead, Token.endAt] at h
  | cons t ts => rfl

theorem Scanned.current (h : c.Scanned) (hkind : c.kind ≠ .endOfText) :
    c.current.lexeme.IsScanned :=
  h _ (by simp [lexemes_of_kind hkind])

theorem Scanned.current_eq_mark (h : c.Scanned) {p : Punctuator} (hkind : c.kind = .punct p) :
    c.current.lexeme = mark p :=
  (h.current (by rw [hkind]; exact nofun)).eq_mark hkind

theorem Scanned.current_eq_keyword (h : c.Scanned) {k : Keyword} (hkind : c.kind = .keyword k) :
    c.current.lexeme = keyword k :=
  (h.current (by rw [hkind]; exact nofun)).eq_keyword hkind

/-- Only behind the last token is the end of the text. -/
theorem Scanned.lexemes_eq_nil (h : c.Scanned) (hend : c.atEndOf .endOfText = true) :
    c.lexemes = [] := by
  cases hlexemes : c.lexemes with
  | nil => rfl
  | cons l ls =>
    have hkind : l.kind ≠ .endOfText := (h l (by simp [hlexemes])).kind_ne_endOfText
    have hahead : c.ahead ≠ [] := by
      intro hn
      simp [lexemes, hn] at hlexemes
    simp [atEndOf, hahead, kind_of_lexemes hlexemes, hkind] at hend

end Cursor

/-! ## Steps -/

/-- On the way from one cursor to another no fault is taken back, and if none is found, the tokens
taken on the way are such a row. -/
structure Cursor.Takes (c d : Cursor) (W : List Lexeme → Prop) : Prop where
  grows : c.faults <+: d.faults
  row : d.faults = c.faults → ∃ ls, c.lexemes = ls ++ d.lexemes ∧ W ls

namespace Cursor.Takes

variable {c d e : Cursor} {V W : List Lexeme → Prop}

/-- Nothing is taken. -/
theorem none (hfaults : d.faults = c.faults) (hlexemes : d.lexemes = c.lexemes) (h : W []) :
    c.Takes d W :=
  ⟨hfaults ▸ List.prefix_refl _, fun _ => ⟨[], hlexemes.symm, h⟩⟩

/-- Two ways are faultless together only if each is: what the first one had found would still be
there. -/
theorem faultless {U : List Lexeme → Prop} (h : c.Takes d V) (hlater : d.Takes e U)
    (hfaults : e.faults = c.faults) : d.faults = c.faults := by
  have hlength : d.faults.length ≤ c.faults.length := by
    rw [← hfaults]
    exact hlater.grows.length_le
  exact (h.grows.eq_of_length_le hlength).symm

theorem trans {U : List Lexeme → Prop} (h : c.Takes d V) (hlater : d.Takes e U)
    (hW : ∀ ls more, V ls → U more → W (ls ++ more)) : c.Takes e W := by
  refine ⟨h.grows.trans hlater.grows, fun hfaults => ?_⟩
  have hclean : d.faults = c.faults := h.faultless hlater hfaults
  obtain ⟨ls, hls, hv⟩ := h.row hclean
  obtain ⟨more, hmore, hu⟩ := hlater.row (hfaults.trans hclean.symm)
  exact ⟨ls ++ more, by rw [hls, hmore, List.append_assoc], hW ls more hv hu⟩

theorem imp (h : c.Takes d V) (hV : ∀ ls, V ls → W ls) : c.Takes d W :=
  ⟨h.grows, fun hfaults => (h.row hfaults).imp fun _ hls => ⟨hls.1, hV _ hls.2⟩⟩

end Cursor.Takes

/-- The token a cursor stands at, if there is one. -/
theorem Cursor.takes_advance {c : Cursor} (h : c.kind ≠ .endOfText) :
    c.Takes c.advance (· = [c.current.lexeme]) :=
  ⟨List.prefix_refl _, fun _ => ⟨_, lexemes_of_kind h, rfl⟩⟩

/-- A fault is found, so nothing has to be taken. -/
theorem Cursor.takes_report (c : Cursor) (cause : Cause) (W : List Lexeme → Prop) :
    c.Takes (c.report cause) W :=
  ⟨List.prefix_append _ _, fun hfaults => absurd hfaults (by simp [report])⟩

/-- The tokens that a step takes write its answer, unless it finds a fault. -/
def Step.Accounts {α : Type} {c : Cursor} (s : Step c α) (W : α → List Lexeme → Prop) : Prop :=
  c.Takes s.1.2 (W s.1.1)

/-- A step made behind a mark, seen from in front of the mark. -/
theorem Step.Accounts.behindMark {α : Type} {c : Cursor} (hc : c.Scanned) {p : Punctuator}
    (hp : c.kind = .punct p) {s : Step c.advance α} {V W : α → List Lexeme → Prop}
    (hs : s.Accounts V) (hW : ∀ a ls, V a ls → W a (mark p :: ls)) :
    (s.since c.advance_ahead_suffix : Step c α).Accounts W := by
  refine (Cursor.takes_advance (by rw [hp]; exact nofun)).trans hs ?_
  rintro _ ls rfl hv
  rw [hc.current_eq_mark hp]
  exact hW _ _ hv

namespace Reader

variable {α β γ : Type}

/-- In any text, what the reader takes without a fault writes its answer. -/
def Accounts (r : Reader α) (W : α → List Lexeme → Prop) : Prop :=
  ∀ c : Cursor, c.Scanned → (r c).Accounts W

/-- A step already made, and a reader behind it. -/
theorem Accounts.andThen {c : Cursor} (hc : c.Scanned) {s : Step c α} {next : α → Reader β}
    {V : α → List Lexeme → Prop} {W : β → List Lexeme → Prop} (hs : s.Accounts V)
    (hnext : ∀ a, (next a).Accounts fun b more => ∀ ls, V a ls → W b (ls ++ more)) :
    (s.andThen next).Accounts W :=
  hs.trans (hnext s.1.1 s.1.2 (hc.of_suffix s.2)) fun ls _ hv hw => hw ls hv

/-- A look at the current token takes nothing. -/
theorem current_bind (next : Token → Reader β) (c : Cursor) :
    (current >>= next) c = next c.current c := rfl

namespace Accounts

variable {r : Reader α} {next : α → Reader β} {V : α → List Lexeme → Prop}
  {W : β → List Lexeme → Prop}

theorem pure {a : α} (h : V a []) : Accounts (Pure.pure a) V :=
  fun _ _ => .none rfl rfl h

/-- One reader behind the other: the second one completes what the first one took. -/
theorem bind (hr : r.Accounts V)
    (hnext : ∀ a, (next a).Accounts fun b more => ∀ ls, V a ls → W b (ls ++ more)) :
    (r >>= next).Accounts W :=
  fun c hc => andThen hc (hr c hc) hnext

/-- More is said of the row than is needed. -/
theorem imp {U : α → List Lexeme → Prop} (h : r.Accounts V) (hV : ∀ a ls, V a ls → U a ls) :
    r.Accounts U :=
  fun c hc => Cursor.Takes.imp (h c hc) (hV _)

/-- A reader that always takes the row that belongs to its answer. -/
theorem exactly {f : α → List Lexeme} (hr : r.Accounts fun a ls => ls = f a)
    (hnext : ∀ a, (next a).Accounts fun b more => W b (f a ++ more)) : (r >>= next).Accounts W :=
  .bind hr fun a => (hnext a).imp fun _ _ hw _ hls => by rwa [hls]

/-- A reader that always takes one token. -/
theorem token {l : α → Lexeme} (hr : r.Accounts fun a ls => ls = [l a])
    (hnext : ∀ a, (next a).Accounts fun b more => W b (l a :: more)) : (r >>= next).Accounts W :=
  .exactly hr hnext

/-- A reader that takes nothing. -/
theorem peek (hr : r.Accounts fun _ ls => ls = []) (hnext : ∀ a, (next a).Accounts W) :
    (r >>= next).Accounts W :=
  .exactly hr hnext

/-- The last reader that takes anything. -/
theorem last (hr : r.Accounts V)
    (hnext : ∀ a, (next a).Accounts fun b more => more = [] ∧ ∀ ls, V a ls → W b ls) :
    (r >>= next).Accounts W := by
  refine .bind hr fun a => (hnext a).imp ?_
  rintro b more ⟨rfl, hw⟩ ls hls
  rw [List.append_nil]
  exact hw ls hls

theorem map {f : α → β} (h : r.Accounts fun a => W (f a)) : (f <$> r).Accounts W :=
  h

/-- An answer that is always there. -/
theorem mapSome (h : r.Accounts V) :
    (some <$> r).Accounts fun o ls => ∃ a, o = some a ∧ V a ls :=
  .map (h.imp fun a _ hls => ⟨a, rfl, hls⟩)

/-- A look at the current token. Which one it is, the cursor knows. -/
theorem look {next : Token → Reader β} (h : ∀ c : Cursor, c.Scanned → (next c.current c).Accounts W) :
    (current >>= next).Accounts W :=
  h

end Accounts

/-! ## Single tokens -/

theorem accounts_place : place.Accounts fun _ ls => ls = [] :=
  fun _ _ => .none rfl rfl rfl

theorem accounts_spanFrom (start : Nat) : (spanFrom start).Accounts fun _ ls => ls = [] :=
  fun _ _ => .none rfl rfl rfl

theorem Accounts.placed {c : Cursor} {next : Nat → Reader β} {W : β → List Lexeme → Prop}
    (h : (next c.current.span.start c).Accounts W) : ((place >>= next) c).Accounts W :=
  h

/-- An answer that needs the place of what was read. -/
theorem Accounts.spanned {start : Nat} {f : Span → α} {W : α → List Lexeme → Prop}
    (h : ∀ span, W (f span) []) : Accounts (do return f (← spanFrom start)) W :=
  .peek (accounts_spanFrom start) fun span => .pure (h span)

/-- A token that is there is taken. -/
theorem Accounts.taken {c : Cursor} (hc : c.Scanned) (hkind : c.kind ≠ .endOfText) {next : Reader β}
    {W : β → List Lexeme → Prop} (hnext : next.Accounts fun b more => W b (c.current.lexeme :: more)) :
    ((advance >>= fun _ => next) c).Accounts W :=
  (Cursor.takes_advance hkind).trans (hnext c.advance (hc.of_suffix c.advance_ahead_suffix))
    fun _ _ hls hw => hls ▸ hw

/-- Wherever the row does not matter, a token may be taken or not. -/
theorem accounts_advance : advance.Accounts fun _ _ => True := by
  intro c _
  refine ⟨List.prefix_refl _, fun _ => ?_⟩
  obtain ⟨ts, hts⟩ := c.advance_ahead_suffix
  refine ⟨ts.map Token.lexeme, ?_, trivial⟩
  change c.ahead.map Token.lexeme = _ ++ c.advance.ahead.map Token.lexeme
  rw [← hts, List.map_append]

/-- Behind a fault anything is accounted for, as no reader takes the fault back. -/
theorem Accounts.reportedAt {c : Cursor} (hc : c.Scanned) (cause : Cause) {next : Reader β}
    {W : β → List Lexeme → Prop} (hnext : next.Accounts fun _ _ => True) :
    ((report cause >>= fun _ => next) c).Accounts W :=
  (c.takes_report cause (fun _ => False)).trans (hnext _ (hc.report cause)) fun _ _ hfalse _ =>
    hfalse.elim

theorem Accounts.reported (cause : Cause) {next : Reader β} {W : β → List Lexeme → Prop}
    (hnext : next.Accounts fun _ _ => True) : (report cause >>= fun _ => next).Accounts W :=
  fun _ hc => reportedAt hc cause hnext

theorem accounts_report (cause : Cause) {W : Unit → List Lexeme → Prop} :
    (report cause).Accounts W :=
  fun c _ => c.takes_report cause _

/-- A token of a kind that has one spelling only is known when it is eaten. -/
theorem accounts_eat {l : Lexeme} {kind : TokenKind} (hkind : kind ≠ .endOfText)
    (h : ∀ m : Lexeme, m.IsScanned → m.kind = kind → m = l) :
    (eat kind).Accounts fun found ls => ls = if found then [l] else [] := by
  refine .look fun c hc => ?_
  by_cases hk : c.current.kind = kind
  · rw [if_pos hk]
    have hend : c.kind ≠ .endOfText := by rwa [Cursor.kind, hk]
    refine Accounts.taken hc hend (.pure ?_)
    rw [h _ (hc.current hend) hk]
    rfl
  · rw [if_neg hk]
    exact .none rfl rfl rfl

theorem accounts_eat_mark (p : Punctuator) :
    (eat (.punct p)).Accounts fun found ls => ls = if found then [mark p] else [] :=
  accounts_eat nofun fun _ hm => hm.eq_mark

theorem accounts_eat_keyword (k : Keyword) :
    (eat (.keyword k)).Accounts fun found ls => ls = if found then [keyword k] else [] :=
  accounts_eat nofun fun _ hm => hm.eq_keyword

/-- What goes on in one way behind a token that is there, and in another way without it. -/
theorem Accounts.choice {r : Reader Bool} {l : Lexeme}
    (hr : r.Accounts fun found ls => ls = if found then [l] else []) {yes no : Reader β}
    {W : β → List Lexeme → Prop} (hyes : yes.Accounts fun b more => W b (l :: more))
    (hno : no.Accounts W) : (r >>= fun (found : Bool) => if found then yes else no).Accounts W := by
  refine .exactly hr fun found => ?_
  cases found with
  | true => exact hyes
  | false => exact hno

theorem accounts_expect {l : Lexeme} {kind : TokenKind}
    (h : (eat kind).Accounts fun found ls => ls = if found then [l] else []) :
    (expect kind).Accounts fun _ ls => ls = [l] := by
  refine .exactly h fun found => ?_
  cases found with
  | true => exact .pure rfl
  | false => exact accounts_report _

theorem accounts_expect_mark (p : Punctuator) : (expect (.punct p)).Accounts fun _ ls => ls = [mark p] :=
  accounts_expect (accounts_eat_mark p)

/-! ## Loops -/

section Loops

variable {W : α → List Lexeme → Prop}

/-- Where an item takes a token, the loop goes on right behind it. -/
theorem pastItem_of_row {before after : Cursor} {ls : List Lexeme}
    (hls : before.lexemes = ls ++ after.lexemes) (hne : ls ≠ []) : pastItem before after = after := by
  refine if_pos ?_
  have := List.length_pos_iff.mpr hne
  rw [before.left_eq_length, after.left_eq_length, hls, List.length_append]
  omega

theorem faults_pastItem (before after : Cursor) : (pastItem before after).faults = after.faults := by
  unfold pastItem
  split <;> rfl

theorem takes_pastItem {before after : Cursor} {V : List Lexeme → Prop} (h : before.Takes after V)
    (hne : ¬ V []) : before.Takes (pastItem before after) V := by
  have hfaults := faults_pastItem before after
  refine ⟨hfaults ▸ h.grows, fun hclean => ?_⟩
  obtain ⟨ls, hls, hv⟩ := h.row (hfaults ▸ hclean)
  have hsome : ls ≠ [] := fun hnil => hne (hnil ▸ hv)
  exact ⟨ls, by rw [pastItem_of_row hls hsome, hls], hv⟩

/-- Items up to a closing token form a row. An item for which no token would do has taken one if it
found no fault, so none is skipped. The induction is on the tokens ahead, as the loop is. -/
theorem itemsBelow_accounts {bound : Nat} {close : TokenKind}
    {item : (c : Cursor) → c.ahead.length < bound → Step c α}
    (hitem : ∀ c h, c.Scanned → (item c h).Accounts W) (hne : ∀ a, ¬ W a []) (c : Cursor)
    (h : c.ahead.length < bound) (hc : c.Scanned) :
    (itemsBelow bound close item c h).Accounts (Row W) := by
  fun_induction itemsBelow bound close item c h with
  | case1 c h hend => exact .none rfl rfl .nil
  | case2 c h hend r next hb hlt rest ih =>
    have hlater : rest.Accounts (Row W) := ih (hc.of_suffix (pastItem_ahead_suffix r.2))
    exact (takes_pastItem (hitem c h hc) (hne _)).trans hlater fun _ _ hw hrow => .cons hw hrow

/-- The loop ends where the closing token is, or the text ends. -/
theorem atEndOf_itemsBelow {bound : Nat} {close : TokenKind}
    {item : (c : Cursor) → c.ahead.length < bound → Step c α} (c : Cursor)
    (h : c.ahead.length < bound) : (itemsBelow bound close item c h).1.2.atEndOf close = true := by
  fun_induction itemsBelow bound close item c h with
  | case1 c h hend => exact hend
  | case2 c h hend r next hb hlt rest ih => exact ih

/-- Up to the end of the text means up to its last token. -/
theorem lexemes_itemsUntil {item : Reader α} {c : Cursor} (hc : c.Scanned) :
    (itemsUntil .endOfText item c).1.2.lexemes = [] :=
  (hc.of_suffix (itemsUntil .endOfText item c).2).lexemes_eq_nil (atEndOf_itemsBelow c _)

theorem accounts_itemsUntil {close : TokenKind} {item : Reader α} (hitem : item.Accounts W)
    (hne : ∀ a, ¬ W a []) : (itemsUntil close item).Accounts (Row W) :=
  fun c hc => itemsBelow_accounts (fun c _ => hitem c) hne c _ hc

theorem accounts_itemsIn {close : Punctuator} {item : Reader α} (hitem : item.Accounts W)
    (hne : ∀ a, ¬ W a []) :
    (itemsIn close item).Accounts fun as ls => ∃ row, ls = row ++ [mark close] ∧ Row W as row := by
  refine .bind (accounts_itemsUntil hitem hne) fun as => ?_
  refine .token (accounts_expect_mark close) fun _ => ?_
  exact .pure fun row hrow => ⟨row, rfl, hrow⟩

theorem accounts_optionalItems {opening closing : Punctuator} {item : Reader α}
    (hitem : item.Accounts W) (hne : ∀ a, ¬ W a []) :
    (optionalItems opening closing item).Accounts (Bracketed opening closing W) := by
  refine .choice (accounts_eat_mark opening) ?_ (.pure .absent)
  refine (accounts_itemsIn hitem hne).imp ?_
  rintro as _ ⟨row, rfl, hrow⟩
  exact .present hrow

/-- An item behind each mark. -/
theorem accounts_eachAfter {p : Punctuator} {item : Nat → Reader α}
    (hitem : ∀ n, (item n).Accounts fun a ls => W a (mark p :: ls)) :
    Accounts (eachAfter p item) (Row W) := by
  intro c hc
  fun_induction eachAfter p item c with
  | case1 c hm r hlt rest ih =>
    have hbehind : c.advance.Scanned := hc.of_suffix c.advance_ahead_suffix
    have hfirst : r.Accounts W :=
      .behindMark hc hm (hitem c.current.span.start c.advance hbehind) fun _ _ hw => hw
    exact hfirst.trans (ih (hc.of_suffix r.2)) fun _ _ hw hrow => .cons hw hrow
  | case2 c hm => exact .none rfl rfl .nil

/-- Words with a mark between each two. -/
theorem accounts_separated {p : Punctuator} {text : α → String} {item : Reader α}
    (hitem : item.Accounts fun a ls => ls = [word (text a)]) :
    (separated p item).Accounts (Separated p text) := by
  refine .exactly (accounts_eat_mark p) fun found => .token hitem fun first => ?_
  refine .last (V := Row fun a ls => ls = [mark p, word (text a)]) ?_ fun others => .pure ⟨rfl, ?_⟩
  · exact accounts_eachAfter fun _ => hitem.imp fun a ls hls => by rw [hls]
  · intro more hmore
    cases found with
    | true => exact .behindMark hmore
    | false => exact .plain hmore

/-- The answers that are there, where every item has one if it finds no fault. -/
theorem row_filterMap {os : List (Option α)} {ls : List Lexeme}
    (h : Row (fun o us => ∃ a, o = some a ∧ W a us) os ls) : Row W (os.filterMap id) ls := by
  induction h with
  | nil => exact .nil
  | cons hx _ ih =>
    obtain ⟨a, rfl, hw⟩ := hx
    exact .cons hw ih

theorem bracketed_filterMap {opening closing : Punctuator} {os : List (Option α)} {ls : List Lexeme}
    (h : Bracketed opening closing (fun o us => ∃ a, o = some a ∧ W a us) os ls) :
    Bracketed opening closing W (os.filterMap id) ls := by
  cases h with
  | absent => exact .absent
  | present hrow => exact .present (row_filterMap hrow)

end Loops

end Reader

end ResolverContracts
