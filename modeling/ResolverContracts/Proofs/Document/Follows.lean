import ResolverContracts.Proofs.Document.Moved
/-!
# A text inside another one

What a reader does depends on the tokens from the cursor on and on the places they have. So it does
the same where these tokens stand in a larger text: at other places, behind other tokens and faults
found there, and with more tokens behind them. `Surroundings` say where a text stands in a larger one,
and `r.Matches s g r'` that the runs of two readers go along with each other there, the answers and
the places moved.

A reader looks at most one token ahead. So the two runs part ways only where the tokens of the smaller
text are used up and the larger one may go on (`Cursor.Sees`).
-/

set_option autoImplicit false

namespace ResolverContracts

/-! ## Surroundings -/

/-- A larger text around a text. -/
structure Surroundings where
  /-- Where the places of the text are in the larger one. -/
  place : Nat → Nat
  place_max : ∀ a b, place (max a b) = max (place a) (place b)
  /-- Where the text starts in the larger one. -/
  start : Nat
  start_le : ∀ a, start ≤ place a
  /-- The faults found in front of the text. -/
  before : List Fault
  /-- The tokens behind the text. -/
  behind : List Token
  /-- Where the larger text stops. -/
  stop : Nat
  /-- Whether the larger text is known to stop with the text. -/
  together : Prop
  behind_eq_nil : together → behind = []

variable (s : Surroundings)

/-- The second cursor is to the larger text what the first one is to the text. What was taken in front
of the text does not matter. -/
structure Cursor.Follows (c d : Cursor) : Prop where
  ahead : d.ahead = c.ahead.map (·.move s.place) ++ s.behind
  stop : d.stop = s.stop
  together : s.together → s.stop = s.place c.stop
  lastStop : max s.start d.lastStop = s.place c.lastStop
  faults : d.faults = s.before ++ c.faults.map (·.move s.place)

/-- The token at the cursor is the same in both texts. -/
def Cursor.Sees (c : Cursor) : Prop := s.together ∨ c.ahead ≠ []

variable {s}

namespace Cursor

variable {c d e : Cursor}

/-- What is still ahead later was ahead before. -/
theorem Sees.of_suffix (h : e.Sees s) (hsuffix : e.ahead <:+ c.ahead) : c.Sees s := by
  refine h.imp id fun hne hnil => hne ?_
  rw [hnil] at hsuffix
  exact List.suffix_nil.mp hsuffix

namespace Follows

/-- The token in front of one cursor is, moved, the one in front of the other. This is where `Sees` is
needed: at the end of the first text, the second has its next token there. -/
theorem current (h : c.Follows s d) (hsees : c.Sees s) : d.current = c.current.move s.place := by
  unfold Cursor.current
  rw [h.ahead]
  cases hc : c.ahead with
  | nil =>
    have htogether : s.together := hsees.resolve_right (by simp [hc])
    rw [s.behind_eq_nil htogether, h.stop, h.together htogether]
    rfl
  | cons t ts => rfl

theorem kind (h : c.Follows s d) (hsees : c.Sees s) : d.kind = c.kind := by
  rw [Cursor.kind, h.current hsees]
  rfl

theorem advance (h : c.Follows s d) (hsees : c.Sees s) : c.advance.Follows s d.advance where
  ahead := by
    change d.ahead.tail = c.ahead.tail.map _ ++ s.behind
    rw [h.ahead]
    cases hc : c.ahead with
    | nil => simp [s.behind_eq_nil (hsees.resolve_right (by simp [hc]))]
    | cons t ts => rfl
  stop := h.stop
  together := h.together
  lastStop := by
    change max s.start d.current.span.stop = s.place c.current.span.stop
    rw [h.current hsees]
    exact Nat.max_eq_right (s.start_le _)
  faults := h.faults

theorem report (h : c.Follows s d) (hsees : c.Sees s) (cause : Cause) :
    (c.report cause).Follows s (d.report cause) where
  ahead := h.ahead
  stop := h.stop
  together := h.together
  lastStop := h.lastStop
  faults := by
    simp only [Cursor.report, h.faults, h.kind hsees, h.current hsees, List.map_append,
      List.append_assoc]
    rfl

/-- A span runs from a place the reader kept to the last token that was passed; both ends are moved. -/
theorem spanFrom (h : c.Follows s d) (start : Nat) :
    d.spanFrom (s.place start) = (c.spanFrom start).move s.place := by
  -- The larger text starts in front of both places, so its start is none of the later ones.
  have hstop : max d.lastStop (s.place start) = s.place (max c.lastStop start) := by
    rw [s.place_max, ← h.lastStop, Nat.max_right_comm, Nat.max_eq_right (s.start_le start),
      Nat.max_comm]
  simp only [Cursor.spanFrom, Span.move, hstop]

/-- The second cursor has the tokens behind the first text left as well, a number that never changes. -/
theorem left (h : c.Follows s d) : d.left = c.left + s.behind.length := by
  rw [d.left_eq, c.left_eq, h.ahead, List.length_append, List.length_map]

theorem ahead_eq_nil_iff (h : c.Follows s d) (hsees : c.Sees s) : d.ahead = [] ↔ c.ahead = [] := by
  rw [h.ahead]
  cases hc : c.ahead with
  | nil => simp [s.behind_eq_nil (hsees.resolve_right (by simp [hc]))]
  | cons t ts => simp

theorem atEndOf (h : c.Follows s d) (hsees : c.Sees s) (close : TokenKind) :
    d.atEndOf close = c.atEndOf close := by
  have hempty : d.ahead.isEmpty = c.ahead.isEmpty := by
    rw [Bool.eq_iff_iff, List.isEmpty_iff, List.isEmpty_iff, h.ahead_eq_nil_iff hsees]
  simp only [Cursor.atEndOf, hempty, h.kind hsees]

end Follows

end Cursor

/-! ## Readers -/

/-- The steps have the same answer, apart from its places, and lead to cursors that go along. -/
structure Step.Follows {α β : Type} {c d : Cursor} (s : Surroundings) (g : α → β) (a : Step c α)
    (b : Step d β) : Prop where
  answer : b.1.1 = g a.1.1
  cursor : a.1.2.Follows s b.1.2

/-- Steps made from later cursors. -/
theorem Step.Follows.since {α β : Type} {c d e e' : Cursor} {g : α → β} {a : Step e α} {b : Step e' β}
    (h : a.Follows s g b) (hc : e.ahead <:+ c.ahead) (hd : e'.ahead <:+ d.ahead) :
    (a.since hc : Step c α).Follows s g (b.since hd : Step d β) :=
  ⟨h.answer, h.cursor⟩

namespace Reader

variable {α β γ δ : Type}

/-- Wherever two cursors go along, and as long as both texts have the same token there, the readers go
along. -/
def Matches (s : Surroundings) (g : α → β) (r : Reader α) (r' : Reader β) : Prop :=
  ∀ c d : Cursor, c.Follows s d → (r c).1.2.Sees s → (r c).Follows s g (r' d)

/-- Steps already made, and readers behind them. -/
theorem Matches.andThen {c d : Cursor} {a : Step c α} {b : Step d β} {g : α → β} {h : γ → δ}
    {next : α → Reader γ} {next' : β → Reader δ} (hab : a.1.2.Sees s → a.Follows s g b)
    (hnext : ∀ x, (next x).Matches s h (next' (g x))) (hsees : (a.andThen next).1.2.Sees s) :
    (a.andThen next).Follows s h (b.andThen next') := by
  obtain ⟨hanswer, hcursor⟩ := hab (hsees.of_suffix (next a.1.1 a.1.2).2)
  have hlater : (next a.1.1 a.1.2).Follows s h (next' b.1.1 b.1.2) := by
    rw [hanswer]
    exact hnext a.1.1 a.1.2 b.1.2 hcursor hsees
  exact ⟨hlater.answer, hlater.cursor⟩

namespace Matches

variable {g : α → β} {h : γ → δ} {r : Reader α} {r' : Reader β} {next : α → Reader γ}
  {next' : β → Reader δ}

theorem pure {a : α} {b : β} (hab : b = g a) : Matches s g (Pure.pure a) (Pure.pure b) :=
  fun _ _ hf _ => ⟨hab, hf⟩

/-- The rule that carries every reader below: a reader is followed when its first part is and, for each
answer of it, the rest is at the moved answer. -/
theorem bind (hr : r.Matches s g r') (hnext : ∀ a, (next a).Matches s h (next' (g a))) :
    (r >>= next).Matches s h (r' >>= next') :=
  fun c d hf hsees => andThen (hr c d hf) hnext hsees

/-- An answer without places, or none that matters. -/
theorem behind {r r' : Reader α} {next : α → Reader γ} {next' : α → Reader δ}
    (hr : r.Matches s id r') (hnext : ∀ a, (next a).Matches s h (next' a)) :
    (r >>= next).Matches s h (r' >>= next') :=
  .bind hr hnext

theorem map {f : α → γ} {f' : β → δ} (hr : r.Matches s g r') (hf : ∀ a, f' (g a) = h (f a)) :
    (f <$> r).Matches s h (f' <$> r') := by
  intro c d hcd hsees
  obtain ⟨hanswer, hcursor⟩ := hr c d hcd hsees
  refine ⟨?_, hcursor⟩
  change f' (r' d).1.1 = h (f (r c).1.1)
  rw [hanswer, hf]

/-- Both texts take the same branch: no condition of a reader is about a place. -/
theorem ite {p : Prop} [Decidable p] {q : Reader α} {q' : Reader β} (hr : p → r.Matches s g r')
    (hq : ¬ p → q.Matches s g q') : (if p then r else q).Matches s g (if p then r' else q') := by
  by_cases hp : p
  · rw [if_pos hp, if_pos hp]
    exact hr hp
  · rw [if_neg hp, if_neg hp]
    exact hq hp

end Matches

/-! ## Single tokens -/

theorem matches_current : current.Matches s (·.move s.place) current :=
  fun _ _ hf hsees => ⟨hf.current hsees, hf⟩

theorem matches_place : place.Matches s s.place place := by
  intro c d hf hsees
  refine ⟨?_, hf⟩
  change d.current.span.start = s.place c.current.span.start
  rw [hf.current hsees]
  rfl

theorem matches_advance : advance.Matches s id advance :=
  fun c _ hf hsees => ⟨rfl, hf.advance (hsees.of_suffix c.advance_ahead_suffix)⟩

theorem matches_report (cause : Cause) : (report cause).Matches s id (report cause) :=
  fun _ _ hf hsees => ⟨rfl, hf.report hsees cause⟩

theorem matches_spanFrom (start : Nat) :
    (spanFrom start).Matches s (·.move s.place) (spanFrom (s.place start)) :=
  fun _ _ hf _ => ⟨hf.spanFrom start, hf⟩

/-- An answer that needs the place of what was read. -/
theorem Matches.spanned {start : Nat} {f : Span → α} {f' : Span → β} {g : α → β}
    (hf : ∀ span, f' (span.move s.place) = g (f span)) :
    Matches s g (do return f (← spanFrom start)) (do return f' (← spanFrom (s.place start))) :=
  .bind (matches_spanFrom start) fun span => .pure (hf span)

theorem matches_eat (kind : TokenKind) : (eat kind).Matches s id (eat kind) := by
  refine .bind matches_current fun t => .ite (fun _ => ?_) fun _ => .pure rfl
  exact .behind matches_advance fun _ => .pure rfl

theorem matches_expect (kind : TokenKind) : (expect kind).Matches s id (expect kind) := by
  refine .behind (matches_eat kind) fun found => ?_
  cases found with
  | true => exact .pure rfl
  | false => exact matches_report _

/-! ## Loops -/

section Loops

variable {g : α → β} {item : Reader α} {item' : Reader β}

/-- A loop forces its way past an item that took nothing. Whether it has to depends on how many tokens
are left, and the surroundings add the same number to both counts. -/
theorem pastItem_follows {before before' after after' : Cursor} (hbefore : before.Follows s before')
    (hafter : after.Follows s after') (hsees : after.Sees s) :
    (pastItem before after).Follows s (pastItem before' after') := by
  have hiff : after'.left < before'.left ↔ after.left < before.left := by
    rw [hbefore.left, hafter.left]
    omega
  unfold pastItem
  by_cases hlt : after.left < before.left
  · rw [if_pos hlt, if_pos (hiff.mpr hlt)]
    exact hafter
  · rw [if_neg hlt, if_neg (mt hiff.mp hlt)]
    exact hafter.advance hsees

/-- The loops go along, item by item. The induction is on the tokens ahead, as the loop is. -/
theorem itemsBelow_follows {bound bound' : Nat} {close : TokenKind}
    {item : (c : Cursor) → c.ahead.length < bound → Step c α}
    {item' : (d : Cursor) → d.ahead.length < bound' → Step d β}
    (hitem : ∀ c h d h', c.Follows s d → (item c h).1.2.Sees s →
      (item c h).Follows s g (item' d h'))
    (c : Cursor) (h : c.ahead.length < bound) (d : Cursor) (h' : d.ahead.length < bound')
    (hcd : c.Follows s d) (hsees : (itemsBelow bound close item c h).1.2.Sees s) :
    (itemsBelow bound close item c h).Follows s (·.map g) (itemsBelow bound' close item' d h') := by
  fun_induction itemsBelow bound close item c h generalizing d with
  | case1 c h hend =>
    have hend' : d.atEndOf close = true := by rwa [hcd.atEndOf hsees]
    unfold itemsBelow
    rw [dif_pos hend']
    exact ⟨rfl, hcd⟩
  | case2 c h hend r next hb hlt rest ih =>
    -- What is seen behind the loop was seen behind the item and in front of it.
    have hnext : next.Sees s := hsees.of_suffix rest.2
    have hafter : r.1.2.Sees s := by
      refine hnext.of_suffix ?_
      change (pastItem c r.1.2).ahead <:+ r.1.2.ahead
      unfold pastItem
      split
      · exact List.suffix_refl _
      · exact r.1.2.advance_ahead_suffix
    have hend' : ¬ d.atEndOf close = true := by rwa [hcd.atEndOf (hafter.of_suffix r.2)]
    have hfirst : r.Follows s g (item' d h') := hitem c h d h' hcd hafter
    have hpast : next.Follows s (pastItem d (item' d h').1.2) :=
      pastItem_follows hcd hfirst.cursor hafter
    rw [itemsBelow, dif_neg hend']
    obtain ⟨hanswer, hcursor⟩ := ih _ (Nat.lt_trans (length_pastItem_lt (item' d h').2
      fun hn => hend' (by simp [Cursor.atEndOf, hn])) h') hpast hsees
    refine ⟨?_, hcursor⟩
    change _ :: _ = List.map g (r.1.1 :: rest.1.1)
    rw [List.map_cons, ← hfirst.answer, ← hanswer]

theorem matches_itemsUntil (close : TokenKind) (hitem : item.Matches s g item') :
    (itemsUntil close item).Matches s (·.map g) (itemsUntil close item') :=
  fun c d => itemsBelow_follows (fun c _ d _ => hitem c d) c _ d _

theorem matches_itemsIn (close : Punctuator) (hitem : item.Matches s g item') :
    (itemsIn close item).Matches s (·.map g) (itemsIn close item') := by
  refine .bind (matches_itemsUntil _ hitem) fun items => ?_
  exact .behind (matches_expect _) fun _ => .pure rfl

/-- Each item is told where its mark stands, so the place is moved for the second text. -/
theorem matches_eachAfter (p : Punctuator) {item : Nat → Reader α} {item' : Nat → Reader β}
    (hitem : ∀ n, (item n).Matches s g (item' (s.place n))) :
    Matches s (·.map g) (eachAfter p item) (eachAfter p item') := by
  intro c d hcd hsees
  fun_induction eachAfter p item c generalizing d with
  | case1 c hm r hlt rest ih =>
    -- The mark is seen in both texts because what comes behind it is.
    have hafter : r.1.2.Sees s := hsees.of_suffix rest.2
    have hc : c.Sees s := hafter.of_suffix r.2
    have hm' : d.kind = .punct p := by rwa [hcd.kind hc]
    have hfirst : (item c.current.span.start c.advance).Follows s g
        (item' d.current.span.start d.advance) := by
      rw [hcd.current hc]
      exact hitem c.current.span.start c.advance d.advance (hcd.advance hc) hafter
    obtain ⟨hanswer, hcursor⟩ := ih (item' d.current.span.start d.advance).1.2 hfirst.cursor hsees
    rw [eachAfter, dif_pos hm']
    refine ⟨?_, hcursor⟩
    change _ :: _ = List.map g (r.1.1 :: rest.1.1)
    rw [List.map_cons, ← hanswer]
    exact congrArg (· :: _) hfirst.answer
  | case2 c hm =>
    have hm' : ¬ d.kind = .punct p := by rwa [hcd.kind hsees]
    rw [eachAfter, dif_neg hm']
    exact ⟨rfl, hcd⟩

theorem matches_separated (p : Punctuator) (hitem : item.Matches s g item') :
    (separated p item).Matches s (·.map g) (separated p item') := by
  refine .behind (matches_eat _) fun _ => .bind hitem fun first => ?_
  exact .bind (matches_eachAfter p fun _ => hitem) fun others => .pure rfl

end Loops

/-! ## Skipping -/

theorem matches_skipTo (p : Punctuator) : Matches s id (skipTo p) (skipTo p) := by
  intro c d hcd hsees
  fun_induction skipTo p c generalizing d with
  | case1 c hend =>
    rw [skipTo, dif_pos (by rwa [hcd.atEndOf hsees])]
    exact ⟨rfl, hcd⟩
  | case2 c hend hb hlt ih =>
    have hc : c.Sees s := .inr hb
    have hend' : ¬ d.atEndOf (.punct p) = true := by rwa [hcd.atEndOf hc]
    have hskip : skipTo p d = (skipTo p d.advance).since d.advance_ahead_suffix := by
      rw [skipTo, dif_neg hend']
    rw [hskip]
    exact (ih d.advance (hcd.advance hc) hsees).since _ _

/-- The depth depends on the kinds of the tokens alone, so both texts count it alike. -/
theorem matches_skipBlock (depth : Nat) : Matches s id (skipBlock depth) (skipBlock depth) := by
  intro c d hcd hsees
  fun_induction skipBlock depth c generalizing d with
  | case1 depth c hb =>
    rw [skipBlock, dif_pos ((hcd.ahead_eq_nil_iff hsees).mpr hb)]
    exact ⟨rfl, hcd⟩
  | case2 depth c hb deeper hzero =>
    have hc : c.Sees s := .inr hb
    have hzero' : depthBehind depth d.kind = 0 := by rwa [hcd.kind hc]
    rw [skipBlock, dif_neg (mt (hcd.ahead_eq_nil_iff hc).mp hb)]
    simp only [hzero', if_true]
    exact ⟨rfl, hcd.advance hc⟩
  | case3 depth c hb deeper hdeeper hlt ih =>
    have hc : c.Sees s := .inr hb
    have hdeeper' : depthBehind depth d.kind = deeper := by rw [hcd.kind hc]
    have hskip : skipBlock depth d =
        (skipBlock deeper d.advance).since d.advance_ahead_suffix := by
      rw [skipBlock, dif_neg (mt (hcd.ahead_eq_nil_iff hc).mp hb)]
      simp only [hdeeper', hdeeper, if_false]
    rw [hskip]
    exact (ih d.advance (hcd.advance hc) hsees).since _ _

end Reader

end ResolverContracts
