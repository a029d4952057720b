import ResolverContracts.Proofs.Document.Accounts
/-!
# How a reader goes on

All that a reader does to a cursor is to take the current token and to report a fault, and
`c.Reaches n d` says that `d` is reached from `c` so. A token is taken once, but nothing in the type
of readers forbids to take the end of the text again and again; `n` counts how often that happened.

The count is bounded by where a reader starts (`EndUse`). Most readers never take the end of the
text. A constant that is missing is taken all the same, the end of the text in its place. Behind that
no loop asks for another item, so a loop over such items takes the end at most once, and not at all
if it starts there: that is what lets the readers of definitions follow one another.
-/

set_option autoImplicit false

namespace ResolverContracts

/-! ## Runs -/

namespace Cursor

variable {c d e : Cursor} {m n : Nat}

/-- From one cursor to another by tokens taken and faults reported. The number counts how often the
end of the text was taken. -/
inductive Reaches (c : Cursor) : Nat → Cursor → Prop
  | here : Reaches c 0 c
  | advance {n : Nat} {d : Cursor} (h : Reaches c n d) (hd : d.ahead ≠ []) : Reaches c n d.advance
  | advanceEnd {n : Nat} {d : Cursor} (h : Reaches c n d) (hd : d.ahead = []) :
      Reaches c (n + 1) d.advance
  | report {n : Nat} {d : Cursor} (h : Reaches c n d) (cause : Cause) :
      Reaches c n (d.report cause)

theorem Reaches.trans (h : c.Reaches m d) (hlater : d.Reaches n e) : c.Reaches (m + n) e := by
  induction hlater with
  | here => exact h
  | advance _ hd ih => exact ih.advance hd
  | advanceEnd _ hd ih => exact ih.advanceEnd hd
  | report _ cause ih => exact ih.report cause

/-- Where no token is ahead stands the end of the text. -/
theorem current_of_nil (h : c.ahead = []) : c.current = .endAt c.stop := by
  rw [current, h, List.headD_nil]

/-- A token ahead is the current one. -/
theorem ahead_eq_cons (h : c.ahead ≠ []) : c.ahead = c.current :: c.advance.ahead := by
  obtain ⟨t, ts, hahead⟩ := List.exists_cons_of_ne_nil h
  simp only [current, advance, hahead, List.headD_cons, List.tail_cons]

/-- The tokens on the way are taken in their order, and then the end of the text, as often as it is
counted. -/
theorem Reaches.taken_eq (h : c.Reaches n d) :
    d.stop = c.stop ∧ (n ≠ 0 → d.ahead = []) ∧ ∃ ts, c.ahead = ts ++ d.ahead ∧
      d.taken = List.replicate n (.endAt c.stop) ++ (ts.reverse ++ c.taken) := by
  induction h with
  | here => exact ⟨rfl, absurd rfl, [], rfl, rfl⟩
  | @advance n d _ hd ih =>
    obtain ⟨hstop, hnil, ts, hahead, htaken⟩ := ih
    -- A token is still ahead, so the end of the text has not been taken yet.
    obtain rfl : n = 0 := by
      by_contra hn
      exact hd (hnil hn)
    refine ⟨hstop, absurd rfl, ts ++ [d.current], ?_, ?_⟩
    · rw [hahead, ahead_eq_cons hd, List.append_assoc]
      rfl
    · simp [Cursor.advance, htaken]
  | @advanceEnd n d _ hd ih =>
    obtain ⟨hstop, -, ts, hahead, htaken⟩ := ih
    have hnil : d.advance.ahead = [] := by simp [Cursor.advance, hd]
    refine ⟨hstop, fun _ => hnil, ts, by rw [hnil, hahead, hd], ?_⟩
    change d.current :: d.taken = _
    rw [current_of_nil hd, hstop, htaken, List.replicate_succ, List.cons_append]
  | report _ cause ih => exact ih

theorem Reaches.ahead_eq_nil (h : c.Reaches n d) (hn : n ≠ 0) : d.ahead = [] := h.taken_eq.2.1 hn

theorem Reaches.ahead_suffix (h : c.Reaches n d) : d.ahead <:+ c.ahead := by
  obtain ⟨-, -, ts, hahead, -⟩ := h.taken_eq
  exact ⟨ts, hahead.symm⟩

end Cursor

/-! ## Bounds -/

/-- How often the end of the text may be taken. -/
inductive EndUse
  | never
  /-- Once, but not from the end of the text on. -/
  | fromInside
  | once

/-- The bound for going on with a reader that does not take the end where it starts there. -/
def EndUse.orInside : EndUse → EndUse
  | never => fromInside
  | use => use

/-- The bound for a start at the end of the text or in front of it. -/
def EndUse.bound : EndUse → Bool → Nat
  | never, _ => 0
  | fromInside, atEnd => if atEnd then 0 else 1
  | once, _ => 1

/-- A start at the end of the text is never allowed more than one in front of it. -/
theorem EndUse.bound_le (use : EndUse) (atEnd : Bool) : use.bound atEnd ≤ use.bound false := by
  cases use <;> cases atEnd <;> decide

theorem EndUse.bound_le_orInside (use : EndUse) (atEnd : Bool) :
    use.bound atEnd ≤ use.orInside.bound atEnd := by
  cases use <;> cases atEnd <;> decide

namespace Cursor

/-- The second cursor is reached from the first one with the end of the text taken no more often than
that. -/
def Uses (c d : Cursor) (use : EndUse) : Prop := ∃ n ≤ use.bound c.ahead.isEmpty, c.Reaches n d

namespace Uses

variable {c d e : Cursor} {use : EndUse}

theorem refl : c.Uses c use := ⟨0, Nat.zero_le _, .here⟩

theorem fromInside (h : c.Uses d .never) : c.Uses d .fromInside := by
  obtain ⟨n, hn, hreach⟩ := h
  exact ⟨n, Nat.le_trans hn (Nat.zero_le _), hreach⟩

/-- Once is the widest bound that there is. -/
theorem once (h : c.Uses d use) : c.Uses d .once := by
  obtain ⟨n, hn, hreach⟩ := h
  refine ⟨n, Nat.le_trans hn ?_, hreach⟩
  generalize c.ahead.isEmpty = atEnd
  cases use <;> cases atEnd <;> decide

/-- Where tokens are ahead it makes no difference whether the end may be taken from there on. -/
theorem of_once (h : c.Uses d .once) (hc : c.ahead ≠ []) : c.Uses d .fromInside := by
  obtain ⟨n, hn, hreach⟩ := h
  refine ⟨n, ?_, hreach⟩
  rwa [List.isEmpty_eq_false_iff.mpr hc]

/-- The end of the text is not taken at first. -/
theorem trans_of_never (h : c.Uses d .never) (hlater : d.Uses e use) : c.Uses e use := by
  obtain ⟨m, hm, hreach⟩ := h
  obtain rfl : m = 0 := Nat.le_zero.mp hm
  obtain ⟨n, hn, hreach'⟩ := hlater
  refine ⟨0 + n, ?_, hreach.trans hreach'⟩
  rw [Nat.zero_add]
  -- At the end of the text both start there; in front of it the bound is at its largest.
  by_cases hc : c.ahead = []
  · have hd : d.ahead = [] := List.suffix_nil.mp (hc ▸ hreach.ahead_suffix)
    rwa [hd, ← hc] at hn
  · rw [List.isEmpty_eq_false_iff.mpr hc]
    exact Nat.le_trans hn (use.bound_le _)

/-- The end of the text may be taken at first, and is not taken from there on. -/
theorem trans_of_inside (h : c.Uses d use) (hlater : d.Uses e .fromInside) :
    c.Uses e use.orInside := by
  obtain ⟨m, hm, hreach⟩ := h
  obtain ⟨n, hn, hreach'⟩ := hlater
  refine ⟨m + n, ?_, hreach.trans hreach'⟩
  by_cases hd : d.ahead = []
  · have hnone : n ≤ 0 := by rwa [hd] at hn
    rw [Nat.le_zero.mp hnone]
    exact Nat.le_trans hm (use.bound_le_orInside _)
  · -- Tokens are left in between, so the end of the text has not been taken.
    obtain rfl : m = 0 := by
      by_contra hne
      exact hd (hreach.ahead_eq_nil hne)
    have hc : c.ahead ≠ [] := by
      intro hc
      exact hd (List.suffix_nil.mp (hc ▸ hreach.ahead_suffix))
    rw [List.isEmpty_eq_false_iff.mpr hd] at hn
    rw [List.isEmpty_eq_false_iff.mpr hc, Nat.zero_add]
    cases use <;> exact hn

theorem report (cause : Cause) : c.Uses (c.report cause) use := ⟨0, Nat.zero_le _, .report .here cause⟩

theorem advance_of_ne (hc : c.ahead ≠ []) : c.Uses c.advance use :=
  ⟨0, Nat.zero_le _, .advance .here hc⟩

/-- A token taken unseen may be the end of the text, and then is counted. -/
theorem advance : c.Uses c.advance .once := by
  by_cases hc : c.ahead = []
  · exact ⟨1, Nat.le_refl _, .advanceEnd .here hc⟩
  · exact advance_of_ne hc

end Uses

variable {c : Cursor}

/-- At a kind of token other than the end of the text, a token is ahead. -/
theorem ahead_ne_nil_of_kind (h : c.kind ≠ .endOfText) : c.ahead ≠ [] := by
  intro hnil
  rw [kind, current_of_nil hnil] at h
  exact h rfl

theorem ahead_ne_nil_of_atEndOf {close : TokenKind} (h : ¬ c.atEndOf close = true) : c.ahead ≠ [] := by
  intro hnil
  exact h (by simp [atEndOf, hnil])

end Cursor

/-- The bound for a step. -/
def Step.Uses {α : Type} {c : Cursor} (s : Step c α) (use : EndUse) : Prop := c.Uses s.1.2 use

namespace Reader

variable {α β : Type} {r : Reader α} {next : α → Reader β}

/-- The bound for a reader, wherever it starts. -/
def Uses (r : Reader α) (use : EndUse) : Prop := ∀ c, (r c).Uses use

/-! ## Rules -/

namespace Uses

theorem pure {a : α} {use : EndUse} : Uses (Pure.pure a : Reader α) use := fun _ => .refl

theorem fromInside (h : r.Uses .never) : r.Uses .fromInside := fun c => (h c).fromInside

theorem once {use : EndUse} (h : r.Uses use) : r.Uses .once := fun c => (h c).once

theorem ite {p : Prop} [Decidable p] {s : Reader α} {use : EndUse} (hr : r.Uses use)
    (hs : s.Uses use) : (if p then r else s).Uses use := by
  by_cases h : p
  · rwa [if_pos h]
  · rwa [if_neg h]

/-- A step that never takes the end of the text, in front of any reader. -/
theorem andThen_never {use : EndUse} {c : Cursor} {s : Step c α} (hs : s.Uses .never)
    (hnext : ∀ a, (next a).Uses use) : (s.andThen next).Uses use :=
  hs.trans_of_never (hnext _ _)

/-- A step that may take the end of the text, in front of a reader that does not do so from there
on. -/
theorem andThen {use : EndUse} {c : Cursor} {s : Step c α} (hs : s.Uses use)
    (hnext : ∀ a, (next a).Uses .fromInside) : (s.andThen next).Uses use.orInside :=
  hs.trans_of_inside (hnext _ _)

/-- The rule for readers that begin with something harmless: the bound is that of the rest. -/
theorem behind_never {use : EndUse} (hr : r.Uses .never) (hnext : ∀ a, (next a).Uses use) :
    (r >>= next).Uses use :=
  fun c => andThen_never (hr c) hnext

/-- The rule for readers that may take the end at first, with nothing behind that takes it again. -/
theorem bind {use : EndUse} (hr : r.Uses use) (hnext : ∀ a, (next a).Uses .fromInside) :
    (r >>= next).Uses use.orInside :=
  fun c => andThen (hr c) hnext

theorem map {f : α → β} {use : EndUse} (h : r.Uses use) : (f <$> r).Uses use := h

end Uses

/-! ## Single tokens -/

theorem uses_current : current.Uses .never := fun _ => .refl

theorem uses_place : place.Uses .never := fun _ => .refl

theorem uses_spanFrom (start : Nat) : (spanFrom start).Uses .never := fun _ => .refl

theorem uses_report (cause : Cause) : (report cause).Uses .never := fun _ => .report cause

/-- The one reader that takes the current token without a look at it. -/
theorem uses_advance : advance.Uses .once := fun _ => .advance

/-- What is looked for is never the end of the text, so what is taken is a token. -/
theorem uses_eat {kind : TokenKind} (hkind : kind ≠ .endOfText) : (eat kind).Uses .never := by
  intro c
  unfold eat
  rw [current_bind]
  by_cases h : c.current.kind = kind
  · rw [if_pos h]
    exact Cursor.Uses.advance_of_ne (Cursor.ahead_ne_nil_of_kind (by rwa [Cursor.kind, h]))
  · rw [if_neg h]
    exact .refl

theorem uses_expect {kind : TokenKind} (hkind : kind ≠ .endOfText) : (expect kind).Uses .never := by
  refine (uses_eat hkind).behind_never fun found => ?_
  cases found with
  | true => exact .pure
  | false => exact uses_report _

theorem uses_eat_mark (mark : Punctuator) : (eat (.punct mark)).Uses .never := uses_eat nofun

theorem uses_expect_mark (mark : Punctuator) : (expect (.punct mark)).Uses .never :=
  uses_expect nofun

theorem uses_eat_keyword (k : Keyword) : (eat (.keyword k)).Uses .never := uses_eat nofun

theorem uses_expect_keyword (k : Keyword) : (expect (.keyword k)).Uses .never := uses_expect nofun

/-! ## Loops -/

section Loops

variable {use : EndUse}

/-- Where a loop goes on, an item took a token, or the one that is skipped is there. -/
theorem reaches_pastItem {before after : Cursor} {n : Nat} (h : before.Reaches n after)
    (hbefore : before.ahead ≠ []) : before.Reaches n (pastItem before after) := by
  unfold pastItem
  split
  · exact h
  · next hleft =>
    refine h.advance ?_
    obtain ⟨-, -, ts, hahead, -⟩ := h.taken_eq
    have hpos := List.length_pos_iff.mpr hbefore
    have hlength := congrArg List.length hahead
    rw [before.left_eq, after.left_eq] at hleft
    rw [List.length_append] at hlength
    exact List.length_pos_iff.mp (by omega)

/-- Once the end of the text is taken, no item is asked for. -/
theorem uses_itemsBelow {bound : Nat} {close : TokenKind}
    {item : (c : Cursor) → c.ahead.length < bound → Step c α} (hitem : ∀ c h, (item c h).Uses .once)
    (c : Cursor) (h : c.ahead.length < bound) :
    (itemsBelow bound close item c h).Uses .fromInside := by
  fun_induction itemsBelow bound close item c h with
  | case1 c h hend => exact .refl
  | case2 c h hend r next hb hlt rest ih =>
    -- An item is asked for where tokens are ahead, so its one use of the end is one from inside.
    obtain ⟨n, hn, hreach⟩ := hitem c h
    have hfirst : c.Uses next .once := ⟨n, hn, reaches_pastItem hreach hb⟩
    exact (hfirst.of_once hb).trans_of_inside ih

/-- A loop takes the end of the text at most once, and an item did so in front of it. -/
theorem uses_itemsUntil {close : TokenKind} {item : Reader α} (hitem : item.Uses .once) :
    (itemsUntil close item).Uses .fromInside :=
  fun c => uses_itemsBelow (fun c _ => hitem c) c _

theorem uses_itemsIn {close : Punctuator} {item : Reader α} (hitem : item.Uses .once) :
    (itemsIn close item).Uses .fromInside := by
  refine (uses_itemsUntil hitem).bind fun items => ?_
  exact (uses_expect_mark close).behind_never fun _ => .pure

theorem uses_optionalItems {opening closing : Punctuator} {item : Reader α} (hitem : item.Uses .once) :
    (optionalItems opening closing item).Uses .fromInside := by
  refine (uses_eat_mark opening).behind_never fun found => ?_
  exact .ite (uses_itemsIn hitem) .pure

/-- An item stands behind a mark, so the loop asks for none at the end of the text. -/
theorem uses_eachAfter {mark : Punctuator} {item : Nat → Reader α} (huse : use ≠ .once)
    (hitem : ∀ n, (item n).Uses use) : Uses (eachAfter mark item) use := by
  intro c
  fun_induction eachAfter mark item c with
  | case1 c hm r hlt rest ih =>
    have hb : c.ahead ≠ [] := Cursor.ahead_ne_nil_of_punct hm
    have hfirst : c.Uses r.1.2 use :=
      (Cursor.Uses.advance_of_ne hb).trans_of_never (hitem _ c.advance)
    cases use with
    | never => exact hfirst.trans_of_never ih
    | fromInside => exact hfirst.trans_of_inside ih
    | once => exact absurd rfl huse
  | case2 c hm => exact .refl

theorem uses_separated {mark : Punctuator} {item : Reader α} (hitem : item.Uses .never) :
    (separated mark item).Uses .never := by
  refine (uses_eat_mark mark).behind_never fun _ => hitem.behind_never fun first => ?_
  have hothers : Uses (eachAfter mark fun _ => item) .never := uses_eachAfter nofun fun _ => hitem
  exact hothers.behind_never fun _ => .pure

theorem uses_skipTo (mark : Punctuator) : Uses (skipTo mark) .never := by
  intro c
  fun_induction skipTo mark c with
  | case1 c hc => exact .refl
  | case2 c hc hb hlt ih => exact (Cursor.Uses.advance_of_ne hb).trans_of_never ih

theorem uses_skipBlock (depth : Nat) : Uses (skipBlock depth) .never := by
  intro c
  fun_induction skipBlock depth c with
  | case1 depth c hc => exact .refl
  | case2 depth c hb deeper hdeeper => exact .advance_of_ne hb
  | case3 depth c hb deeper hdeeper hlt ih => exact (Cursor.Uses.advance_of_ne hb).trans_of_never ih

end Loops

end Reader

end ResolverContracts
