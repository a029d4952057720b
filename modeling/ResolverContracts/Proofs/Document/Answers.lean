import ResolverContracts.Document.Parts
/-!
# What readers answer

A reader always answers, so there is one thing to ask about it: what holds of every answer, wherever
it starts (`Reader.Ensures`). This is a logic of postconditions without preconditions. Nothing that a
reader guarantees here depends on the text or the cursor, which is just what makes it a fact about
all documents.

The rules follow the ways to build a reader: one behind the other, a choice, and the loops. A loop
answers a list, and what an item ensures holds of each element.
-/

set_option autoImplicit false

namespace ResolverContracts

namespace Reader

variable {α β : Type}

/-- Whatever the reader answers, wherever it starts, has the property. -/
def Ensures (r : Reader α) (P : α → Prop) : Prop := ∀ c, P (r.run c).1

namespace Ensures

variable {r : Reader α} {next : α → Reader β} {P : α → Prop} {Q : β → Prop}

theorem pure {a : α} (h : P a) : Ensures (Pure.pure a) P := fun _ => h

/-- One reader behind the other: the second one is only asked with answers of the first. -/
theorem bind (hr : r.Ensures P) (hnext : ∀ a, P a → (next a).Ensures Q) :
    (r >>= next).Ensures Q := by
  intro c
  rw [run_bind]
  exact hnext _ (hr c) _

/-- A reader whose answer does not matter. -/
theorem behind (hnext : ∀ a, (next a).Ensures Q) : (r >>= next).Ensures Q := by
  intro c
  rw [run_bind]
  exact hnext _ _

theorem map {f : α → β} (hr : r.Ensures fun a => Q (f a)) : (f <$> r).Ensures Q :=
  fun c => hr c

theorem ite {p : Prop} [Decidable p] {s : Reader α} (hr : p → r.Ensures P) (hs : ¬ p → s.Ensures P) :
    (if p then r else s).Ensures P := by
  by_cases h : p
  · rw [if_pos h]
    exact hr h
  · rw [if_neg h]
    exact hs h

end Ensures

/-- The same behind a step that was made already. -/
theorem Ensures.andThen {c : Cursor} {s : Step c α} {next : α → Reader β} {Q : β → Prop}
    (h : (next s.1.1).Ensures Q) : Q (s.andThen next).1.1 :=
  h s.1.2

/-! ## Loops -/

section Loops

variable {item : Reader α} {P : α → Prop}

/-- A property of all items at all cursors holds of the whole list. The induction is on the tokens
ahead, as the loop is. -/
theorem forall_mem_itemsBelow {bound : Nat} {close : TokenKind}
    {item : (c : Cursor) → c.ahead.length < bound → Step c α} (hitem : ∀ c h, P (item c h).1.1)
    (c : Cursor) (h : c.ahead.length < bound) :
    ∀ x ∈ (itemsBelow bound close item c h).1.1, P x := by
  fun_induction itemsBelow bound close item c h with
  | case1 c h hc => exact List.forall_mem_nil _
  | case2 c h hc r next hb hlt rest ih =>
    -- The rest is read behind the item, or one token further on if the item took none.
    exact List.forall_mem_cons.mpr ⟨hitem c h, ih⟩

theorem ensures_itemsUntil {close : TokenKind} (hitem : item.Ensures P) :
    (itemsUntil close item).Ensures fun xs => ∀ x ∈ xs, P x := by
  intro c
  exact forall_mem_itemsBelow (fun c _ => hitem c) c _

theorem ensures_itemsIn {close : Punctuator} (hitem : item.Ensures P) :
    (itemsIn close item).Ensures fun xs => ∀ x ∈ xs, P x := by
  refine (ensures_itemsUntil hitem).bind fun items hitems => ?_
  exact .behind fun _ => .pure hitems

end Loops

end Reader

open Reader

theorem ensures_optionalItems {α : Type} {opening closing : Punctuator} {item : Reader α}
    {P : α → Prop} (hitem : item.Ensures P) :
    (optionalItems opening closing item).Ensures fun xs => ∀ x ∈ xs, P x := by
  refine .behind fun opened => .ite (fun _ => ensures_itemsIn hitem) fun _ => ?_
  exact .pure (List.forall_mem_nil _)

end ResolverContracts
